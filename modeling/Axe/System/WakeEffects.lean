import Axe.System.Clocks
import Mathlib.Data.Nat.Basic

/-! What the operations of resources do to the clocks of threads. An operation that is
done at a time moves threads to that time and puts them into the queue there; it moves
a clock back only for a thread that something records or sends events to. -/

namespace Axe

namespace System

/-- Something can end the wait of the thread without a look at its clock: it takes events,
or a resource keeps a record of it. -/
def Exposed (sys : System) (u : Nat) : Prop :=
  (sys.threads u).eeble = true ∨ (sys.threads u).ieble = true ∨ ∃ slot, u ∈ sys.table.recorded slot

structure ClockEffect (due : Nat) (pre post : System) (u : Nat) : Prop where
  place : ∀ w, (post.threads u).wakeUpTime = some w →
    w = due ∧ due ≤ (post.threads u).time ∨
      (pre.threads u).wakeUpTime = some w ∧
        ((pre.threads u).time ≤ (post.threads u).time ∨ w ≤ (post.threads u).time)
  waiting : (post.threads u).waiting = true →
    (pre.threads u).waiting = true ∧ (pre.threads u).time ≤ (post.threads u).time
  woken : (pre.threads u).waiting = true → (post.threads u).waiting = false → due ≤ (post.threads u).time
  later : due ≤ (pre.threads u).time → due ≤ (post.threads u).time
  back : (pre.threads u).time ≤ (post.threads u).time ∨ pre.Exposed u
  exposed : post.Exposed u → pre.Exposed u

structure CurrentEffect (due : Nat) (pre post : Thread) : Prop where
  forward : pre.time ≤ post.time
  place : ∀ w, post.wakeUpTime = some w → w = due ∧ due ≤ post.time ∨ pre.wakeUpTime = some w
  woken : pre.waiting = true → post.waiting = false → due ≤ post.time

structure ClockEffects (due : Nat) (pre post : System) : Prop where
  thread : ∀ u, pre.currentRunnable ≠ some u → ClockEffect due pre post u
  current : ∀ u, pre.currentRunnable = some u → CurrentEffect due (pre.threads u) (post.threads u)
  currentRunnable : post.currentRunnable = pre.currentRunnable
  reached : ∀ u, post.currentRunnable = some u → (post.threads u).time ≤ due
  timer : ∀ n w, (post.timers n).wakeUpTime = some w → (pre.timers n).wakeUpTime = some w ∨ due ≤ w

variable {due : Nat} {pre mid post : System} {u : Nat}

lemma ClockEffect.trans (fst : ClockEffect due pre mid u) (snd : ClockEffect due mid post u) :
    ClockEffect due pre post u := by
  constructor
  · intro w place
    obtain new | ⟨place, bound⟩ := snd.place w place
    · exact .inl new
    obtain ⟨rfl, reach⟩ | ⟨place, prior⟩ := fst.place w place
    · exact .inl ⟨rfl, bound.elim reach.trans id⟩
    · refine .inr ⟨place, ?_⟩
      obtain fwd | bound := bound
      · exact prior.imp (·.trans fwd) (·.trans fwd)
      · exact .inr bound
  · intro wait
    obtain ⟨waited, fwd⟩ := snd.waiting wait
    obtain ⟨waited, prior⟩ := fst.waiting waited
    exact ⟨waited, prior.trans fwd⟩
  · intro wait woken
    cases still : (mid.threads u).waiting with
    | true => exact snd.woken still woken
    | false => exact snd.later (fst.woken wait still)
  · exact fun reach => snd.later (fst.later reach)
  · obtain fwd | seen := snd.back
    · exact fst.back.imp_left (·.trans fwd)
    · exact .inr (fst.exposed seen)
  · exact fun seen => fst.exposed (snd.exposed seen)

lemma ClockEffects.trans (fst : ClockEffects due pre mid) (snd : ClockEffects due mid post) :
    ClockEffects due pre post := by
  have same := fst.currentRunnable
  constructor
  · intro u rests
    exact (fst.thread u rests).trans (snd.thread u (by rwa [same]))
  · intro u exec
    have prior := fst.current u exec
    have later := snd.current u (by rwa [same])
    refine ⟨prior.forward.trans later.forward, fun w place => ?_, fun wait woken => ?_⟩
    · obtain new | place := later.place w place
      · exact .inl new
      · exact (prior.place w place).imp_left fun ⟨isDue, reach⟩ => ⟨isDue, reach.trans later.forward⟩
    · cases still : (mid.threads u).waiting with
      | true => exact later.woken still woken
      | false => exact (prior.woken wait still).trans later.forward
  · exact snd.currentRunnable.trans same
  · exact snd.reached
  · intro n w place
    obtain place | later := snd.timer n w place
    · exact fst.timer n w place
    · exact .inr later

structure SameClocks (due : Nat) (pre post : System) : Prop where
  clock : ∀ u, ((post.threads u).time, (post.threads u).waiting, (post.threads u).wakeUpTime) =
    ((pre.threads u).time, (pre.threads u).waiting, (pre.threads u).wakeUpTime)
  exposed : ∀ u, pre.currentRunnable ≠ some u → post.Exposed u → pre.Exposed u
  currentRunnable : post.currentRunnable = pre.currentRunnable
  timer : ∀ n w, (post.timers n).wakeUpTime = some w → (pre.timers n).wakeUpTime = some w ∨ due ≤ w

lemma SameClocks.effects (same : SameClocks due pre post)
    (reach : ∀ u, pre.currentRunnable = some u → (pre.threads u).time ≤ due) :
    ClockEffects due pre post := by
  have clock (u : Nat) : (post.threads u).time = (pre.threads u).time ∧
      (post.threads u).waiting = (pre.threads u).waiting ∧
      (post.threads u).wakeUpTime = (pre.threads u).wakeUpTime := by
    simpa using same.clock u
  constructor
  · intro u rests
    obtain ⟨time, wait, place⟩ := clock u
    constructor
    · intro w put
      exact .inr ⟨place ▸ put, .inl time.ge⟩
    · exact fun waits => ⟨wait ▸ waits, time.ge⟩
    · intro waits woken
      simp [wait, waits] at woken
    · exact fun later => time ▸ later
    · exact .inl time.ge
    · exact same.exposed u rests
  · intro u _
    obtain ⟨time, wait, place⟩ := clock u
    refine ⟨time.ge, fun w put => .inr (place ▸ put), fun waits woken => ?_⟩
    simp [wait, waits] at woken
  · exact same.currentRunnable
  · intro u exec
    rw [(clock u).1]
    exact reach u (same.currentRunnable ▸ exec)
  · exact same.timer

variable {sys : System}

lemma Exposed.of_recorded {t : Nat} {slot : WaitSlot} (noted : t ∈ sys.table.recorded slot) : sys.Exposed t :=
  .inr (.inr ⟨slot, noted⟩)

lemma Exposed.mono (seen : post.Exposed u)
    (eeble : (post.threads u).eeble = true → (pre.threads u).eeble = true)
    (ieble : (post.threads u).ieble = true → (pre.threads u).ieble = true)
    (noted : ∀ slot, u ∈ post.table.recorded slot → u ∈ pre.table.recorded slot) : pre.Exposed u := by
  obtain takes | interrupted | ⟨slot, rec⟩ := seen
  · exact .inl (eeble takes)
  · exact .inr (.inl (ieble interrupted))
  · exact .of_recorded (noted slot rec)

lemma updateThread_effects {t : Nat} {upd : Thread → Thread}
    (reach : ∀ u, sys.currentRunnable = some u → (sys.threads u).time ≤ due)
    (rests : sys.currentRunnable ≠ some t → ClockEffect due sys (sys.updateThread t upd) t)
    (exec : sys.currentRunnable = some t →
      CurrentEffect due (sys.threads t) (upd (sys.threads t)) ∧ (upd (sys.threads t)).time ≤ due) :
    ClockEffects due sys (sys.updateThread t upd) := by
  have other {v : Nat} (ne : v ≠ t) : (sys.updateThread t upd).threads v = sys.threads v := by
    simp [updateThread, ne]
  have self : (sys.updateThread t upd).threads t = upd (sys.threads t) := by simp [updateThread]
  constructor
  · intro v notExecuting
    by_cases same : v = t
    · exact same ▸ rests (same ▸ notExecuting)
    · have unchanged := other same
      constructor
      · exact fun w place => .inr ⟨unchanged ▸ place, .inl (by rw [unchanged])⟩
      · exact fun wait => ⟨unchanged ▸ wait, by rw [unchanged]⟩
      · intro wait woken
        simp [unchanged, wait] at woken
      · exact fun later => unchanged ▸ later
      · exact .inl (by rw [unchanged])
      · intro seen
        exact seen.mono (unchanged ▸ id) (unchanged ▸ id) fun _ => id
  · intro v runs
    by_cases same : v = t
    · subst same
      rw [self]
      exact (exec runs).1
    · rw [other same]
      refine ⟨le_rfl, fun w place => .inr place, fun wait woken => ?_⟩
      simp [wait] at woken
  · rfl
  · intro v runs
    by_cases same : v = t
    · subst same
      rw [self]
      exact (exec runs).2
    · rw [other same]
      exact reach v runs
  · exact fun n w place => .inl place

lemma wake_eq (t time : Nat) : sys.wake t time = sys.updateThread t fun th =>
    { th with time := time, waiting := false, pausedOn := none, wakeUpTime := some time } := by
  simp [wake, schedule, updateThread]

lemma wake_effects (reach : ∀ u, sys.currentRunnable = some u → (sys.threads u).time ≤ due) {t : Nat}
    (safe : sys.currentRunnable ≠ some t → (sys.threads t).time ≤ due ∨ sys.Exposed t) :
    ClockEffects due sys (sys.wake t due) := by
  rw [wake_eq]
  apply updateThread_effects reach
  · intro rests
    constructor
    · intro w place
      obtain rfl : due = w := by simpa [updateThread] using place
      exact .inl ⟨rfl, by simp [updateThread]⟩
    · simp [updateThread]
    · simp [updateThread]
    · simp [updateThread]
    · simpa [updateThread] using safe rests
    · intro seen
      exact seen.mono (by simp [updateThread]) (by simp [updateThread]) fun _ => id
  · intro exec
    refine ⟨⟨reach t exec, fun w place => ?_, fun _ _ => le_rfl⟩, le_rfl⟩
    obtain rfl : due = w := by simpa using place
    exact .inl ⟨rfl, le_rfl⟩

lemma ClockEffects.same (eff : ClockEffects due pre sys) (same : SameClocks due sys post) :
    ClockEffects due pre post :=
  eff.trans (same.effects eff.reached)

lemma ClockEffects.wake (eff : ClockEffects due pre sys) {t : Nat} (seen : sys.Exposed t) :
    ClockEffects due pre (sys.wake t due) :=
  eff.trans (wake_effects eff.reached fun _ => .inr seen)

section

lemma SameClocks.of_threads (ts : post.threads = sys.threads)
    (currentRunnable : post.currentRunnable = sys.currentRunnable)
    (noted : ∀ u slot, sys.currentRunnable ≠ some u → u ∈ post.table.recorded slot → u ∈ sys.table.recorded slot)
    (timer : ∀ n w, (post.timers n).wakeUpTime = some w → (sys.timers n).wakeUpTime = some w ∨ due ≤ w) :
    SameClocks due sys post := by
  refine ⟨fun u => by rw [ts], fun u rests seen => ?_, currentRunnable, timer⟩
  exact seen.mono (ts ▸ id) (ts ▸ id) fun slot => noted u slot rests

lemma SameClocks.updateThread (sys : System) {t : Nat} {upd : Thread → Thread}
    (clock : ((upd (sys.threads t)).time, (upd (sys.threads t)).waiting, (upd (sys.threads t)).wakeUpTime) =
      ((sys.threads t).time, (sys.threads t).waiting, (sys.threads t).wakeUpTime))
    (flags : sys.currentRunnable ≠ some t → ((upd (sys.threads t)).eeble = true → (sys.threads t).eeble = true) ∧
        ((upd (sys.threads t)).ieble = true → (sys.threads t).ieble = true)) :
    SameClocks due sys (sys.updateThread t upd) := by
  refine ⟨fun u => ?_, fun u rests seen => ?_, rfl, fun _ _ => .inl⟩
  · by_cases same : u = t
    · simpa [System.updateThread, same] using clock
    · simp [System.updateThread, same]
  · by_cases same : u = t
    · subst same
      obtain ⟨eeble, ieble⟩ := flags rests
      exact seen.mono (by simpa [System.updateThread] using eeble) (by simpa [System.updateThread] using ieble)
        fun _ => id
    · exact seen.mono (by simp [System.updateThread, same]) (by simp [System.updateThread, same]) fun _ => id

lemma SameClocks.trans (fst : SameClocks due pre sys) (snd : SameClocks due sys post) :
    SameClocks due pre post := by
  have same := fst.currentRunnable
  refine ⟨fun u => (snd.clock u).trans (fst.clock u), fun u rests seen => ?_,
    snd.currentRunnable.trans same, fun n w place => ?_⟩
  · exact fst.exposed u rests (snd.exposed u (same ▸ rests) seen)
  · exact (snd.timer n w place).elim (fst.timer n w) .inr

lemma SameClocks.cancel (res : ResourceRef) : SameClocks due sys (sys.cancel res) := by
  cases res <;> exact .of_threads rfl rfl (fun _ _ _ => id) fun _ _ => .inl

lemma SameClocks.setPendingEvent (res : ResourceRef) (time : Nat) (intr : Bool) :
    SameClocks due sys (sys.setPendingEvent res time intr) := by
  unfold System.setPendingEvent
  split
  · split <;> exact .of_threads rfl rfl (fun _ _ _ => id) fun _ _ => .inl
  · exact .of_threads rfl rfl (fun _ _ _ => id) fun _ _ => .inl

lemma SameClocks.completeEvent (t : Nat) (res : ResourceRef) (intr : Bool) :
    SameClocks due sys (sys.completeEvent t res intr) := by
  have clr : SameClocks due sys (sys.updateThread t fun th =>
      { th with eeble := false, ieble := !intr && th.ieble }) :=
    .updateThread sys rfl fun _ => ⟨by simp, by simp⟩
  unfold System.completeEvent
  dsimp only
  split
  · exact clr
  · exact clr.trans (.updateThread _ rfl fun _ => ⟨id, id⟩)

end

section

/-- The thread that takes an event of the resource stands in the queue for no later time. -/
def NoneAhead (sys : System) (res : ResourceRef) (due : Nat) : Prop :=
  ∀ u, sys.permits res = some u → sys.currentRunnable ≠ some u →
    ∀ w, (sys.threads u).wakeUpTime = some w → w ≤ due

variable {res : ResourceRef}

lemma NoneAhead.effects (ahead : pre.NoneAhead res due) (eff : ClockEffects due pre sys)
    (permits : sys.permits res = pre.permits res) : sys.NoneAhead res due := by
  intro u legal rests w place
  rw [eff.currentRunnable] at rests
  obtain ⟨rfl, -⟩ | ⟨place, -⟩ := (eff.thread u rests).place w place
  · exact le_rfl
  · exact ahead u (permits ▸ legal) rests w place

lemma permits_exposed {owner : Nat} (legal : sys.eventsPermitted (sys.eventable res) = true)
    (owned : (sys.eventable res).owner = some owner) : sys.Exposed owner := by
  unfold eventsPermitted at legal
  rw [owned] at legal
  simp only [Bool.and_eq_true] at legal
  obtain ⟨-, may⟩ := legal
  split at may
  · exact .inr (.inl may)
  · exact .inl may

/-- An event moves its thread to the time of the event, in the queue only if it was waiting. -/
lemma ClockEffects.raiseEvent (eff : ClockEffects due pre sys)
    (ahead : sys.NoneAhead res due) : ClockEffects due pre (sys.raiseEvent res due) := by
  unfold System.raiseEvent
  split
  · rename_i legal
    unfold System.event
    dsimp only
    split
    · exact eff
    · rename_i owner owned
      have seen := permits_exposed legal owned
      split
      · exact eff.same (.setPendingEvent _ _ _)
      · rename_i rests
        unfold System.takeEvent
        dsimp only
        refine ClockEffects.same ?_ (.completeEvent _ _ _)
        have flag : ((sys.updateThread owner fun th => { th with time := due }).threads owner).waiting =
            (sys.threads owner).waiting := by simp [System.updateThread]
        rw [flag]
        split
        · -- the thread was waiting: whatever it waited for is cancelled, and it is woken
          have woken (sys : System) : (sys.updateThread owner fun th =>
              { th with time := due }).schedule owner = sys.wake owner due := rfl
          split
          · rename_i held _
            have commuted : ((sys.updateThread owner fun th => { th with time := due }).cancel
                held).schedule owner = (sys.cancel held).wake owner due := by
              cases held <;> rfl
            rw [commuted]
            have cancelled := eff.same (SameClocks.cancel held)
            exact cancelled.wake (seen.mono (by cases held <;> exact id) (by cases held <;> exact id)
              (by cases held <;> exact fun _ => id))
          · rw [woken]
            exact eff.wake seen
        · rename_i awake
          refine eff.trans (updateThread_effects eff.reached (fun _ => ?_) fun runs => ?_)
          · have put := ahead owner (by simp [permits, legal, owned]) rests
            constructor
            · intro w place
              have place : (sys.threads owner).wakeUpTime = some w := by simpa [System.updateThread] using place
              exact .inr ⟨place, .inr (by simpa [System.updateThread] using put w place)⟩
            · intro wait
              simp [System.updateThread, awake] at wait
            · intro wait
              simp [awake] at wait
            · simp [System.updateThread]
            · exact .inr seen
            · exact fun _ => seen
          · exact absurd runs rests
  · exact eff

end

end System

end Axe
