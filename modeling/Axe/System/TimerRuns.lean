import Axe.System.Timers

/-! A timer under the instructions of any threads. Its wake-up is computed when a thread pauses on
it or events are let in, from the data and the condition it has then. -/

namespace Axe

open Function

/-- What a thread does to the timer, or to the bits of its status register that let events in. -/
inductive TimerOp where
  | setData (data : BitVec 32)
  | setCondition (c : Condition)
  | getData
  | setVector (vector : Nat)
  /-- The environment vector, which nothing here reads. -/
  | setEV
  | input (cost : Nat)
  | eventEnable
  | eventDisable
  | setInterruptMode (mode : Bool)
  /-- The resources that have an event and come before and after the timer in the lists that the thread looks at. -/
  | setSR (eeble ieble : Bool) (ahead behind : Option (ResourceRef × Bool))
  /-- An exception. -/
  | trap
  deriving DecidableEq, Repr

inductive TimerStep where
  | thread (t time : Nat) (op : TimerOp)
  /-- The loop takes the timer from the queue. -/
  | run
  /-- Another resource sends an event to a thread that is not executing. -/
  | takeEvent (t : Nat) (res : ResourceRef) (intr : Bool)
  deriving DecidableEq, Repr

structure TimerRun where
  sys : System
  now : Nat

namespace System

variable (n : Nat)

def executeAt (sys : System) (t time : Nat) : System :=
  { sys.updateThread t fun thread => { thread with time := time } with currentRunnable := some t }

/-- `setSR` with the resources it looks at; it stops at the first that has an event. -/
def setTimerSR (sys : System) (t time : Nat) (eeble ieble : Bool) (ahead behind : Option (ResourceRef × Bool)) :
    System :=
  let newEvents := eeble && !(sys.threads t).eeble
  let newInterrupts := ieble && !(sys.threads t).ieble
  let evs := (sys.timers n).events
  let sys := sys.updateThread t fun thread => { thread with eeble := eeble, ieble := ieble }
  if newEvents || newInterrupts then
    match ahead with
    | some (res, intr) => sys.setPendingEvent res time intr
    | none =>
      let sys :=
        if evs.owner = some t ∧ evs.eventsEnabled = true ∧
            (if evs.interruptMode then newInterrupts else newEvents) = true then
          sys.checkEvent (.timer n) false time
        else sys
      match sys.pendingEvent, behind with
      | none, some (res, intr) => sys.setPendingEvent res time intr
      | _, _ => sys
  else sys

def timerOp (sys : System) (t time : Nat) : TimerOp → System
  | .setData data => (sys.setTimerOwner t n).updateTimer n fun timer => { timer with data := data }
  | .setCondition c =>
    match c with
    | .full => (sys.setTimerOwner t n).updateTimer n fun timer => { timer with after := false }
    | .after => (sys.setTimerOwner t n).updateTimer n fun timer => { timer with after := true }
    | .eq | .neq => sys.setTimerOwner t n
  | .getData => sys.setTimerOwner t n
  | .setVector vector => sys.configure { (sys.timers n).events with owner := some t, vector := vector } (.timer n)
  | .setEV => sys.setTimerOwner t n
  | .input cost =>
    match sys.timerIn t n time with
    | (sys, .deschedule res) => sys.pauseThread t cost res
    | (sys, _) => sys
  | .eventEnable =>
    (sys.configure { (sys.timers n).events with owner := some t, eventsEnabled := true } (.timer n)).checkEvent
      (.timer n) false time
  | .eventDisable => sys.configure { (sys.timers n).events with owner := some t, eventsEnabled := false } (.timer n)
  | .setInterruptMode mode =>
    let evs := { (sys.timers n).events with owner := some t }
    if mode = evs.interruptMode then sys.configure evs (.timer n)
    else (sys.configure { evs with interruptMode := mode } (.timer n)).checkEvent (.timer n) false time
  | .setSR eeble ieble ahead behind => sys.setTimerSR n t time eeble ieble ahead behind
  | .trap => sys.raise t

def endInstruction (sys : System) (t : Nat) : System :=
  if sys.pendingEvent.isSome then (sys.takePendingEvent t).schedule t else sys

def timerWake (sys : System) (time : Nat) : System :=
  ({ sys.updateTimer n fun timer => { timer with wakeUpTime := none } with currentRunnable := none }).timerRun n time

end System

namespace TimerRun

variable (n : Nat)

def step (run : TimerRun) : TimerStep → TimerRun
  | .thread t time op => ⟨(((run.sys.executeAt t time).timerOp n t time op)).endInstruction t, time⟩
  | .run =>
    match (run.sys.timers n).wakeUpTime with
    | none => run
    | some time => ⟨run.sys.timerWake n time, time⟩
  | .takeEvent t res intr => ⟨run.sys.takeEvent t res intr, run.now⟩

end TimerRun

namespace System

variable (n : Nat) (sys : System)

def Awaited : Prop :=
  (∃ t, (sys.threads t).waitsFor = some (.timer n)) ∨ sys.eventsPermitted (sys.timers n).events = true

/-- The thread that the timer records is paused on it, or events are permitted. -/
def Held : Prop :=
  (∃ t ∈ (sys.timers n).pausedIn, (sys.threads t).waitsFor = some (.timer n)) ∨
    sys.eventsPermitted (sys.timers n).events = true

/-- Events that become permitted because the thread becomes the owner were permitted already. -/
def OwnerKept (t : Nat) : Prop :=
  sys.eventsPermitted { (sys.timers n).events with owner := some t } = true →
    sys.eventsPermitted (sys.timers n).events = true

/-- A condition that is not met is fewer than 2^29 ticks away, and time does not end before. -/
def Near (time : Nat) : Prop :=
  (sys.timers n).conditionMet time = false →
    (sys.timers n).ticksToGo time < 2 ^ 29 ∧ time + (sys.timers n).ticksToGo time * cyclesPerTick < 2 ^ 64

def CarefulOp (t time : Nat) : TimerOp → Prop
  | .setData data => sys.OwnerKept n t ∧ (sys.Held n → data = (sys.timers n).data)
  | .setCondition c => sys.OwnerKept n t ∧ (sys.Held n → c ≠ .full)
  | .getData | .setVector _ | .setEV => sys.OwnerKept n t
  | .input _ =>
    sys.Near n time ∧
      if (sys.timers n).conditionMet time then sys.OwnerKept n t
      else ∀ u ∈ (sys.timers n).pausedIn, u ≠ t → (sys.threads u).waitsFor ≠ some (.timer n)
  | .eventEnable => sys.Near n time
  | .eventDisable | .trap => True
  | .setInterruptMode mode => if mode = (sys.timers n).events.interruptMode then sys.OwnerKept n t else sys.Near n time
  | .setSR _ ieble ahead _ =>
    sys.Near n time ∧ ∀ res, ahead = some (res, false) → ieble = true → (sys.timers n).events.owner = some t →
      (sys.timers n).events.eventsEnabled = true → (sys.timers n).events.interruptMode = true →
        (sys.threads t).ieble = true

end System

namespace TimerRun

variable (n : Nat) (run : TimerRun)

/-- If the timer is awaited it has a wake-up scheduled no later than in the first tick from now on in which its
present condition is met. -/
def WakesInTime : Prop :=
  run.sys.Awaited n → ∀ time, run.now ≤ time → (run.sys.timers n).conditionMet time = true →
    ∃ w, (run.sys.timers n).wakeUpTime = some w ∧ w / cyclesPerTick ≤ time / cyclesPerTick

def Careful : TimerStep → Prop
  | .thread t time op => run.now ≤ time ∧ (run.sys.executeAt t time).CarefulOp n t time op
  | .run | .takeEvent _ _ _ => True

end TimerRun

/-! ### What events do to threads -/

namespace System

variable {n : Nat}

lemma eventsPermitted_iff (sys : System) (evs : Eventable) : sys.eventsPermitted evs = true ↔
    ∃ owner, evs.owner = some owner ∧ evs.eventsEnabled = true ∧
      (if evs.interruptMode then (sys.threads owner).ieble else (sys.threads owner).eeble) = true := by
  unfold eventsPermitted
  cases evs.owner with
  | none => simp
  | some owner => simp

structure Calmer (n : Nat) (pre after : System) : Prop where
  timer : after.timers n = pre.timers n
  waits : ∀ u, (after.threads u).waitsFor = some (.timer n) → (pre.threads u).waitsFor = some (.timer n)
  eeble : ∀ u, (after.threads u).eeble = true → (pre.threads u).eeble = true
  ieble : ∀ u, (after.threads u).ieble = true → (pre.threads u).ieble = true

namespace Calmer

variable {pre mid after : System}

lemma refl (sys : System) : Calmer n sys sys := ⟨rfl, fun _ => id, fun _ => id, fun _ => id⟩

lemma trans (first : Calmer n pre mid) (snd : Calmer n mid after) : Calmer n pre after :=
  ⟨snd.timer.trans first.timer, fun u waits => first.waits u (snd.waits u waits),
    fun u set => first.eeble u (snd.eeble u set), fun u set => first.ieble u (snd.ieble u set)⟩

lemma permitted (calmer : Calmer n pre after) {evs : Eventable}
    (permitted : after.eventsPermitted evs = true) : pre.eventsPermitted evs = true := by
  rw [eventsPermitted_iff] at permitted ⊢
  obtain ⟨owner, owned, enabled, set⟩ := permitted
  refine ⟨owner, owned, enabled, ?_⟩
  cases mode : evs.interruptMode with
  | false =>
    rw [mode] at set
    exact calmer.eeble owner set
  | true =>
    rw [mode] at set
    exact calmer.ieble owner set

section

variable (sys : System)

lemma updateThread (t : Nat) {upd : Thread → Thread}
    (waits : (upd (sys.threads t)).waitsFor = some (.timer n) → (sys.threads t).waitsFor = some (.timer n))
    (eeble : (upd (sys.threads t)).eeble = true → (sys.threads t).eeble = true)
    (ieble : (upd (sys.threads t)).ieble = true → (sys.threads t).ieble = true) :
    Calmer n sys (sys.updateThread t upd) := by
  refine ⟨rfl, fun u => ?_, fun u => ?_, fun u => ?_⟩ <;>
  · by_cases here : u = t
    · subst here
      simpa [System.updateThread] using by assumption
    · simp [System.updateThread, here]

lemma schedule (t : Nat) : Calmer n sys (sys.schedule t) :=
  updateThread sys t (fun waits => by simp [Thread.waitsFor] at waits) id id

lemma wake (t time : Nat) : Calmer n sys (sys.wake t time) :=
  (updateThread sys t id id id).trans (schedule _ t)

lemma cancel (res : ResourceRef) : Calmer n sys (sys.cancel res) := by
  cases res with
  | sync s => exact ⟨rfl, fun _ => id, fun _ => id, fun _ => id⟩
  | _ => exact refl sys

lemma completeEvent (t : Nat) (res : ResourceRef) (intr : Bool) :
    Calmer n sys (sys.completeEvent t res intr) := by
  have clr : Calmer n sys (sys.updateThread t fun th =>
      { th with eeble := false, ieble := !intr && th.ieble }) := by
    refine updateThread sys t id (fun set => ?_) fun set => ?_
    · cases set
    · exact (Bool.and_eq_true_iff.mp set).2
  unfold System.completeEvent
  dsimp only
  split
  · exact clr
  · exact clr.trans (updateThread _ _ id id id)

lemma takeEvent (t : Nat) (res : ResourceRef) (intr : Bool) : Calmer n sys (sys.takeEvent t res intr) := by
  unfold System.takeEvent
  dsimp only
  split
  · split
    · exact ((cancel sys _).trans (schedule _ t)).trans (completeEvent _ t res intr)
    · exact (schedule sys t).trans (completeEvent _ t res intr)
  · exact completeEvent sys t res intr

lemma raise (t : Nat) : Calmer n sys (sys.raise t) :=
  updateThread sys t id (fun set => by cases set) fun set => by cases set

lemma executeAt (t time : Nat) : Calmer n sys (sys.executeAt t time) := by
  have moved : Calmer n sys (sys.updateThread t fun th => { th with time := time }) :=
    updateThread sys t id id id
  exact moved.trans ⟨rfl, fun _ => id, fun _ => id, fun _ => id⟩

end

end Calmer

lemma completeEvent_bits (sys : System) (t : Nat) (res : ResourceRef) (intr : Bool) :
    ((sys.completeEvent t res intr).threads t).eeble = false ∧
      ((sys.completeEvent t res intr).threads t).ieble = (!intr && (sys.threads t).ieble) := by
  unfold completeEvent
  dsimp only
  split
  · simp [updateThread]
  · rename_i owner _
    by_cases here : t = owner
    · subst here
      simp [updateThread]
    · simp [updateThread, here]

lemma endInstruction_pending {sys : System} {t : Nat} {event : PendingEvent}
    (pend : sys.pendingEvent = some event) :
    Calmer n sys (sys.endInstruction t) ∧ (sys.endInstruction t).pendingEvent = none ∧
      ((sys.endInstruction t).threads t).eeble = false ∧
      ((sys.endInstruction t).threads t).ieble = (!event.interrupt && (sys.threads t).ieble) := by
  let moved := sys.updateThread t fun th => { th with time := max th.time event.time, waiting := false }
  have taken : sys.endInstruction t =
      ({ moved.completeEvent t event.res event.interrupt with pendingEvent := none } : System).schedule t := by
    simp [endInstruction, takePendingEvent, pend, moved]
  have bits := completeEvent_bits moved t event.res event.interrupt
  have pre : (moved.threads t).ieble = (sys.threads t).ieble := by simp [moved, updateThread]
  rw [taken]
  refine ⟨?_, rfl, ?_, ?_⟩
  · have first : Calmer n sys moved := by
      refine Calmer.updateThread sys t (fun waits => ?_) id id
      simp [Thread.waitsFor] at waits
    have snd : Calmer n sys ({ moved.completeEvent t event.res event.interrupt with pendingEvent := none } : System) :=
      (first.trans (Calmer.completeEvent moved t event.res event.interrupt)).trans
        ⟨rfl, fun _ => id, fun _ => id, fun _ => id⟩
    exact snd.trans (Calmer.schedule _ t)
  · simpa [schedule, updateThread] using bits.1
  · simpa [schedule, updateThread, pre] using bits.2

lemma endInstruction_quiet {sys : System} (quiet : sys.pendingEvent = none)
    (t : Nat) : sys.endInstruction t = sys := by
  simp [endInstruction, quiet]

end System

/-! ### The wake-up -/

namespace Timer

variable {timer : Timer} {now time : Nat}

/-- The timer waits for the tick after its data and is woken then, which is not as far away as half a round of the
clock. -/
def Due (timer : Timer) (now : Nat) : Prop :=
  timer.after = true ∧ ∃ w, timer.wakeUpTime = some w ∧ ticks w = timer.data + 1 ∧
    w / cyclesPerTick < now / cyclesPerTick + 2 ^ 31

lemma Due.mono (due : timer.Due now) (later : now ≤ time) : timer.Due time := by
  obtain ⟨after, w, scheduled, tick, near⟩ := due
  have passed : now / cyclesPerTick ≤ time / cyclesPerTick := Nat.div_le_div_right later
  exact ⟨after, w, scheduled, tick, by omega⟩

lemma Due.inTime (due : timer.Due now) (later : now ≤ time) (met : timer.conditionMet time = true) :
    ∃ w, timer.wakeUpTime = some w ∧ w / cyclesPerTick ≤ time / cyclesPerTick := by
  obtain ⟨after, w, scheduled, tick, near⟩ := due
  refine ⟨w, scheduled, ?_⟩
  have passed : now / cyclesPerTick ≤ time / cyclesPerTick := Nat.div_le_div_right later
  rw [conditionMet_iff after, ticksToGo, ← tick, BitVec.toNat_sub, ticks_toNat, ticks_toNat] at met
  by_contra early
  omega

lemma Due.met (due : timer.Due now) {w : Nat} (scheduled : timer.wakeUpTime = some w) :
    timer.conditionMet w = true := by
  obtain ⟨after, v, same, tick, -⟩ := due
  obtain rfl : v = w := Option.some.inj (same.symm.trans scheduled)
  rw [conditionMet_iff after, ticksToGo, ← tick]
  exact .inl (by rw [BitVec.sub_self]; rfl)

lemma due_of_scheduled (pend : timer.conditionMet time = false) (few : timer.ticksToGo time < 2 ^ 29)
    (room : time + timer.ticksToGo time * cyclesPerTick < 2 ^ 64)
    (due : timer.wakeUpTime = some (timer.getEarliestReadyTime time)) : timer.Due time := by
  refine ⟨after_of_not_met pend, _, due, ?_, ?_⟩
  · rw [getEarliestReadyTime_of_few pend few room]
    apply BitVec.eq_of_toNat_eq
    have go := timer.ticksToGo_eq time
    have one : (1 : BitVec 32).toNat = 1 := rfl
    rw [ticks_toNat, BitVec.toNat_add, one, Nat.add_mul_div_right _ _ (by decide)]
    omega
  · rw [getEarliestReadyTime_of_few pend few room, Nat.add_mul_div_right _ _ (by decide)]
    omega

end Timer

namespace System

variable {n : Nat} {sys : System} {now t time : Nat}

/-- The invariant: no event is left pending, the thread that is paused on the timer is the one it records, and an
awaited timer is woken in time. -/
structure Punctual (n : Nat) (sys : System) (now : Nat) : Prop where
  quiet : sys.pendingEvent = none
  recorded : ∀ t, (sys.threads t).waitsFor = some (.timer n) → (sys.timers n).pausedIn = some t
  due : sys.Awaited n → (sys.timers n).Due now

namespace Punctual

section

variable (timely : sys.Punctual n now)
include timely

lemma held (awaited : sys.Awaited n) : sys.Held n := by
  rcases awaited with ⟨t, waits⟩ | permitted
  · exact .inl ⟨t, timely.recorded t waits, waits⟩
  · exact .inr permitted

lemma resume {after : System} (quiet : after.pendingEvent = none) (timer : after.timers n = sys.timers n)
    (waits : ∀ u, (after.threads u).waitsFor = some (.timer n) → (sys.threads u).waitsFor = some (.timer n))
    (permitted : after.eventsPermitted (sys.timers n).events = true → sys.eventsPermitted (sys.timers n).events = true)
    (later : now ≤ time) : after.Punctual n time := by
  refine ⟨quiet, fun u held => ?_, fun awaited => ?_⟩
  · rw [timer]
    exact timely.recorded u (waits u held)
  · rw [timer]
    refine (timely.due ?_).mono later
    rcases awaited with ⟨u, held⟩ | may
    · exact .inl ⟨u, waits u held⟩
    · rw [timer] at may
      exact .inr (permitted may)

lemma calmer {after : System} (calmer : Calmer n sys after) (quiet : after.pendingEvent = none)
    (later : now ≤ time) : after.Punctual n time :=
  timely.resume quiet calmer.timer calmer.waits calmer.permitted later

lemma updateTimer (upd : Timer → Timer) (pausedIn : (upd (sys.timers n)).pausedIn = (sys.timers n).pausedIn)
    (time : (upd (sys.timers n)).wakeUpTime = (sys.timers n).wakeUpTime)
    (permitted : sys.eventsPermitted (upd (sys.timers n)).events = true →
      sys.eventsPermitted (sys.timers n).events = true)
    (kept : sys.Held n → (upd (sys.timers n)).after = (sys.timers n).after ∧
      (upd (sys.timers n)).data = (sys.timers n).data) : (sys.updateTimer n upd).Punctual n now := by
  have timer : (sys.updateTimer n upd).timers n = upd (sys.timers n) := update_self _ _ _
  refine ⟨timely.quiet, fun u waits => ?_, fun awaited => ?_⟩
  · rw [timer, pausedIn]
    exact timely.recorded u waits
  · have pre : sys.Awaited n := by
      rcases awaited with waits | may
      · exact .inl waits
      · rw [timer] at may
        exact .inr (permitted may)
    obtain ⟨after, data⟩ := kept (timely.held pre)
    obtain ⟨isAfter, w, due, tick, near⟩ := timely.due pre
    rw [timer]
    exact ⟨after.trans isAfter, w, time.trans due, by rw [data, tick], near⟩

lemma setTimerOwner (kept : sys.OwnerKept n t) : (sys.setTimerOwner t n).Punctual n now :=
  timely.updateTimer _ rfl rfl kept fun _ => ⟨rfl, rfl⟩

lemma configure (evs : Eventable)
    (kept : sys.eventsPermitted evs = true → sys.eventsPermitted (sys.timers n).events = true) :
    (sys.configure evs (.timer n)).Punctual n now :=
  timely.updateTimer (fun timer => { timer with events := evs }) rfl rfl kept fun _ => ⟨rfl, rfl⟩

lemma ownerUpdate (kept : sys.OwnerKept n t) (upd : Timer → Timer)
    (pausedIn : ∀ timer, (upd timer).pausedIn = timer.pausedIn)
    (time : ∀ timer, (upd timer).wakeUpTime = timer.wakeUpTime)
    (evs : ∀ timer, (upd timer).events = timer.events)
    (same : sys.Held n → ∀ timer, timer.after = (sys.timers n).after → timer.data = (sys.timers n).data →
      (upd timer).after = (sys.timers n).after ∧ (upd timer).data = (sys.timers n).data) :
    ((sys.setTimerOwner t n).updateTimer n upd).Punctual n now := by
  have owned : (sys.setTimerOwner t n).timers n =
      { sys.timers n with events := { (sys.timers n).events with owner := some t } } := update_self _ _ _
  refine (timely.setTimerOwner kept).updateTimer upd (pausedIn _) (time _) (fun permitted => ?_)
    fun held => ?_
  · rw [← evs]
    exact permitted
  · rw [owned]
    apply same
    · rcases held with ⟨u, noted, waits⟩ | permitted
      · rw [owned] at noted
        exact .inl ⟨u, noted, waits⟩
      · rw [owned] at permitted
        exact .inr (kept permitted)
    · rfl
    · rfl

end

end Punctual

lemma checkEvent_punctual (quiet : sys.pendingEvent = none) (cur : sys.currentRunnable = some t)
    (owned : (sys.timers n).events.owner = some t)
    (noted : ∀ u, (sys.threads u).waitsFor = some (.timer n) → (sys.timers n).pausedIn = some u)
    (held : (∃ u, (sys.threads u).waitsFor = some (.timer n)) → (sys.timers n).Due time) (near : sys.Near n time) :
    ((sys.checkEvent (.timer n) false time).endInstruction t).Punctual n time := by
  cases permitted : sys.eventsPermitted (sys.timers n).events with
  | false =>
    have nil : sys.checkEvent (.timer n) false time = sys := by
      simp only [checkEvent, eventable, permitted, Bool.false_eq_true, if_false]
    rw [nil, endInstruction_quiet quiet]
    refine ⟨quiet, noted, ?_⟩
    rintro (waits | may)
    · exact held waits
    · rw [permitted] at may
      cases may
  | true =>
    cases met : (sys.timers n).conditionMet time with
    | true =>
      -- The event is pending until the end of the instruction and is taken then.
      let trap : System := { sys with pendingEvent := some ⟨.timer n, (sys.timers n).events.interruptMode, time⟩ }
      have raises : sys.checkEvent (.timer n) false time = trap := by
        simp only [checkEvent, eventable, permitted, if_true, met, event, owned, cur, setPendingEvent, quiet, trap]
      have pend : trap.pendingEvent = some ⟨.timer n, (sys.timers n).events.interruptMode, time⟩ := rfl
      obtain ⟨calmer, taken, eeble, ieble⟩ := endInstruction_pending (n := n) (t := t) pend
      rw [raises]
      refine ⟨taken, fun u waits => ?_, ?_⟩
      · rw [calmer.timer]
        exact noted u (calmer.waits u waits)
      · rintro (⟨u, waits⟩ | may)
        · rw [calmer.timer]
          exact held ⟨u, calmer.waits u waits⟩
        · rw [calmer.timer, eventsPermitted_iff] at may
          obtain ⟨owner, same, -, set⟩ := may
          obtain rfl : owner = t := Option.some.inj (same.symm.trans owned)
          rw [eeble, ieble] at set
          cases mode : (sys.timers n).events.interruptMode <;> simp [trap, mode] at set
    | false =>
      have due : sys.checkEvent (.timer n) false time = sys.scheduleTimer n time := by
        simp only [checkEvent, eventable, permitted, if_true, met, Bool.false_eq_true, if_false]
      have timer : (sys.scheduleTimer n time).timers n =
          { sys.timers n with wakeUpTime := some ((sys.timers n).getEarliestReadyTime time) } :=
        update_self _ _ _
      have still : (sys.scheduleTimer n time).pendingEvent = none := quiet
      rw [due, endInstruction_quiet still]
      obtain ⟨few, room⟩ := near met
      refine ⟨quiet, fun u waits => ?_, fun _ => ?_⟩
      · rw [timer]
        exact noted u waits
      · rw [timer]
        exact Timer.due_of_scheduled met few room rfl

lemma configure_punctual (timely : sys.Punctual n now) (later : now ≤ time) (cur : sys.currentRunnable = some t)
    {evs : Eventable} (owned : evs.owner = some t) (near : sys.Near n time) :
    (((sys.configure evs (.timer n)).checkEvent (.timer n) false time).endInstruction t).Punctual n time := by
  have timer : (sys.configure evs (.timer n)).timers n = { sys.timers n with events := evs } :=
    update_self _ _ _
  refine checkEvent_punctual timely.quiet cur ?_ ?_ ?_ ?_
  · rw [timer]
    exact owned
  · intro u waits
    rw [timer]
    exact timely.recorded u waits
  · intro waits
    rw [timer]
    exact (timely.due (.inl waits)).mono later
  · unfold Near
    rw [timer]
    exact near

lemma input_punctual (timely : sys.Punctual n now) (later : now ≤ time) {cost : Nat}
    (safe : sys.CarefulOp n t time (.input cost)) :
    ((sys.timerOp n t time (.input cost)).endInstruction t).Punctual n time := by
  obtain ⟨near, rest⟩ := safe
  have owned : (sys.setTimerOwner t n).timers n =
      { sys.timers n with events := { (sys.timers n).events with owner := some t } } := update_self _ _ _
  cases met : (sys.timers n).conditionMet time with
  | true =>
    have done : sys.timerOp n t time (.input cost) = sys.setTimerOwner t n := by
      have still : ((sys.setTimerOwner t n).timers n).conditionMet time = true := by rw [owned]; exact met
      simp only [timerOp, timerIn, still, if_true]
    rw [met, if_pos rfl] at rest
    have kept := timely.setTimerOwner rest
    rw [done, endInstruction_quiet kept.quiet]
    exact kept.calmer (.refl _) kept.quiet later
  | false =>
    let recording := (sys.setTimerOwner t n).updateTimer n fun timer => { timer with pausedIn := some t }
    have done : sys.timerOp n t time (.input cost) =
        (recording.scheduleTimer n time).pauseThread t cost (some (.timer n)) := by
      have still : ((sys.setTimerOwner t n).timers n).conditionMet time = false := by rw [owned]; exact met
      simp only [timerOp, timerIn, still, Bool.false_eq_true, if_false, recording]
    have timer : ((recording.scheduleTimer n time).pauseThread t cost (some (.timer n))).timers n =
        { sys.timers n with
          events := { (sys.timers n).events with owner := some t }
          pausedIn := some t
          wakeUpTime := some ((sys.timers n).getEarliestReadyTime time) } := by
      simp [recording, scheduleTimer, pauseThread, updateThread, updateTimer, setTimerOwner,
        Timer.getEarliestReadyTime, Timer.conditionMet]
    have still : ((recording.scheduleTimer n time).pauseThread t cost (some (.timer n))).pendingEvent = none :=
      timely.quiet
    rw [met, if_neg Bool.false_ne_true] at rest
    rw [done, endInstruction_quiet still]
    obtain ⟨few, room⟩ := near met
    refine ⟨still, fun u waits => ?_, fun _ => ?_⟩
    · rw [timer]
      by_cases here : u = t
      · rw [here]
      · -- Any other thread would be the one that was recorded before.
        have pre : (sys.threads u).waitsFor = some (.timer n) := by
          simpa [recording, scheduleTimer, pauseThread, updateThread, updateTimer, setTimerOwner, here] using waits
        exact absurd pre (rest u (timely.recorded u pre) here)
    · rw [timer]
      apply Timer.due_of_scheduled
      · exact met
      · exact few
      · exact room
      · rfl

lemma permitted_of_other {after : System} (others : ∀ u, u ≠ t → after.threads u = sys.threads u) {evs : Eventable}
    (other : evs.owner ≠ some t) (permitted : after.eventsPermitted evs = true) :
    sys.eventsPermitted evs = true := by
  rw [eventsPermitted_iff] at permitted ⊢
  obtain ⟨owner, owned, enabled, set⟩ := permitted
  have away : owner ≠ t := fun here => other (here ▸ owned)
  rw [others owner away] at set
  exact ⟨owner, owned, enabled, set⟩

section

variable {eeble ieble : Bool}

def setBits (sys : System) (t : Nat) (eeble ieble : Bool) : System :=
  sys.updateThread t fun thread => { thread with eeble := eeble, ieble := ieble }

lemma setSR_threads (sys : System) (t : Nat) (eeble ieble : Bool) (u : Nat) :
    ((sys.setBits t eeble ieble).threads u) =
      if u = t then { sys.threads t with eeble := eeble, ieble := ieble } else sys.threads u := by
  by_cases here : u = t
  · subst here
    simp [setBits, updateThread]
  · simp [setBits, updateThread, here]

lemma setSR_waitsFor (sys : System) (t : Nat) (eeble ieble : Bool) (u : Nat) :
    ((sys.setBits t eeble ieble).threads u).waitsFor = (sys.threads u).waitsFor := by
  rw [setSR_threads]
  split
  · rename_i here
    subst here
    rfl
  · rfl

lemma setSR_kept {evs : Eventable} (old : evs.owner = some t →
      (if evs.interruptMode then ieble && !(sys.threads t).ieble else eeble && !(sys.threads t).eeble) = false)
    (permitted : (sys.setBits t eeble ieble).eventsPermitted evs = true) : sys.eventsPermitted evs = true := by
  by_cases own : evs.owner = some t
  · have unchanged := old own
    rw [eventsPermitted_iff] at permitted ⊢
    obtain ⟨owner, same, enabled, set⟩ := permitted
    obtain rfl : owner = t := Option.some.inj (same.symm.trans own)
    rw [setSR_threads, if_pos rfl] at set
    refine ⟨owner, own, enabled, ?_⟩
    cases mode : evs.interruptMode <;> simp_all
  · refine permitted_of_other (fun u other => ?_) own permitted
    rw [setSR_threads, if_neg other]

lemma setSR_punctual (timely : sys.Punctual n now) (later : now ≤ time) {after : System}
    (calmer : Calmer n (sys.setBits t eeble ieble) after) (quiet : after.pendingEvent = none)
    (kept : after.eventsPermitted (sys.timers n).events = true → sys.eventsPermitted (sys.timers n).events = true) :
    after.Punctual n time := by
  refine timely.resume quiet calmer.timer (fun u held => ?_) kept later
  rw [← setSR_waitsFor sys t eeble ieble u]
  exact calmer.waits u held

/-- An event that is taken at once ends the instruction; the timer's own stay forbidden with the bits it clears. -/
lemma setSR_ahead (timely : sys.Punctual n now) (later : now ≤ time) (res : ResourceRef) {intr : Bool}
    (safe : intr = false → ieble = true → (sys.timers n).events.owner = some t →
      (sys.timers n).events.eventsEnabled = true → (sys.timers n).events.interruptMode = true →
        (sys.threads t).ieble = true) :
    (((sys.setBits t eeble ieble).setPendingEvent res time intr).endInstruction t).Punctual n time := by
  let set := sys.setBits t eeble ieble
  let raised : System := { set with pendingEvent := some ⟨res, intr, time⟩ }
  have quiet : set.pendingEvent = none := timely.quiet
  have raises : set.setPendingEvent res time intr = raised := by simp only [setPendingEvent, quiet, raised]
  have pend : raised.pendingEvent = some ⟨res, intr, time⟩ := rfl
  obtain ⟨calmer, taken, noEvents, interrupts⟩ := endInstruction_pending (n := n) (t := t) pend
  have noted : Calmer n set raised := ⟨rfl, fun _ => id, fun _ => id, fun _ => id⟩
  have calm : Calmer n set (raised.endInstruction t) := noted.trans calmer
  show ((set.setPendingEvent res time intr).endInstruction t).Punctual n time
  rw [raises]
  refine setSR_punctual timely later calm taken fun permitted => ?_
  by_cases own : (sys.timers n).events.owner = some t
  · rw [eventsPermitted_iff] at permitted ⊢
    obtain ⟨owner, same, enabled, bit⟩ := permitted
    obtain rfl : owner = t := Option.some.inj (same.symm.trans own)
    rw [noEvents, interrupts] at bit
    have bits : raised.threads owner = { sys.threads owner with eeble := eeble, ieble := ieble } :=
      update_self _ _ _
    cases mode : (sys.timers n).events.interruptMode with
    | false => simp [mode] at bit
    | true =>
      rw [mode, if_pos rfl, bits, Bool.and_eq_true] at bit
      have event : intr = false := by simpa using bit.1
      exact ⟨owner, own, enabled, by simpa [mode] using safe event bit.2 own enabled mode⟩
  · refine permitted_of_other (fun u other => ?_) own (calm.permitted permitted)
    rw [setSR_threads, if_neg other]

/-- An event of a resource that is looked at after the timer only takes the thread's permission away. -/
lemma behind_punctual {sys : System} (kept : (sys.endInstruction t).Punctual n time)
    (behind : Option (ResourceRef × Bool)) :
    ((match sys.pendingEvent, behind with
      | none, some (res, intr) => sys.setPendingEvent res time intr
      | _, _ => sys).endInstruction t).Punctual n time := by
  split
  · rename_i res intr quiet
    rw [endInstruction_quiet quiet] at kept
    let raised : System := { sys with pendingEvent := some ⟨res, intr, time⟩ }
    have raises : sys.setPendingEvent res time intr = raised := by simp only [setPendingEvent, quiet, raised]
    have pend : raised.pendingEvent = some ⟨res, intr, time⟩ := rfl
    obtain ⟨calmer, taken, -⟩ := endInstruction_pending (n := n) (t := t) pend
    have noted : Calmer n sys raised := ⟨rfl, fun _ => id, fun _ => id, fun _ => id⟩
    rw [raises]
    exact kept.calmer (noted.trans calmer) taken (Nat.le_refl time)
  · exact kept

lemma setTimerSR_punctual (timely : sys.Punctual n now) (later : now ≤ time)
    (cur : sys.currentRunnable = some t) {ahead behind : Option (ResourceRef × Bool)}
    (safe : sys.CarefulOp n t time (.setSR eeble ieble ahead behind)) :
    ((sys.setTimerSR n t time eeble ieble ahead behind).endInstruction t).Punctual n time := by
  let set := sys.setBits t eeble ieble
  have quiet : set.pendingEvent = none := timely.quiet
  have settled (kept : set.eventsPermitted (sys.timers n).events = true →
      sys.eventsPermitted (sys.timers n).events = true) : (set.endInstruction t).Punctual n time := by
    rw [endInstruction_quiet quiet]
    exact setSR_punctual timely later (.refl set) quiet kept
  unfold setTimerSR
  by_cases new : (eeble && !(sys.threads t).eeble || ieble && !(sys.threads t).ieble) = true
  · rw [if_pos new]
    match ahead with
    | some (res, intr) =>
      refine setSR_ahead timely later res fun event => ?_
      subst event
      exact safe.2 res rfl
    | none =>
      by_cases looked : (sys.timers n).events.owner = some t ∧ (sys.timers n).events.eventsEnabled = true ∧
          (if (sys.timers n).events.interruptMode then ieble && !(sys.threads t).ieble
            else eeble && !(sys.threads t).eeble) = true
      · rw [if_pos looked]
        have waits (u : Nat) : (set.threads u).waitsFor = (sys.threads u).waitsFor := setSR_waitsFor sys t eeble ieble u
        apply behind_punctual
        refine checkEvent_punctual quiet cur looked.1 (fun u held => ?_) (fun held => ?_) safe.1
        · exact timely.recorded u (waits u ▸ held)
        · obtain ⟨u, held⟩ := held
          exact (timely.due (.inl ⟨u, waits u ▸ held⟩)).mono later
      · rw [if_neg looked]
        apply behind_punctual
        refine settled fun permitted => ?_
        by_cases enabled : (sys.timers n).events.eventsEnabled = true
        · exact setSR_kept (fun own => Bool.eq_false_iff.mpr fun bit => looked ⟨own, enabled, bit⟩) permitted
        · obtain ⟨owner, -, isEnabled, -⟩ := (eventsPermitted_iff set _).mp permitted
          exact absurd isEnabled enabled
  · rw [if_neg new]
    refine settled (setSR_kept fun _ => ?_)
    simp only [Bool.or_eq_true, not_or, Bool.not_eq_true] at new
    split
    · exact new.2
    · exact new.1

end

lemma timerOp_punctual (timely : sys.Punctual n now) (later : now ≤ time) (cur : sys.currentRunnable = some t)
    {op : TimerOp} (safe : sys.CarefulOp n t time op) :
    ((sys.timerOp n t time op).endInstruction t).Punctual n time := by
  -- Operations that raise no event leave the system as it is at the end of the instruction.
  have still {after : System} (kept : after.Punctual n now) : (after.endInstruction t).Punctual n time := by
    rw [endInstruction_quiet kept.quiet]
    exact kept.calmer (.refl after) kept.quiet later
  cases op with
  | setData data =>
    exact still (timely.ownerUpdate safe.1 (fun timer => { timer with data := data }) (fun _ => rfl)
      (fun _ => rfl) (fun _ => rfl) fun held _ after _ => ⟨after, safe.2 held⟩)
  | setCondition c =>
    cases c with
    | full =>
      exact still (timely.ownerUpdate safe.1 (fun timer => { timer with after := false }) (fun _ => rfl)
        (fun _ => rfl) (fun _ => rfl) fun held => absurd rfl (safe.2 held))
    | after =>
      refine still (timely.ownerUpdate safe.1 (fun timer => { timer with after := true }) (fun _ => rfl)
        (fun _ => rfl) (fun _ => rfl) fun held _ _ data => ⟨?_, data⟩)
      have awaited : sys.Awaited n := by
        rcases held with ⟨u, -, waits⟩ | permitted
        · exact .inl ⟨u, waits⟩
        · exact .inr permitted
      exact (timely.due awaited).1.symm
    | eq => exact still (timely.setTimerOwner safe.1)
    | neq => exact still (timely.setTimerOwner safe.1)
  | getData => exact still (timely.setTimerOwner safe)
  | setVector vector => exact still (timely.configure _ safe)
  | setEV => exact still (timely.setTimerOwner safe)
  | input cost => exact input_punctual timely later safe
  | eventEnable => exact configure_punctual timely later cur rfl safe
  | eventDisable =>
    refine still (timely.configure _ fun permitted => ?_)
    obtain ⟨-, -, enabled, -⟩ := (eventsPermitted_iff sys _).mp permitted
    cases enabled
  | setInterruptMode mode =>
    by_cases same : mode = (sys.timers n).events.interruptMode
    · have kept : sys.OwnerKept n t := by simpa only [CarefulOp, if_pos same] using safe
      simp only [timerOp, if_pos same]
      exact still (timely.configure _ kept)
    · have near : sys.Near n time := by simpa only [CarefulOp, if_neg same] using safe
      simp only [timerOp, if_neg same]
      exact configure_punctual timely later cur rfl near
  | setSR eeble ieble ahead behind => exact setTimerSR_punctual timely later cur safe
  | trap => exact still (timely.calmer (.raise sys t) timely.quiet (Nat.le_refl now))

lemma takeEvent_bits (sys : System) (t : Nat) (res : ResourceRef) (intr : Bool) :
    ((sys.takeEvent t res intr).threads t).eeble = false ∧
      (intr = true → ((sys.takeEvent t res intr).threads t).ieble = false) := by
  have bits (pre : System) : ((pre.completeEvent t res intr).threads t).eeble = false ∧
      (intr = true → ((pre.completeEvent t res intr).threads t).ieble = false) := by
    obtain ⟨eeble, ieble⟩ := completeEvent_bits pre t res intr
    exact ⟨eeble, fun isInterrupt => by rw [ieble, isInterrupt]; rfl⟩
  exact bits _

/-- The timer runs while no thread executes: an event that is permitted is taken, and permitted no longer. -/
lemma raiseEvent_idle (idle : sys.currentRunnable = none) (n time : Nat) :
    Calmer n sys (sys.raiseEvent (.timer n) time) ∧ (sys.raiseEvent (.timer n) time).pendingEvent = sys.pendingEvent ∧
      (sys.raiseEvent (.timer n) time).eventsPermitted (sys.timers n).events = false := by
  unfold raiseEvent
  cases permitted : sys.eventsPermitted (sys.eventable (.timer n)) with
  | false => exact ⟨.refl sys, rfl, permitted⟩
  | true =>
    obtain ⟨owner, its, -, -⟩ := (eventsPermitted_iff sys _).mp permitted
    have owned : (sys.timers n).events.owner = some owner := its
    let moved := sys.updateThread owner fun t => { t with time := time }
    have raises : sys.event (.timer n) time =
        moved.takeEvent owner (.timer n) (sys.timers n).events.interruptMode := by
      simp [event, idle, moved, eventable, owned]
    rw [if_pos rfl, raises]
    refine ⟨?_, (SameEvents.takeEvent moved _ _ _).pendingEvent, ?_⟩
    · have same : Calmer n sys moved := .updateThread sys owner id id id
      exact same.trans (.takeEvent moved _ _ _)
    · rw [Bool.eq_false_iff]
      intro still
      obtain ⟨same, its, -, bit⟩ := (eventsPermitted_iff _ _).mp still
      obtain rfl : same = owner := Option.some.inj (its.symm.trans owned)
      obtain ⟨eeble, ieble⟩ := takeEvent_bits moved same (.timer n) (sys.timers n).events.interruptMode
      cases mode : (sys.timers n).events.interruptMode with
      | false =>
        rw [mode] at bit eeble
        exact Bool.false_ne_true (eeble.symm.trans bit)
      | true =>
        rw [mode] at bit ieble
        exact Bool.false_ne_true ((ieble rfl).symm.trans bit)

lemma punctual_of_not_awaited (quiet : sys.pendingEvent = none) (unawaited : ¬sys.Awaited n) : sys.Punctual n now :=
  ⟨quiet, fun t waits => absurd (.inl ⟨t, waits⟩) unawaited, fun awaited => absurd awaited unawaited⟩

lemma timerWake_punctual (timely : sys.Punctual n now) {w : Nat}
    (due : (sys.timers n).wakeUpTime = some w) : (sys.timerWake n w).Punctual n w := by
  let popped : System :=
    { sys.updateTimer n fun timer => { timer with wakeUpTime := none } with currentRunnable := none }
  have timer : popped.timers n = { sys.timers n with wakeUpTime := none } := update_self _ _ _
  have sameMet : (popped.timers n).conditionMet w = (sys.timers n).conditionMet w := by rw [timer]; rfl
  show (popped.timerRun n w).Punctual n w
  unfold timerRun
  cases met : (popped.timers n).conditionMet w with
  | false =>
    -- The wake-up would be dropped, but only if nobody awaits it.
    rw [if_neg Bool.false_ne_true]
    refine punctual_of_not_awaited timely.quiet fun awaited => ?_
    have pre : sys.Awaited n := by
      rcases awaited with waits | permitted
      · exact .inl waits
      · rw [timer] at permitted
        exact .inr permitted
    rw [sameMet, (timely.due pre).met due] at met
    cases met
  | true =>
    rw [if_pos rfl]
    have idle : popped.currentRunnable = none := rfl
    obtain ⟨calmer, pend, forbidden⟩ := raiseEvent_idle idle n w
    have noted (u : Nat) (waits : ((popped.raiseEvent (.timer n) w).threads u).waitsFor = some (.timer n)) :
        (sys.timers n).pausedIn = some u := timely.recorded u (calmer.waits u waits)
    have pausedIn : ((popped.raiseEvent (.timer n) w).timers n).pausedIn = (sys.timers n).pausedIn := by
      rw [calmer.timer, timer]
    dsimp only
    rw [pausedIn]
    cases held : (sys.timers n).pausedIn with
    | none =>
      refine punctual_of_not_awaited (pend.trans timely.quiet) ?_
      rintro (⟨u, waits⟩ | permitted)
      · have record := noted u waits
        rw [held] at record
        cases record
      · rw [calmer.timer, forbidden] at permitted
        cases permitted
    | some t =>
      let woken := (popped.raiseEvent (.timer n) w).wake t w
      have calm : Calmer n (popped.raiseEvent (.timer n) w) woken := .wake _ t w
      refine punctual_of_not_awaited (pend.trans timely.quiet) ?_
      rintro (⟨u, waits⟩ | permitted)
      · have record := noted u (calm.waits u waits)
        obtain rfl : t = u := Option.some.inj (held.symm.trans record)
        have free : (woken.threads t).waitsFor = none := by
          simp [woken, wake, schedule, updateThread, Thread.waitsFor]
        exact absurd (free.symm.trans waits) (by simp)
      · have evs : ((woken.updateTimer n fun timer => { timer with pausedIn := none }).timers n).events =
            (popped.timers n).events := by
          rw [← calmer.timer, ← calm.timer]
          simp [updateTimer]
        have pre : woken.eventsPermitted (popped.timers n).events = true := evs ▸ permitted
        rw [Bool.eq_false_iff] at forbidden
        exact forbidden (calm.permitted pre)

end System

namespace TimerRun

variable {n : Nat}

lemma step_punctual (run : TimerRun) (label : TimerStep) (timely : run.sys.Punctual n run.now)
    (safe : run.Careful n label) : (run.step n label).sys.Punctual n (run.step n label).now := by
  cases label with
  | thread t time op =>
    have runs : (run.sys.executeAt t time).Punctual n run.now :=
      timely.calmer (.executeAt run.sys t time) timely.quiet (Nat.le_refl _)
    exact System.timerOp_punctual runs safe.1 rfl safe.2
  | run =>
    unfold step
    cases due : (run.sys.timers n).wakeUpTime with
    | none => exact timely
    | some w => exact System.timerWake_punctual timely due
  | takeEvent t res intr =>
    have quiet : (run.sys.takeEvent t res intr).pendingEvent = none :=
      (System.SameEvents.takeEvent run.sys t res intr).pendingEvent.trans timely.quiet
    exact timely.calmer (.takeEvent run.sys t res intr) quiet (Nat.le_refl _)

/-- No event is pending, no thread is paused on the timer, and events are not enabled. -/
structure Fresh (n : Nat) (run : TimerRun) : Prop where
  quiet : run.sys.pendingEvent = none
  unpaused : ∀ t, (run.sys.threads t).waitsFor ≠ some (.timer n)
  disabled : (run.sys.timers n).events.eventsEnabled = false

/-- In every state of a run that is careful the timer wakes those who await it in time. -/
theorem wakes_in_time (run : TimerRun) (fresh : run.Fresh n) (steps : List TimerStep)
    (safe : Runs.Meets (step n) (Careful n) run steps) : (steps.foldl (step n) run).WakesInTime n := by
  have unawaited : ¬run.sys.Awaited n := by
    rintro (⟨t, waits⟩ | permitted)
    · exact fresh.unpaused t waits
    · obtain ⟨-, -, enabled, -⟩ := (System.eventsPermitted_iff run.sys _).mp permitted
      rw [fresh.disabled] at enabled
      cases enabled
  have timely := safe.invariant step_punctual (System.punctual_of_not_awaited fresh.quiet unawaited)
  exact fun awaited time later met => (timely.due awaited).inTime later met

def resting : TimerRun := ⟨System.initial, 0⟩

lemma resting_fresh : resting.Fresh 0 where
  quiet := rfl
  unpaused := fun _ waits => nomatch waits
  disabled := rfl

def pausing : List TimerStep := [.thread 0 0 (.setCondition .after), .thread 0 0 (.setData 100), .thread 0 0 (.input 0)]

theorem wakes_in_time_pausing : resting.Fresh 0 ∧ Runs.Meets (step 0) (Careful 0) resting pausing ∧
      (pausing.foldl (step 0) resting).sys.Awaited 0 ∧ (pausing.foldl (step 0) resting).WakesInTime 0 := by
  have safe : Runs.Meets (step 0) (Careful 0) resting pausing := by
    refine ⟨⟨by decide, fun permitted => (nomatch permitted), fun _ full => (nomatch full)⟩,
      ⟨by decide, fun permitted => (nomatch permitted), ?_⟩, ⟨by decide, fun _ => by decide, ?_⟩, trivial⟩
    · rintro (⟨t, recorded, -⟩ | permitted)
      · cases recorded
      · cases permitted
    · rw [if_neg (by decide)]
      intro u recorded
      cases recorded
  exact ⟨resting_fresh, safe, .inl ⟨0, rfl⟩, wakes_in_time resting resting_fresh pausing safe⟩

/-- Another thread moves the data to tick 200 meanwhile. The wake-up comes at tick 101, finds the condition not met
and is dropped, and the thread sleeps on for ever. -/
theorem sleeps_past_changed_data :
    let final := (pausing ++ [TimerStep.thread 1 4 (.setData 200), TimerStep.run]).foldl (step 0) resting
    (final.sys.threads 0).waitsFor = some (.timer 0) ∧ (final.sys.timers 0).wakeUpTime = none ∧
      (final.sys.timers 0).conditionMet 804 = true ∧ ¬final.WakesInTime 0 := by
  intro final
  have waits : (final.sys.threads 0).waitsFor = some (.timer 0) := by decide
  have unscheduled : (final.sys.timers 0).wakeUpTime = none := by decide
  have met : (final.sys.timers 0).conditionMet 804 = true := by decide
  refine ⟨waits, unscheduled, met, fun wakes => ?_⟩
  obtain ⟨w, scheduled, -⟩ := wakes (.inl ⟨0, waits⟩) 804 (by decide) met
  cases scheduled

end TimerRun

end Axe
