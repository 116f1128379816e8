import Axe.Channel.WakeTimes
import Axe.System.FreedThreads
import Axe.System.Groups

/-! At which times timers, locks, ports and synchronisers wake threads. A lock and a
synchroniser compare clocks; the others move a thread to the time of the operation. -/

namespace Axe

namespace System

variable {pre sys after : System} {due n t : Nat}

lemma SameClocks.refl (sys : System) : SameClocks due sys sys :=
  .of_threads rfl rfl (fun _ _ _ => id) fun _ _ => .inl

section

lemma SameClocks.updateTimer {upd : Timer → Timer} (noted : ∀ u, (upd (sys.timers n)).pausedIn = some u →
      (sys.timers n).pausedIn = some u ∨ sys.currentRunnable = some u)
    (place : ∀ w, (upd (sys.timers n)).wakeUpTime = some w → (sys.timers n).wakeUpTime = some w ∨ due ≤ w) :
    SameClocks due sys (sys.updateTimer n upd) := by
  refine .of_threads rfl rfl (fun u slot rests mem => ?_) fun m w put => ?_
  · cases slot with
    | timer m =>
      by_cases same : m = n
      · subst same
        have isPaused : (upd (sys.timers m)).pausedIn = some u := by
          simpa [table, System.updateTimer] using mem
        obtain kept | exec := noted u isPaused
        · simp [table, kept]
        · exact absurd exec rests
      · simpa [table, System.updateTimer, same] using mem
    | portOut | portIn | portSync | chanIn | chanOut | lock => exact mem
  · by_cases same : m = n
    · subst same
      exact place w (by simpa [System.updateTimer] using put)
    · exact .inl (by simpa [System.updateTimer, same] using put)

lemma SameClocks.scheduleTimer {time : Nat} (ahead : due ≤ (sys.timers n).getEarliestReadyTime time) :
    SameClocks due sys (sys.scheduleTimer n time) := by
  refine .updateTimer (fun _ => .inl) fun w place => .inr ?_
  obtain rfl : (sys.timers n).getEarliestReadyTime time = w := by simpa using place
  exact ahead

lemma SameClocks.allocTimer : SameClocks due sys (sys.allocTimer t n) := .updateTimer (fun _ => .inl) fun _ => .inl

lemma SameClocks.freeTimer : SameClocks due sys (sys.freeTimer n) := .updateTimer (fun _ => .inl) fun _ => .inl

lemma SameClocks.setTimerOwner : SameClocks due sys (sys.setTimerOwner t n) :=
  .updateTimer (fun _ => .inl) fun _ => .inl

lemma SameClocks.timerIn (exec : sys.currentRunnable = some t) {time : Nat}
    (ahead : due ≤ (sys.timers n).getEarliestReadyTime time) : SameClocks due sys (sys.timerIn t n time).1 := by
  have owned : SameClocks due sys (sys.setTimerOwner t n) := .setTimerOwner
  have noted : SameClocks due (sys.setTimerOwner t n)
      ((sys.setTimerOwner t n).updateTimer n fun timer => { timer with pausedIn := some t }) := by
    refine .updateTimer (fun u held => .inr ?_) fun _ => .inl
    obtain rfl : t = u := by simpa using held
    exact exec
  have same : (((sys.setTimerOwner t n).updateTimer n fun timer =>
      { timer with pausedIn := some t }).timers n).getEarliestReadyTime time =
        (sys.timers n).getEarliestReadyTime time := by
    simp [System.setTimerOwner, System.updateTimer, Timer.getEarliestReadyTime, Timer.conditionMet]
  unfold System.timerIn
  dsimp only
  split
  · exact owned
  · exact (owned.trans noted).trans (.scheduleTimer (by rwa [same]))

lemma ClockEffects.timerRun (eff : ClockEffects due pre sys) (ahead : sys.NoneAhead (.timer n) due) :
    ClockEffects due pre (sys.timerRun n due) := by
  unfold System.timerRun
  split
  · have trap := eff.raiseEvent ahead
    dsimp only
    split
    · exact trap
    · rename_i t held
      have noted : t ∈ (sys.raiseEvent (.timer n) due).table.recorded (.timer n) := by simp [table, held]
      exact (trap.wake (.of_recorded noted)).same (.updateTimer (by simp) fun _ => .inl)
  · exact eff

end

section

lemma SameClocks.updateLock {upd : Lock → Lock}
    (noted : ∀ u ∈ (upd (sys.locks n)).threads, u ∈ (sys.locks n).threads ∨ sys.currentRunnable = some u) :
    SameClocks due sys (sys.updateLock n upd) := by
  refine .of_threads rfl rfl (fun u slot rests mem => ?_) fun _ _ => .inl
  cases slot with
  | lock m =>
    by_cases same : m = n
    · subst same
      have listed : u ∈ (upd (sys.locks m)).threads := by simpa [table, System.updateLock] using mem
      exact (noted u listed).resolve_right rests
    · simpa [table, System.updateLock, same] using mem
  | portOut | portIn | portSync | chanIn | chanOut | timer => exact mem

lemma SameClocks.allocLock : SameClocks due sys (sys.allocLock n) := by
  apply SameClocks.updateLock
  simp

lemma SameClocks.lockIn (exec : sys.currentRunnable = some t) : SameClocks due sys (sys.lockIn t n).1 := by
  unfold System.lockIn
  split
  · dsimp only
    refine .updateLock fun u mem => ?_
    obtain listed | rfl := by simpa using mem
    · exact .inl listed
    · exact .inr exec
  · dsimp only
    exact .updateLock fun _ => .inl

/-- A thread that gets the lock goes on at the later of its own time and that of the release. -/
lemma lockOut_effects (reach : ∀ u, sys.currentRunnable = some u → (sys.threads u).time ≤ due) :
    ∃ time, due ≤ time ∧ ClockEffects time sys (sys.lockOut n due) := by
  unfold lockOut
  split
  · exact ⟨due, le_rfl, SameClocks.effects (.updateLock fun _ => .inl) reach⟩
  · rename_i next rest listed
    refine ⟨max (sys.threads next).time due, le_max_right _ _, ?_⟩
    have reach (u : Nat) (exec : sys.currentRunnable = some u) :
        (sys.threads u).time ≤ max (sys.threads next).time due :=
      (reach u exec).trans (le_max_right _ _)
    have popped : SameClocks (max (sys.threads next).time due) sys
        (sys.updateLock n fun lock => { lock with threads := rest }) := by
      refine .updateLock fun u mem => .inl ?_
      rw [listed]
      exact List.mem_cons_of_mem next mem
    have moved : SameClocks (max (sys.threads next).time due)
        (sys.updateLock n fun lock => { lock with threads := rest })
        ((sys.updateLock n fun lock => { lock with threads := rest }).updateThread next fun th =>
          { th with pc := th.pc + 1 }) := .updateThread _ rfl fun _ => ⟨id, id⟩
    have prepared := (popped.trans moved).effects reach
    have behind : (((sys.updateLock n fun lock => { lock with threads := rest }).updateThread next fun th =>
        { th with pc := th.pc + 1 }).threads next).time ≤ max (sys.threads next).time due := by
      simp [updateThread, updateLock]
    have same : (((sys.updateLock n fun lock => { lock with threads := rest }).updateThread next fun th =>
        { th with time := max th.time due, pc := th.pc + 1 }).schedule next) =
        ((sys.updateLock n fun lock => { lock with threads := rest }).updateThread next fun th =>
          { th with pc := th.pc + 1 }).wake next (max (sys.threads next).time due) := by
      simp [wake, schedule, updateThread, updateLock]
    rw [same]
    exact prepared.trans (wake_effects prepared.reached fun _ => .inl behind)

end

section

lemma SameClocks.rewait {ts : List Nat} (own : ∀ u ∈ ts, sys.currentRunnable = some u) (p : Nat)
    (kind : PortWait) : SameClocks due sys (sys.rewait ts (kind.slot p)) := by
  refine .of_threads (rewait_membership sys ts _).2 ?_ (fun u slot rests mem => ?_) fun m w place => ?_
  · cases kind <;> rfl
  · rcases mem_recorded_rewait mem with pre | here
    · exact pre
    · exact absurd (own u here) rests
  · cases kind <;> exact .inl place

lemma SameClocks.record (exec : sys.currentRunnable = some t) (p : Nat) (kind : PortWait) :
    SameClocks due sys (sys.record t (kind.slot p)) := by
  have alone : sys.enqueued t (kind.slot p) = [t] := by cases kind <;> rfl
  rw [record_eq, alone]
  exact .rewait (by simpa using exec) p kind

lemma SameClocks.forget (p : Nat) (kind : PortWait) : SameClocks due sys (sys.forget (kind.slot p)) := by
  have none : sys.dequeued (kind.slot p) = [] := by cases kind <;> rfl
  rw [forget_eq, none]
  exact .rewait (by simp) p kind

lemma ClockEffects.portWake (eff : ClockEffects due pre sys) (p : Nat) (kind : PortWait) :
    ClockEffects due pre (sys.portWake (kind.slot p) due) := by
  unfold System.portWake
  split
  · exact eff
  · rename_i t rest listed
    have noted : t ∈ sys.table.recorded (kind.slot p) := by simp [listed]
    exact (eff.wake (.of_recorded noted)).same (.forget p kind)

end

section

lemma SameClocks.updateSync {s : Nat} {upd : Synchroniser → Synchroniser} :
    SameClocks due sys (sys.updateSync s upd) :=
  .of_threads rfl rfl (fun _ _ _ => id) fun _ _ => .inl

lemma SameClocks.freeThread (u : Nat) : SameClocks due sys (sys.freeThread u) :=
  .updateThread sys rfl fun _ => ⟨id, id⟩

lemma SameClocks.freeThreads (ts : List Nat) : SameClocks due sys (sys.freeThreads ts) := by
  induction ts generalizing sys with
  | nil => exact .refl sys
  | cons u rest ih => exact (SameClocks.freeThread u).trans ih

lemma delay_effects (reach : ∀ u, sys.currentRunnable = some u → (sys.threads u).time ≤ due) {u : Nat}
    (behind : (sys.threads u).time ≤ due) :
    ClockEffects due sys (sys.updateThread u fun th => { th with time := due }) := by
  have fwd : (sys.threads u).time ≤
      ((sys.updateThread u fun th => { th with time := due }).threads u).time := by
    simpa [updateThread] using behind
  apply updateThread_effects reach
  · intro _
    constructor
    · intro w place
      exact .inr ⟨by simpa [updateThread] using place, .inl fwd⟩
    · intro wait
      exact ⟨by simpa [updateThread] using wait, fwd⟩
    · simp [updateThread]
    · simp [updateThread]
    · exact .inl fwd
    · intro seen
      exact seen.mono (by simp [updateThread]) (by simp [updateThread]) fun _ => id
  · exact fun _ => ⟨⟨behind, fun w place => .inr place, fun _ _ => le_rfl⟩, le_rfl⟩

lemma releaseThread_effects (reach : ∀ u, sys.currentRunnable = some u → (sys.threads u).time ≤ due)
    {u : Nat} (behind : (sys.threads u).time ≤ due) (slave : Bool) :
    ClockEffects due sys (sys.releaseThread due t slave u) := by
  unfold releaseThread
  split
  · exact delay_effects reach behind
  · have moved : SameClocks due sys (sys.updateThread u fun th =>
        { th with ssync := !slave && th.ssync, pc := th.pc + 1 }) :=
      .updateThread sys rfl fun _ => ⟨id, id⟩
    have same : (((sys.updateThread u fun th => { th with time := due }).updateThread u fun th =>
        { th with ssync := !slave && th.ssync, pc := th.pc + 1 }).schedule u) =
        (sys.updateThread u fun th =>
          { th with ssync := !slave && th.ssync, pc := th.pc + 1 }).wake u due := by
      simp [wake, schedule, updateThread]
    rw [same]
    have prepared := moved.effects reach
    exact prepared.trans (wake_effects prepared.reached fun _ => .inl (by simpa [updateThread] using behind))

lemma releaseThread_time (sys : System) (due t u v : Nat) (slave : Bool)
    (behind : (sys.threads v).time ≤ due) : ((sys.releaseThread due t slave u).threads v).time ≤ due := by
  unfold releaseThread
  by_cases same : v = u
  · subst same
    split <;> simp [schedule, updateThread]
  · split <;> simpa [schedule, updateThread, same] using behind

lemma foldl_releaseThread_effects (slave : Bool) (ts : List Nat)
    (eff : ClockEffects due pre sys) (behind : ∀ u ∈ ts, (sys.threads u).time ≤ due) :
    ClockEffects due pre (ts.foldl (releaseThread due t slave) sys) := by
  induction ts generalizing sys with
  | nil => exact eff
  | cons u rest ih =>
    obtain ⟨first, others⟩ := List.forall_mem_cons.mp behind
    apply ih (eff.trans (releaseThread_effects eff.reached first slave))
    exact fun v mem => sys.releaseThread_time due t u v slave (others v mem)

lemma releaseThreads_effects (ts : List Nat)
    (eff : ClockEffects due pre sys) (behind : ∀ u ∈ ts, (sys.threads u).time ≤ due) :
    ClockEffects due pre (sys.releaseThreads due t ts) := by
  cases ts with
  | nil => exact eff
  | cons mst ss =>
    obtain ⟨first, others⟩ := List.forall_mem_cons.mp behind
    have released := eff.trans (releaseThread_effects (t := t) eff.reached first false)
    apply foldl_releaseThread_effects true ss released
    exact fun v mem => sys.releaseThread_time due t mst v false (others v mem)

/-- The last thread of a group to arrive lets the others go on at the latest of their times. -/
lemma sync_effects {s : Nat} (exec : sys.currentRunnable = some t) (mem : t ∈ (sys.syncs s).threads)
    (isMaster : Bool) : ∃ due, (sys.threads t).time ≤ due ∧ ClockEffects due sys (sys.sync s t isMaster).1 := by
  have reach {due : Nat} (behind : (sys.threads t).time ≤ due) (u : Nat) (runs : sys.currentRunnable = some u) :
      (sys.threads u).time ≤ due := by
    obtain rfl : t = u := Option.some.inj (exec.symm.trans runs)
    exact behind
  unfold sync
  dsimp only
  split
  · refine ⟨(sys.threads t).time, le_rfl, ?_⟩
    have cnt : ClockEffects (sys.threads t).time sys (sys.updateSync s fun group =>
        { group with numPaused := (group.numPaused + 1) % 2 ^ 32 }) := SameClocks.updateSync.effects (reach le_rfl)
    cases isMaster with
    | true => exact cnt
    | false =>
      simp only [Bool.false_eq_true, if_false]
      exact cnt.same (.updateThread _ rfl fun _ => ⟨id, id⟩)
  · have ne : (sys.syncs s).threads ≠ [] := List.ne_nil_of_mem mem
    have behind := (sys.isMaxTime_maxThreadTime ne).1
    refine ⟨sys.maxThreadTime (sys.syncs s).threads, behind t mem, ?_⟩
    have cnt : ClockEffects (sys.maxThreadTime (sys.syncs s).threads) sys (sys.updateSync s fun group =>
        { group with numPaused := 0 }) := SameClocks.updateSync.effects (reach (behind t mem))
    split
    · exact releaseThreads_effects _ cnt (by exact behind)
    · split
      · exact cnt
      · rename_i mst ss listed
        have first : (sys.threads mst).time ≤ sys.maxThreadTime (sys.syncs s).threads :=
          behind mst (by simp [listed])
        split
        · -- the master of the join goes on itself, with the clock of the latest
          have moved := cnt.trans (delay_effects (u := mst) cnt.reached (by exact first))
          dsimp only
          exact (moved.same (.freeThreads ss)).same .updateSync
        · have woken := cnt.trans (wake_effects (t := mst) cnt.reached fun _ => .inl (by exact first))
          dsimp only
          exact (woken.same (.freeThreads _)).same .updateSync

end

section

lemma SameClocks.configure (evs : Eventable)
    (res : ResourceRef) : SameClocks due sys (sys.configure evs res) := by
  cases res with
  | port p =>
    refine .of_threads rfl rfl (fun u slot _ mem => ?_) fun _ _ => .inl
    rwa [configure_recorded] at mem
  | timer n =>
    simp only [System.configure]
    exact .updateTimer (fun _ => .inl) fun _ => .inl
  | chanend c =>
    simp only [System.configure]
    exact .updateChanend fun _ => rfl
  | sync | lock => exact .refl sys

lemma ClockEffects.checkEvent (eff : ClockEffects due pre sys) {res : ResourceRef}
    (exec : ∀ u, (sys.eventable res).owner = some u → sys.currentRunnable = some u) (seen : Bool)
    (ahead : ∀ n, res = .timer n → due ≤ (sys.timers n).getEarliestReadyTime due) :
    ClockEffects due pre (sys.checkEvent res seen due) := by
  have trap : ClockEffects due pre (sys.raiseEvent res due) := by
    apply eff.raiseEvent
    intro u legal rests
    unfold permits at legal
    split at legal
    · exact absurd (exec u legal) rests
    · simp at legal
  unfold System.checkEvent
  split
  · rename_i legal
    rw [System.raiseEvent, if_pos legal] at trap
    split
    · split
      · exact trap
      · exact eff.same (.scheduleTimer (ahead _ rfl))
    · split
      · exact trap
      · exact eff
  · exact eff

lemma configure_owner (sys : System) (evs : Eventable) (res : ResourceRef) {u : Nat}
    (owned : ((sys.configure evs res).eventable res).owner = some u) : evs.owner = some u := by
  cases res with
  | port p => simpa [configure, eventable, updatePort] using owned
  | timer n => simpa [configure, eventable, updateTimer] using owned
  | chanend c => simpa [configure, eventable, updateChanend] using owned
  | sync | lock => simp [eventable] at owned

lemma configure_ready (sys : System) (evs : Eventable) (n time : Nat) :
    ((sys.configure evs (.timer n)).timers n).getEarliestReadyTime time =
      (sys.timers n).getEarliestReadyTime time := by
  simp [configure, updateTimer, Timer.getEarliestReadyTime, Timer.conditionMet]

end

variable {via : Routing}

/-- What an operation must not run into: events of threads that stand in the queue ahead of it, timers whose wait
does not fit, a group that does not list its thread, and a thread that is freed but still in the queue. -/
def Untroubled (via : Routing) (sys : System) (t : Nat) : Operation → Prop
  | .channel c op => canEvent op = true → ∀ d, sys.destination via c = some d →
      sys.NoneAhead (.chanend d) (sys.threads t).time
  | .timerIn n | .enable (.timer n) _ _ | .check (.timer n) _ =>
    (sys.threads t).time ≤ (sys.timers n).getEarliestReadyTime (sys.threads t).time
  | .msync s | .mjoin s => (sys.syncs s).inUse = true → t ∈ (sys.syncs s).threads
  | .ssync => ∀ s, (sys.threads t).sync = some s → t ∈ (sys.syncs s).threads
  | .allocThread | .getst _ => ∀ u, sys.unusedThread = some u →
      ∀ w, (sys.threads u).wakeUpTime = some w → w ≤ (sys.threads t).time
  | _ => True

/-- Thread `t` changes clocks at one time, which is not before its own. -/
def ChangesInTime (t : Nat) (sys post : System) : Prop :=
  ∃ due, (sys.threads t).time ≤ due ∧ ClockEffects due sys post

section

variable (exec : sys.currentRunnable = some t)
include exec

lemma time_le_of_executing (u : Nat) (runs : sys.currentRunnable = some u) :
    (sys.threads u).time ≤ (sys.threads t).time := by
  obtain rfl : t = u := Option.some.inj (exec.symm.trans runs)
  exact le_rfl

lemma SameClocks.inTime (same : SameClocks (sys.threads t).time sys after) : ChangesInTime t sys after :=
  ⟨_, le_rfl, same.effects (time_le_of_executing exec)⟩

lemma inTime_ite {cond : Prop} [Decidable cond] {taken other : System × OperationResult}
    (yes : cond → ChangesInTime t sys taken.1) (no : ¬cond → SameClocks (sys.threads t).time sys other.1) :
    ChangesInTime t sys (if cond then taken else other).1 := by
  split
  · exact yes ‹_›
  · exact (no ‹_›).inTime exec

lemma setTimer_inTime (upd : Timer → Timer) (wait : ∀ timer, (upd timer).pausedIn = timer.pausedIn)
    (place : ∀ timer, (upd timer).wakeUpTime = timer.wakeUpTime) :
    ChangesInTime t sys ((sys.setTimerOwner t n).updateTimer n upd) := by
  have owned : SameClocks (sys.threads t).time sys (sys.setTimerOwner t n) := .setTimerOwner
  refine (owned.trans (.updateTimer (fun u held => .inl ?_) fun w put => .inl ?_)).inTime exec
  · rwa [wait] at held
  · rwa [place] at put

lemma enable_inTime (res : ResourceRef) (evs : Eventable) (seen : Bool)
    (ahead : ∀ n, res = .timer n → (sys.threads t).time ≤ (sys.timers n).getEarliestReadyTime (sys.threads t).time) :
    ChangesInTime t sys
      ((sys.configure { evs with owner := some t } res).checkEvent res seen (sys.threads t).time) := by
  have eff : ClockEffects (sys.threads t).time sys (sys.configure { evs with owner := some t } res) :=
    SameClocks.effects (.configure _ res) (time_le_of_executing exec)
  refine ⟨_, le_rfl, eff.checkEvent (fun u owned => ?_) seen fun n timer => ?_⟩
  · have owner : some t = some u := configure_owner sys _ res owned
    exact eff.currentRunnable.trans (exec.trans owner)
  · subst timer
    rw [configure_ready]
    exact ahead n rfl

lemma check_inTime {res : ResourceRef} (owned : (sys.eventable res).owner = some t) (seen : Bool)
    (ahead : ∀ n, res = .timer n → (sys.threads t).time ≤ (sys.timers n).getEarliestReadyTime (sys.threads t).time) :
    ChangesInTime t sys (sys.checkEvent res seen (sys.threads t).time) := by
  have eff : ClockEffects (sys.threads t).time sys sys := (SameClocks.refl sys).effects (time_le_of_executing exec)
  exact ⟨_, le_rfl, eff.checkEvent (fun u owner => exec.trans (owned.symm.trans owner)) seen ahead⟩

lemma mjoin_inTime {s : Nat} (mem : t ∈ (sys.syncs s).threads) :
    ChangesInTime t sys ((sys.joining s).sync s t true).1 := by
  have listed : t ∈ ((sys.joining s).syncs s).threads := by simpa [joining, updateSync] using mem
  have runs : (sys.joining s).currentRunnable = some t := exec
  obtain ⟨due, later, synced⟩ := sync_effects runs listed true
  have joining : SameClocks due sys (sys.joining s) := .updateSync
  have joined := joining.effects fun u runs => (time_le_of_executing exec u runs).trans later
  exact ⟨due, later, joined.trans synced⟩

lemma ssyncOperation_inTime (mem : ∀ s, (sys.threads t).sync = some s → t ∈ (sys.syncs s).threads) :
    ChangesInTime t sys (sys.ssyncOperation t).1 := by
  unfold ssyncOperation
  split
  · exact (SameClocks.refl sys).inTime exec
  · rename_i s listed
    obtain ⟨due, later, synced⟩ := sync_effects exec (mem s listed) false
    refine ⟨due, later, ?_⟩
    dsimp only
    split
    · exact synced.same (.freeThread t)
    · exact synced

lemma allocSync_inTime : ChangesInTime t sys (sys.operate via t .allocSync).1 := by
  simp only [operate]
  split
  · exact (SameClocks.refl sys).inTime exec
  · dsimp only [allocSync]
    exact SameClocks.updateSync.inTime exec

lemma allocUnused_inTime (none : sys.unusedThread = none) (time : Nat) (use : System → Nat → System) :
    ChangesInTime t sys (sys.allocUnused time use) := by
  simpa only [allocUnused, none] using (SameClocks.refl sys).inTime exec

/-- Every operation but those that allocate and start threads works at a time that is not before that of its thread. -/
lemma operate_effects {op : Operation} (calm : sys.Untroubled via t op)
    (allocates : ClockRun.allocates sys op = none) (starts : ∀ u, op ≠ .tstart u) :
    ChangesInTime t sys (sys.operate via t op).1 := by
  have unchanged {cond : Prop} (_ : ¬cond) : SameClocks (sys.threads t).time sys sys := .refl sys
  cases op with
  | channel c op => exact ⟨_, le_rfl, perform_effects ⟨t, c, op⟩ exec fun d out hits => calm out d hits⟩
  | allocTimer n => exact inTime_ite exec (fun _ => (SameClocks.refl sys).inTime exec) fun _ => .allocTimer
  | freeTimer n => exact inTime_ite exec (fun _ => SameClocks.freeTimer.inTime exec) unchanged
  | setTimer n after data =>
    refine inTime_ite exec (fun _ => ?_) unchanged
    dsimp only
    exact setTimer_inTime exec _ (fun _ => rfl) fun _ => rfl
  | timerIn n => exact inTime_ite exec (fun _ => (SameClocks.timerIn exec calm).inTime exec) unchanged
  | allocLock n => exact inTime_ite exec (fun _ => (SameClocks.refl sys).inTime exec) fun _ => .allocLock
  | freeLock n =>
    refine inTime_ite exec (fun _ => SameClocks.inTime exec ?_) unchanged
    dsimp only
    exact .updateLock fun _ => .inl
  | lockIn n => exact inTime_ite exec (fun _ => (SameClocks.lockIn exec).inTime exec) unchanged
  | lockOut n => exact inTime_ite exec (fun _ => lockOut_effects (time_le_of_executing exec)) unchanged
  | portWait p kind => exact (SameClocks.record exec p kind).inTime exec
  | enable res evs seen =>
    refine enable_inTime exec res evs seen fun n timer => ?_
    subst timer
    exact calm
  | check res seen =>
    simp only [operate]
    split
    · refine check_inTime exec ‹_› seen fun n timer => ?_
      subst timer
      exact calm
    · exact (SameClocks.refl sys).inTime exec
  | setSR eeble ieble =>
    refine SameClocks.inTime exec ?_
    simp only [operate]
    exact .updateThread sys rfl fun rests => absurd exec rests
  | wait => exact (SameClocks.refl sys).inTime exec
  | msync s => exact inTime_ite exec (fun inUse => sync_effects exec (calm inUse) true) unchanged
  | mjoin s => exact inTime_ite exec (fun inUse => mjoin_inTime exec (calm inUse)) unchanged
  | ssync => exact ssyncOperation_inTime exec calm
  | freet => exact inTime_ite exec (fun _ => (SameClocks.refl sys).inTime exec) fun _ => .freeThread t
  | freeThread u => exact inTime_ite exec (fun _ => (SameClocks.freeThread u).inTime exec) unchanged
  | allocSync => exact allocSync_inTime exec
  | freeSync s =>
    refine inTime_ite exec (fun _ => SameClocks.inTime exec ?_) unchanged
    dsimp only [freeSync]
    exact .updateSync
  | allocThread =>
    simp only [operate]
    exact allocUnused_inTime exec allocates ..
  | getst s =>
    refine inTime_ite exec (fun inUse => ?_) unchanged
    have none : sys.unusedThread = none := by simpa [ClockRun.allocates, inUse] using allocates
    dsimp only
    exact allocUnused_inTime exec none ..
  | tstart u => exact absurd rfl (starts u)

end

end System

end Axe
