import Axe.Port.Signals

/-! The mixin that turns the signals on a port into changes of its value: it compares the values when
it is told of a signal, and has itself run at each edge of a clock. -/

namespace Axe

structure PortHandleClockMixin where
  currentValue : Nat := 0
  currentSignal : Signal := {}
  /-- Its entry in the queue. -/
  wakeUpTime : Option Nat := none
  /-- The calls of `seePinsValueChange`, each with its time. -/
  calls : List (Nat × Nat) := []
  /-- It was removed from the queue while it was not in it, or run without a clock. -/
  misused : Bool := false

namespace PortHandleClockMixin

variable (mixin : PortHandleClockMixin) (time : Nat)

def seePinsValueChange (value : Nat) : PortHandleClockMixin :=
  { mixin with currentValue := value, calls := mixin.calls ++ [(time, value)] }

def push : PortHandleClockMixin := { mixin with wakeUpTime := some time }

def remove : PortHandleClockMixin :=
  { mixin with wakeUpTime := none, misused := mixin.misused || mixin.wakeUpTime.isNone }

def seePinsChange (newSignal : Signal) : PortHandleClockMixin :=
  let wasClock := mixin.currentSignal.isClock
  let mixin := { mixin with currentSignal := newSignal }
  let newValue := newSignal.getValue time
  let mixin := if newValue = mixin.currentValue then mixin else mixin.seePinsValueChange time newValue
  if newSignal.isClock then mixin.push (newSignal.getNextEdge time).time
  else if wasClock then mixin.remove else mixin

def run : PortHandleClockMixin :=
  let mixin := { mixin with misused := mixin.misused || !mixin.currentSignal.isClock }
  let mixin := mixin.seePinsValueChange time (if mixin.currentValue = 0 then 1 else 0)
  mixin.push (time + mixin.currentSignal.halfPeriod)

def runIfDue : PortHandleClockMixin :=
  if mixin.wakeUpTime = some time then { mixin with wakeUpTime := none }.run time else mixin

/-- A signal comes, or the scheduler takes its turn. -/
def act (mixin : PortHandleClockMixin) : Option Signal → PortHandleClockMixin
  | some sig => mixin.seePinsChange time sig
  | none => mixin.runIfDue time

/-- At the end of a time the scheduler has run what is due at it. -/
def tick (events : List (Option Signal)) : PortHandleClockMixin := (events.foldl (act time) mixin).runIfDue time

/-- Before the time `n`, if these are the events of each time. -/
def ran (events : Nat → List (Option Signal)) : Nat → PortHandleClockMixin
  | 0 => {}
  | n + 1 => (ran events n).tick n (events n)

def inForce (events : Nat → List (Option Signal)) : Nat → Signal
  | 0 => {}
  | n + 1 => (events n).foldl (fun sig event => event.getD sig) (inForce events n)

/-- The value just before the time `n`. -/
def level (events : Nat → List (Option Signal)) (n : Nat) : Nat := (inForce events n).getValue (n - 1)

def callsOf (time old new : Nat) : List (Nat × Nat) := if new = old then [] else [(time, new)]

/-- The changes of the value at a time, from event to event and up to its end. -/
def changes (time : Nat) : Signal → Nat → List (Option Signal) → List (Nat × Nat)
  | sig, value, [] => callsOf time value (sig.getValue time)
  | sig, value, event :: events =>
    let sig := event.getD sig
    callsOf time value (sig.getValue time) ++ changes time sig (sig.getValue time) events

variable {mixin} {time}

/-- What one tick more does to the value and the next edge of a clock. -/
lemma edge_succ {sig : Signal} (clock : 0 < sig.halfPeriod) {n : Nat} (started : sig.value ≤ n)
    (fits : n + 1 < 2 ^ 64) :
    (sig.getNextEdge n).time = n + 1 ∧ sig.getValue (n + 1) = (if sig.getValue n = 0 then 1 else 0) ∧
        (sig.getNextEdge (n + 1)).time = n + 1 + sig.halfPeriod ∨
      (sig.getNextEdge n).time ≠ n + 1 ∧ sig.getValue (n + 1) = sig.getValue n ∧
        (sig.getNextEdge (n + 1)).time = (sig.getNextEdge n).time := by
  rw [Signal.getValue_of_started clock started (by omega), Signal.getValue_of_started clock (by omega) fits]
  obtain ⟨k, rfl⟩ := Nat.exists_eq_add_of_le started
  simp only [Signal.getNextEdge, Nat.add_assoc, Nat.add_sub_cancel_left, Nat.succ_div]
  by_cases divides : sig.halfPeriod ∣ k + 1
  · have whole : (1 + k / sig.halfPeriod) * sig.halfPeriod = k + 1 := by
      rw [Nat.add_comm, ← Nat.div_mul_cancel divides, Nat.succ_div, if_pos divides]
    rw [if_pos divides, ← Nat.add_assoc 1, Nat.succ_mul, whole]
    refine .inl ⟨rfl, ?_, by omega⟩
    split <;> omega
  · have partway : (1 + k / sig.halfPeriod) * sig.halfPeriod ≠ k + 1 :=
      fun whole => divides ⟨_, by rw [Nat.mul_comm, whole]⟩
    rw [if_neg divides]
    exact .inr ⟨by omega, rfl, rfl⟩

/-- The object is in step with its signal at a time. -/
structure Follows (mixin : PortHandleClockMixin) (t : Nat) : Prop where
  value : mixin.currentValue = mixin.currentSignal.getValue t
  queued : mixin.wakeUpTime =
    if mixin.currentSignal.isClock then some (mixin.currentSignal.getNextEdge t).time else none
  started : mixin.currentSignal.isClock → mixin.currentSignal.value ≤ t
  used : mixin.misused = false

lemma Follows.seePinsChange {t : Nat} (follows : Follows mixin t) {sig : Signal}
    (started : sig.isClock → sig.value ≤ time) : Follows (mixin.seePinsChange time sig) time := by
  obtain ⟨value, queued, -, used⟩ := follows
  constructor <;> grind [PortHandleClockMixin.seePinsChange, seePinsValueChange, push, remove]

lemma Follows.not_due (follows : Follows mixin time) : mixin.runIfDue time = mixin := by
  apply if_neg
  rw [follows.queued]
  split
  next clock =>
    have clock : 0 < mixin.currentSignal.halfPeriod := by
      simpa [Signal.isClock, Nat.pos_iff_ne_zero] using clock
    have later := Nat.lt_mul_div_succ (time - mixin.currentSignal.value) clock
    rw [Nat.mul_comm, Nat.add_comm] at later
    simp only [Signal.getNextEdge, Option.some.injEq]
    omega
  next => exact (Option.some_ne_none time).symm

lemma Follows.runIfDue (follows : Follows mixin (time - 1)) (fits : time < 2 ^ 64) :
    Follows (mixin.runIfDue time) time ∧ (mixin.runIfDue time).calls = mixin.calls ++
      callsOf time (mixin.currentSignal.getValue (time - 1)) (mixin.currentSignal.getValue time) := by
  have still (same : Follows mixin time) : Follows (mixin.runIfDue time) time ∧ (mixin.runIfDue time).calls =
      mixin.calls ++ callsOf time (mixin.currentSignal.getValue (time - 1)) (mixin.currentSignal.getValue time) := by
    rw [same.not_due, ← same.value, follows.value, callsOf, if_pos rfl, List.append_nil]
    exact ⟨same, rfl⟩
  cases time with
  | zero => exact still follows
  | succ n =>
    rw [Nat.add_sub_cancel] at follows
    obtain ⟨value, queued, started, used⟩ := follows
    cases clock : mixin.currentSignal.isClock with
    | false =>
      refine still ⟨?_, ?_, ?_, used⟩
      · grind [Signal.getValue, Signal.isClock]
      · grind
      · grind
    | true =>
      have period : 0 < mixin.currentSignal.halfPeriod := by
        simpa [Signal.isClock, Nat.pos_iff_ne_zero] using clock
      have begun := started clock
      rw [if_pos clock] at queued
      rcases edge_succ period begun fits with ⟨due, flips, next⟩ | ⟨-, same, next⟩
      · rw [PortHandleClockMixin.runIfDue, if_pos (queued.trans (congrArg some due))]
        simp only [run, seePinsValueChange, push]
        refine ⟨⟨?_, ?_, fun _ => Nat.le_succ_of_le begun, by rw [used, clock]; rfl⟩, ?_⟩
        · rw [flips, value]
        · rw [if_pos clock, next]
        · grind [callsOf]
      · refine still ⟨value.trans same.symm, ?_, fun _ => Nat.le_succ_of_le begun, used⟩
        rw [if_pos clock, queued, next]

lemma act_currentSignal (mixin : PortHandleClockMixin) (time : Nat) (event : Option Signal) :
    (mixin.act time event).currentSignal = event.getD mixin.currentSignal := by
  cases event <;> grind [act, seePinsChange, PortHandleClockMixin.runIfDue, run, seePinsValueChange, push, remove]

/-- An event that comes when the time has begun or before, and the call that it leads to. -/
lemma act_follows (fits : time < 2 ^ 64) (event : Option Signal)
    (started : ∀ sig ∈ event, sig.isClock → sig.value ≤ time)
    (follows : Follows mixin (time - 1) ∨ Follows mixin time) :
    Follows (mixin.act time event) time ∧ (mixin.act time event).calls = mixin.calls ++
      callsOf time mixin.currentValue ((event.getD mixin.currentSignal).getValue time) := by
  cases event with
  | none =>
    obtain follows | follows := follows
    · rw [follows.value]
      exact follows.runIfDue fits
    · rw [act, follows.not_due, follows.value, Option.getD_none, callsOf, if_pos rfl, List.append_nil]
      exact ⟨follows, rfl⟩
  | some sig =>
    have calls : (mixin.seePinsChange time sig).calls =
        mixin.calls ++ callsOf time mixin.currentValue (sig.getValue time) := by
      grind [seePinsChange, seePinsValueChange, push, remove, callsOf]
    obtain follows | follows := follows
    · exact ⟨follows.seePinsChange (started sig rfl), calls⟩
    · exact ⟨follows.seePinsChange (started sig rfl), calls⟩

lemma tick_follows (fits : time < 2 ^ 64) {events : List (Option Signal)}
    (started : ∀ sig, some sig ∈ events → sig.isClock → sig.value ≤ time)
    (follows : Follows mixin (time - 1) ∨ Follows mixin time) :
    Follows (mixin.tick time events) time ∧
      (mixin.tick time events).currentSignal = events.foldl (fun sig event => event.getD sig) mixin.currentSignal ∧
      (mixin.tick time events).calls =
        mixin.calls ++ changes time mixin.currentSignal mixin.currentValue events := by
  induction events generalizing mixin with
  | nil =>
    obtain ⟨last, calls⟩ := act_follows fits none nofun follows
    exact ⟨last, act_currentSignal mixin time none, calls⟩
  | cons event events ih =>
    obtain ⟨told, call⟩ :=
      act_follows fits event (fun sig same => started sig (by simp [Option.mem_def.mp same])) follows
    obtain ⟨last, signal, calls⟩ := ih (fun sig mem => started sig (List.mem_cons_of_mem _ mem)) (.inr told)
    have value := told.value
    rw [act_currentSignal] at value signal
    refine ⟨last, signal, calls.trans ?_⟩
    rw [call, act_currentSignal, value, changes, List.append_assoc]

lemma ran_follows {events : Nat → List (Option Signal)}
    (started : ∀ t sig, some sig ∈ events t → sig.isClock → sig.value ≤ t) (t : Nat) (fits : t ≤ 2 ^ 64) :
    Follows (ran events t) (t - 1) ∧ (ran events t).currentSignal = inForce events t := by
  induction t with
  | zero => exact ⟨⟨rfl, rfl, nofun, rfl⟩, rfl⟩
  | succ t ih =>
    obtain ⟨follows, signal⟩ := ih (by omega)
    obtain ⟨next, last, -⟩ := tick_follows (by omega) (started t) (.inl follows)
    exact ⟨next, by rw [inForce, ← signal]; exact last⟩

/-- It is called once for each signal and each edge at which the value is another one than before, and is never removed
from the queue if it is not in it. At a time at which no signal comes, or one before it is run, there is a call if the
value is another one than just before the time. -/
theorem calls_follow (events : Nat → List (Option Signal))
    (started : ∀ t sig, some sig ∈ events t → sig.isClock → sig.value ≤ t) (t : Nat) (fits : t < 2 ^ 64) :
    (ran events (t + 1)).misused = false ∧
      (ran events (t + 1)).calls = (ran events t).calls ++ changes t (inForce events t) (level events t) (events t) ∧
      ((events t = [] ∨ ∃ sig, events t = [some sig]) →
        (ran events (t + 1)).calls = (ran events t).calls ++ callsOf t (level events t) (level events (t + 1))) := by
  obtain ⟨follows, signal⟩ := ran_follows started t (by omega)
  obtain ⟨next, -, calls⟩ := tick_follows fits (started t) (.inl follows)
  rw [follows.value, signal, ← level] at calls
  refine ⟨next.used, calls, fun few => calls.trans (congrArg _ ?_)⟩
  rcases few with quiet | ⟨sig, single⟩
  · simp only [level, inForce, quiet, List.foldl_nil, changes, Nat.add_sub_cancel]
  · simp only [level, inForce, single, List.foldl_cons, List.foldl_nil, Option.getD_some, changes, Nat.add_sub_cancel]
    rw [callsOf, callsOf, if_pos rfl, List.append_nil]

/-- A clock that comes at time 0, with edges every other tick. -/
def clocked : Nat → List (Option Signal) := fun t => if t = 0 then [some ⟨2, 0⟩] else []

theorem clocked_calls : (ran clocked 3).calls = (ran clocked 2).calls ++ [(2, 1)] := by
  have edge : callsOf 2 (level clocked 2) (level clocked 3) = [(2, 1)] := by decide
  have started (t : Nat) (sig : Signal) (mem : some sig ∈ clocked t) : sig.isClock → sig.value ≤ t := by
    unfold clocked at mem
    grind
  exact edge ▸ (calls_follow clocked started 2 (by decide)).2.2 (.inl rfl)

/-- Two signals at one time. -/
def glitch : Nat → List (Option Signal) := fun t => if t = 0 then [some ⟨0, 1⟩, some ⟨0, 0⟩] else []

/-- The value is the same before and after, but there are two calls. -/
theorem glitch_called : level glitch 1 = level glitch 0 ∧ (ran glitch 1).calls = [(0, 1), (0, 0)] := by decide

end PortHandleClockMixin

end Axe
