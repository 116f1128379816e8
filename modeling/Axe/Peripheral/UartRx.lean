import Mathlib.Data.List.Basic

/-! The UART receiver: changes of its pin start it, and it samples the pin in the middle of each bit. Times
are natural numbers, where the source counts ticks in 64 bits. -/

namespace Axe

open List

namespace UartRx

inductive State where
  | waitForHigh
  | waitForStart
  | checkStart
  | receive
  | checkParity
  | checkStop
  deriving DecidableEq, Repr

inductive Parity where
  | odd
  | even
  | none
  deriving DecidableEq, Repr

/-! The configuration that the constructor fixes. -/

def numDataBits : Nat := 8

def numStopBits : Nat := 1

def parity : Parity := .none

end UartRx

open UartRx

structure UartRx where
  bitTime : Nat
  currentPinValue : Bool := false
  state : State := .waitForHigh
  byteValid : Bool := false
  bitNumber : Nat := 0
  byte : BitVec 32 := 0
  /-- The time at which the scheduler runs it. -/
  wakeUp : Option Nat := none
  /-- The bytes written to standard output. -/
  output : List (BitVec 8) := []

namespace UartRx

variable (rx : UartRx) (time : Nat)

def scheduleUpdate : UartRx := { rx with wakeUp := some time }

def seePinsChange (value : Bool) : UartRx :=
  let rx := { rx with currentPinValue := value }
  match rx.state with
  | .waitForHigh => if value then { rx with state := .waitForStart } else rx
  | .waitForStart =>
    if value then rx else { rx with state := .checkStart }.scheduleUpdate (time + rx.bitTime / 2)
  | _ => rx

def computeParity : Bool :=
  ((List.range 32).foldl (fun value i => value ^^ rx.byte.getLsbD i) false) ^^ (parity == .odd)

def receiveByte : UartRx := { rx with output := rx.output ++ [rx.byte.setWidth 8] }

def run : UartRx :=
  match rx.state with
  | .receive =>
    let rx := { rx with byte := rx.byte ||| (if rx.currentPinValue then 1#32 else 0#32) <<< rx.bitNumber }
    let rx := { rx with bitNumber := rx.bitNumber + 1 }
    let rx :=
      if rx.bitNumber = numDataBits then
        { rx with state := if parity = .none then .checkStop else .checkParity, bitNumber := 0 }
      else rx
    rx.scheduleUpdate (time + rx.bitTime)
  | .checkParity =>
    { rx with byteValid := rx.currentPinValue == rx.computeParity, state := .checkStop }.scheduleUpdate
      (time + rx.bitTime)
  | .checkStop =>
    if rx.currentPinValue then
      let rx := { rx with bitNumber := rx.bitNumber + 1 }
      if rx.bitNumber = numStopBits then
        -- only the change of state depends on the parity
        (if rx.byteValid then { rx with state := .waitForStart } else rx).receiveByte
      else rx.scheduleUpdate (time + rx.bitTime)
    else { rx with state := .waitForHigh }
  | _ =>
    -- the assertion excludes the other states
    if rx.currentPinValue then { rx with state := .waitForStart }
    else
      { rx with state := .receive, bitNumber := 0, byte := 0, byteValid := true }.scheduleUpdate (time + rx.bitTime)

/-- The scheduler at one time. -/
def tick : UartRx :=
  if rx.wakeUp = some time then { rx with wakeUp := none }.run time else rx

/-- The scheduler from one time on, for some ticks. -/
def wait (rx : UartRx) (time : Nat) : Nat → UartRx
  | 0 => rx
  | duration + 1 => (rx.tick time).wait (time + 1) duration

/-- The pin is at one level for some time; it is reported if it changes. -/
def hold (at_ : UartRx × Nat) (segment : Bool × Nat) : UartRx × Nat :=
  let (rx, time) := at_
  let rx := if segment.1 = rx.currentPinValue then rx else rx.seePinsChange time segment.1
  (rx.wait time segment.2, time + segment.2)

/-- A start bit, the bits of the byte, a stop bit, and the line idle. -/
def frame (bitTime : Nat) (sent : BitVec 8 × Nat) : List (Bool × Nat) :=
  (false, bitTime) :: (List.range 8).map (fun i => (sent.1.getLsbD i, bitTime)) ++ [(true, bitTime), (true, sent.2)]

/-- What is received if the line is high for some time and then bytes are sent, each with the idle time after it. -/
def received (bitTime start idle : Nat) (sent : List (BitVec 8 × Nat)) : List (BitVec 8) :=
  (((true, idle) :: sent.flatMap (frame bitTime)).foldl hold ({ bitTime := bitTime }, start)).1.output

variable {rx} {time}

lemma wait_quiet {dur : Nat} (quiet : ∀ due, rx.wakeUp = some due → time + dur ≤ due) :
    rx.wait time dur = rx := by
  induction dur generalizing time with
  | zero => rfl
  | succ dur ih =>
    have early : rx.wakeUp ≠ some time := fun now => by have := quiet time now; omega
    rw [wait, tick, if_neg early]
    exact ih fun due scheduled => by have := quiet due scheduled; omega

/-- The only run in a stretch of time. -/
lemma wait_run {dur due : Nat} (scheduled : rx.wakeUp = some due) (after : time ≤ due)
    (before : due < time + dur)
    (later : ∀ next, ({ rx with wakeUp := none }.run due).wakeUp = some next → time + dur ≤ next) :
    rx.wait time dur = { rx with wakeUp := none }.run due := by
  induction dur generalizing time with
  | zero => omega
  | succ dur ih =>
    rw [wait, tick, scheduled]
    by_cases now : due = time
    · subst now
      rw [if_pos rfl]
      exact wait_quiet fun next again => by have := later next again; omega
    · rw [if_neg (by simpa using now)]
      exact ih (by omega) (by omega) fun next again => by have := later next again; omega

variable {bitTime : Nat} {pin valid : Bool} {number : Nat} {byte : BitVec 32} {out : List (BitVec 8)}

/-- A bit of a frame is sampled in its middle. -/
lemma hold_sampled (seen : UartRx) {next : UartRx} {level : Bool} (long : 2 ≤ bitTime)
    (sees : (if level = rx.currentPinValue then rx else rx.seePinsChange time level) = seen)
    (scheduled : seen.wakeUp = some (time + bitTime / 2))
    (run : { seen with wakeUp := none }.run (time + bitTime / 2) = next)
    (later : ∀ due, next.wakeUp = some due → time + bitTime ≤ due) :
    hold (rx, time) (level, bitTime) = (next, time + bitTime) := by
  subst run
  simp only [hold, sees]
  rw [wait_run scheduled (by omega) (by omega) later]

lemma hold_start (long : 2 ≤ bitTime) :
    hold (⟨bitTime, true, .waitForStart, valid, number, byte, none, out⟩, time) (false, bitTime) =
      (⟨bitTime, false, .receive, true, 0, 0#32, some (time + bitTime + bitTime / 2), out⟩, time + bitTime) := by
  rw [Nat.add_right_comm]
  exact hold_sampled _ long rfl rfl rfl fun due same => by cases same; omega

lemma hold_receive (long : 2 ≤ bitTime) (level : Bool) :
    hold (⟨bitTime, pin, .receive, true, number, byte, some (time + bitTime / 2), out⟩, time) (level, bitTime) =
      (⟨bitTime, level, if number + 1 = 8 then .checkStop else .receive, true,
        if number + 1 = 8 then 0 else number + 1, byte ||| (if level then 1#32 else 0#32) <<< number,
        some (time + bitTime + bitTime / 2), out⟩, time + bitTime) := by
  rw [Nat.add_right_comm]
  refine hold_sampled ⟨bitTime, level, .receive, true, number, byte, some (time + bitTime / 2), out⟩ long ?_ rfl ?_
    fun due same => by cases same; omega
  · cases pin <;> cases level <;> rfl
  · by_cases last : number + 1 = 8 <;> simp [run, numDataBits, parity, scheduleUpdate, last]

lemma hold_stop (long : 2 ≤ bitTime) :
    hold (⟨bitTime, pin, .checkStop, true, 0, byte, some (time + bitTime / 2), out⟩, time) (true, bitTime) =
      (⟨bitTime, true, .waitForStart, true, 1, byte, none, out ++ [byte.setWidth 8]⟩, time + bitTime) := by
  cases pin <;> exact hold_sampled _ long rfl rfl rfl fun _ same => by cases same

lemma hold_idle (idle : Nat) :
    hold (⟨bitTime, true, .waitForStart, valid, number, byte, none, out⟩, time) (true, idle) =
      (⟨bitTime, true, .waitForStart, valid, number, byte, none, out⟩, time + idle) := by
  simp only [hold, if_true]
  rw [wait_quiet (by simp)]

lemma byte_of_bits : ∀ value : BitVec 8, ((range 8).foldl (fun byte i =>
    byte ||| (if value.getLsbD i then 1#32 else 0#32) <<< i) 0#32).setWidth 8 = value := by
  decide +kernel

/-- Frame by frame, each byte comes out. -/
lemma hold_frame (long : 2 ≤ bitTime) (sent : BitVec 8 × Nat) : ∃ valid' number' byte' time',
    (frame bitTime sent).foldl hold (⟨bitTime, true, .waitForStart, valid, number, byte, none, out⟩, time) =
      (⟨bitTime, true, .waitForStart, valid', number', byte', none, out ++ [sent.1]⟩, time') := by
  obtain ⟨value, idle⟩ := sent
  have whole := byte_of_bits value
  simp only [frame, range_succ, range_zero, nil_append, cons_append, map_cons, map_nil,
    foldl_cons, foldl_nil] at whole ⊢
  simp only [hold_start long, hold_receive long, Nat.reduceAdd, Nat.reduceEqDiff, if_true, if_false, hold_stop long,
    hold_idle, whole]
  exact ⟨_, _, _, _, rfl⟩

/-- Every list of bytes comes out as it was sent. -/
theorem received_eq (long : 2 ≤ bitTime) (start idle : Nat) (sent : List (BitVec 8 × Nat)) :
    received bitTime start idle sent = sent.map Prod.fst := by
  have frames (sent : List (BitVec 8 × Nat)) : ∀ valid number byte out time,
      ((sent.flatMap (frame bitTime)).foldl hold
        (⟨bitTime, true, .waitForStart, valid, number, byte, none, out⟩, time)).1.output =
          out ++ sent.map Prod.fst := by
    induction sent with
    | nil => simp
    | cons byte rest ih =>
      intro valid number byte' out time
      obtain ⟨valid', number', byte'', time', next⟩ := hold_frame long byte
      rw [List.flatMap_cons, List.foldl_append, next, ih]
      simp
  have high : hold ({ bitTime := bitTime }, start) (true, idle) =
      (⟨bitTime, true, .waitForStart, false, 0, 0, none, []⟩, start + idle) := by
    simp [hold, seePinsChange, wait_quiet]
  rw [received, List.foldl_cons, high, frames, List.nil_append]

theorem received_back_to_back : received 2 0 1 [(0x55, 0), (0xff, 3)] = [0x55, 0xff] :=
  received_eq (by decide) 0 1 [(0x55, 0), (0xff, 3)]

end UartRx
end Axe
