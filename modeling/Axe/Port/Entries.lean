import Axe.Port.Widths

/-! The entries that the edges of its clock leave a buffered input port with. As long as an
edge finds room, or ready out low, it leaves no more entries than the port counts to. -/

namespace Axe

open Edge (EdgeType)

namespace Port

section

variable (env : PortEnv) {port : Port}

lemma updateReadyOut_fields (port : Port) : port.updateReadyOut.readyOut = port.computeReadyOut ∧
      port.updateReadyOut.validShiftRegEntries = port.validShiftRegEntries ∧
      port.updateReadyOut.portShiftCount = port.portShiftCount ∧
      port.updateReadyOut.outputPort = port.outputPort ∧ port.updateReadyOut.timeRegValid = port.timeRegValid := by
  obtain ⟨calls, upd⟩ := port.updateReadyOut_eq
  rw [upd]
  exact ⟨rfl, rfl, rfl, rfl, rfl⟩

lemma seeFallingEdge_useReadyOut (port : Port) : port.seeFallingEdge.useReadyOut = port.useReadyOut :=
  useReadyOut_congr (congrArg (fun frame => frame.1.1) port.seeFallingEdge_frame)

lemma seeFallingEdge_entries (port : Port) (input : port.outputPort = false) :
    port.seeFallingEdge.outputPort = false ∧ port.seeFallingEdge.portShiftCount = port.portShiftCount ∧
      (port.seeFallingEdge.validShiftRegEntries = port.validShiftRegEntries ∧
          port.seeFallingEdge.timeRegValid = port.timeRegValid ∨
        (port.useReadyOut = true ∧ port.timeRegValid = true) ∧ port.seeFallingEdge.validShiftRegEntries = 0) := by
  unfold seeFallingEdge
  obtain ⟨-, es, count, outputPort, timeRegValid⟩ :=
    updateReadyOut_fields port.countFallingEdge.handleFallingEdge
  rw [es, count, outputPort, timeRegValid, handleFallingEdge_input port.countFallingEdge input]
  split
  · rename_i ended
    simp only [timeReached, Bool.and_eq_true] at ended
    exact ⟨input, rfl, .inr ⟨⟨ended.1, ended.2.1⟩, rfl⟩⟩
  · exact ⟨input, rfl, .inl ⟨rfl, rfl⟩⟩

/-- There is room for another entry, or ready out is low until there is. -/
def Room (port : Port) : Prop :=
  port.validShiftRegEntries < port.portShiftCount ∨
    port.validShiftRegEntries = port.portShiftCount ∧ port.useReadyOut = true ∧ port.readyOut = false

lemma room_seeFallingEdge (input : port.outputPort = false) (some : 1 ≤ port.portShiftCount)
    (most : port.validShiftRegEntries ≤ port.portShiftCount)
    (full : port.validShiftRegEntries = port.portShiftCount → port.useReadyOut = true) : port.seeFallingEdge.Room := by
  unfold Room
  rw [seeFallingEdge_useReadyOut]
  unfold seeFallingEdge
  obtain ⟨readyOut, es, count, -⟩ := updateReadyOut_fields port.countFallingEdge.handleFallingEdge
  rw [readyOut, es, count, handleFallingEdge_input port.countFallingEdge input]
  split
  · exact .inl some
  · rename_i early
    rcases Nat.lt_or_eq_of_le most with less | equal
    · exact .inl less
    · have ready := full equal
      refine .inr ⟨equal, ready, ?_⟩
      have readyNow : port.countFallingEdge.useReadyOut = true := ready
      have inputNow : port.countFallingEdge.outputPort = false := input
      have equalNow : port.countFallingEdge.validShiftRegEntries = port.countFallingEdge.portShiftCount := equal
      simp only [readyNow, timeReached, Bool.true_and, Bool.and_eq_true, decide_eq_true_eq, not_and] at early
      unfold computeReadyOut
      rw [readyNow, inputNow]
      simp only [Bool.not_true, Bool.false_eq_true, if_false, equalNow]
      split
      · rename_i timed
        simp [Ne.symm (early timed)]
      · simp

def samples (port : Port) : Bool :=
  !port.outputPort && !(port.useReadyOut && (!port.readyOut || port.timeRegValid)) &&
    !(port.useReadyIn && !port.readyIn)

/-- Whether the sample makes the number of entries the shift count, so that the shift register is transferred or,
while the transfer register is full, found full. -/
def fills (port : Port) : Bool :=
  (port.shiftIn.realign env).validShiftRegEntries = (port.shiftIn.realign env).portShiftCount

variable (port) in
lemma seeSamplingEdge_eq : port.seeSamplingEdge env =
    if port.samples then (port.shiftIn.realign env).captureIfFull env else port := by
  unfold seeSamplingEdge samples
  cases port.outputPort <;> cases port.useReadyOut && (!port.readyOut || port.timeRegValid) <;>
    cases port.useReadyIn && !port.readyIn <;> rfl

variable (port) in
lemma announce_entries : (port.announce env).validShiftRegEntries = port.validShiftRegEntries := by
  have woken (port : Port) : port.wakePausedIn.validShiftRegEntries = port.validShiftRegEntries := by
    unfold wakePausedIn
    split <;> rfl
  unfold announce
  split
  · dsimp only
    split <;> exact woken { port with timeRegValid := false }
  · rfl

variable (port) in
lemma capture_entries : (port.capture env).validShiftRegEntries = 0 := by
  unfold capture
  dsimp only
  split
  · rfl
  · exact announce_entries env { port with validShiftRegEntries := 0 }.fillTransferReg

variable (port) in
lemma realign_entries : (port.realign env).validShiftRegEntries = port.validShiftRegEntries ∨
    (port.realign env).validShiftRegEntries = (port.realign env).portShiftCount := by
  unfold realign
  split
  · exact .inr rfl
  · split <;> exact .inl rfl

lemma captureIfFull_entries (some : 1 ≤ (port.captureIfFull env).portShiftCount)
    (most : port.validShiftRegEntries ≤ port.portShiftCount) :
    (port.captureIfFull env).validShiftRegEntries ≤ (port.captureIfFull env).portShiftCount ∧
      ((port.captureIfFull env).validShiftRegEntries = (port.captureIfFull env).portShiftCount →
        port.useReadyOut = true) := by
  unfold captureIfFull at some ⊢
  by_cases full : (decide (port.validShiftRegEntries = port.portShiftCount) &&
      (!port.useReadyOut || !port.transferRegValid || port.timeRegValid || decide (port.condition ≠ .full))) = true
  · rw [if_pos full] at some ⊢
    rw [capture_entries]
    exact ⟨Nat.zero_le _, fun none => absurd none (by omega)⟩
  · rw [if_neg full]
    refine ⟨most, fun equal => ?_⟩
    cases ready : port.useReadyOut with
    | true => rfl
    | false => simp [equal, ready] at full

/-- A sampling edge leaves at most as many entries as are counted to; as many only if ready out is in use. -/
lemma Room.seeSamplingEdge (room : port.Room) (sized : port.Sized) :
    (port.seeSamplingEdge env).validShiftRegEntries ≤ (port.seeSamplingEdge env).portShiftCount ∧
      ((port.seeSamplingEdge env).validShiftRegEntries = (port.seeSamplingEdge env).portShiftCount →
        port.useReadyOut = true) := by
  have some : 1 ≤ (port.seeSamplingEdge env).portShiftCount := by
    rcases seeSamplingEdge_countsOn env port with same | whole
    · rw [same]
      exact sized.shiftCount.1
    · rw [whole]
      exact sized.some
  rw [seeSamplingEdge_eq] at some ⊢
  by_cases samples : port.samples = true
  · rw [if_pos samples] at some ⊢
    have less : port.validShiftRegEntries < port.portShiftCount := by
      rcases room with less | ⟨-, ready, low⟩
      · exact less
      · simp [Port.samples, ready, low] at samples
    have most : (port.shiftIn.realign env).validShiftRegEntries ≤ (port.shiftIn.realign env).portShiftCount := by
      rcases realign_entries env port.shiftIn with same | whole
      · rw [same, realign_shiftCount]
        exact less
      · exact Nat.le_of_eq whole
    obtain ⟨le, full⟩ := captureIfFull_entries env some most
    exact ⟨le, fun equal => (useReadyOut_congr (realign_settings env port.shiftIn)).symm.trans (full equal)⟩
  · rw [if_neg samples] at some ⊢
    rcases room with less | ⟨equal, ready, -⟩
    · exact ⟨Nat.le_of_lt less, fun equal => absurd equal (Nat.ne_of_lt less)⟩
    · exact ⟨Nat.le_of_eq equal, fun _ => ready⟩

end

section

/-- A buffered input port whose sizes fit, with no more entries than it counts to. -/
structure BufferedInput (port : Port) : Prop where
  inUse : port.inUse = true
  dataPort : port.portType = .dataPort
  buffered : port.buffered = true
  input : port.outputPort = false
  sized : port.Sized
  most : port.validShiftRegEntries ≤ port.portShiftCount

/-- There are as many entries as the port counts to, and nothing keeps the next sampling edge
from taking another sample: ready out is not in use, or is high and not computed before. -/
def Exposed (port : Port) (next : EdgeType) : Prop :=
  port.validShiftRegEntries = port.portShiftCount ∧
    ¬ (port.useReadyOut = true ∧ (port.readyOut = true → next = .falling ∨ port.samplingEdge = .falling))
  deriving Decidable

variable {env : PortEnv} {port : Port} {type : EdgeType}

lemma covered_iff : ¬ port.Exposed type ↔ (port.validShiftRegEntries = port.portShiftCount →
    port.useReadyOut = true ∧ (port.readyOut = true → type = .falling ∨ port.samplingEdge = .falling)) := by
  unfold Exposed
  rw [not_and, not_not]

lemma BufferedInput.of_settings {next : Port} (kept : port.BufferedInput)
    (cfg : next.toPortSettings = port.toPortSettings) (input : next.outputPort = false) (sized : next.Sized)
    (most : next.validShiftRegEntries ≤ next.portShiftCount) : next.BufferedInput := by
  constructor
  case inUse => rw [cfg]; exact kept.inUse
  case dataPort => rw [cfg]; exact kept.dataPort
  case buffered => rw [cfg]; exact kept.buffered
  case input => exact input
  case sized => exact sized
  case most => exact most

def beforeSampling (type : EdgeType) (now : Nat) (port : Port) : Port :=
  if type = .falling then { port with time := now }.seeFallingEdge else { port with time := now }

variable (port type) in
lemma beforeSampling_settings (now : Nat) :
    (port.beforeSampling type now).toPortSettings = port.toPortSettings := by
  unfold beforeSampling
  split
  · exact congrArg (fun frame => frame.1.1) (seeFallingEdge_frame { port with time := now })
  · rfl

lemma seeEdge_eq (dp : port.portType = .dataPort) (now : Nat) : port.seeEdge env type now =
    if type = port.samplingEdge then ((port.beforeSampling type now).latchReadyIn env).seeSamplingEdge env
    else port.beforeSampling type now := by
  have samp : (port.beforeSampling type now).samplingEdge = port.samplingEdge :=
    congrArg PortSettings.samplingEdge (beforeSampling_settings port type now)
  unfold seeEdge
  simp only [dp, ne_eq, not_true, if_false]
  rw [← samp]
  rfl

lemma BufferedInput.room (kept : port.BufferedInput) (cov : ¬ port.Exposed type) (now : Nat)
    (samp : type = .falling ∨ type = port.samplingEdge) : (port.beforeSampling type now).Room := by
  rw [covered_iff] at cov
  unfold beforeSampling
  cases type with
  | falling =>
    rw [if_pos rfl]
    apply room_seeFallingEdge
    · exact kept.input
    · exact kept.sized.shiftCount.1
    · exact kept.most
    · exact fun full => (cov full).1
  | rising =>
    rw [if_neg (by decide)]
    have rising : EdgeType.rising = port.samplingEdge := samp.resolve_left (by decide)
    rcases Nat.lt_or_eq_of_le kept.most with less | equal
    · exact .inl less
    · obtain ⟨ready, early⟩ := cov equal
      refine .inr ⟨equal, ready, ?_⟩
      rw [← rising] at early
      simpa using early

lemma BufferedInput.beforeSampling (kept : port.BufferedInput) (type : EdgeType) (now : Nat) :
    (port.beforeSampling type now).BufferedInput := by
  have cfg := beforeSampling_settings port type now
  have same : (port.beforeSampling type now).sizes = port.sizes := by
    unfold sizes
    rw [cfg]
  unfold Port.beforeSampling at cfg same ⊢
  split at cfg
  · rename_i fall
    rw [if_pos fall] at same ⊢
    obtain ⟨input, count, es⟩ := seeFallingEdge_entries { port with time := now } kept.input
    apply kept.of_settings cfg input (kept.sized.same same count)
    rw [count]
    rcases es with ⟨es, -⟩ | ⟨-, es⟩
    · rw [es]
      exact kept.most
    · rw [es]
      exact Nat.zero_le _
  · rename_i rising
    rw [if_neg rising] at same ⊢
    exact kept.of_settings cfg kept.input (kept.sized.same same rfl) kept.most

/-- An edge of the clock keeps the entries within the count, and leaves the port covered until the next one. -/
lemma BufferedInput.seeEdge (kept : port.BufferedInput) (cov : ¬ port.Exposed type) (now : Nat) :
    (port.seeEdge env type now).BufferedInput ∧ ¬ (port.seeEdge env type now).Exposed (Edge.flip type) := by
  have cfg := seeEdge_settings env port type now
  have samp : (port.seeEdge env type now).samplingEdge = port.samplingEdge :=
    congrArg PortSettings.samplingEdge cfg
  have readyMode : (port.seeEdge env type now).useReadyOut = port.useReadyOut := useReadyOut_congr cfg
  have sized := kept.sized.seeEdge env type now
  have pre := kept.beforeSampling type now
  have sameMode : (port.beforeSampling type now).useReadyOut = port.useReadyOut :=
    useReadyOut_congr (beforeSampling_settings port type now)
  rw [covered_iff, readyMode, samp]
  rw [seeEdge_eq kept.dataPort] at cfg sized ⊢
  by_cases samples : type = port.samplingEdge
  · rw [if_pos samples] at cfg sized ⊢
    have room : ((port.beforeSampling type now).latchReadyIn env).Room := kept.room cov now (.inr samples)
    have latched : ((port.beforeSampling type now).latchReadyIn env).Sized := pre.sized.same rfl rfl
    obtain ⟨most, full⟩ := room.seeSamplingEdge env latched
    have input := (seeSamplingEdge_outputPort env ((port.beforeSampling type now).latchReadyIn env)).trans
      pre.input
    refine ⟨kept.of_settings cfg input sized most, fun equal => ⟨sameMode ▸ full equal, fun _ => ?_⟩⟩
    -- After a rising edge comes a falling one; a port that samples at falling edges computes ready out there first.
    rw [← samples]
    cases type with
    | rising => exact .inl rfl
    | falling => exact .inr rfl
  · rw [if_neg samples] at cfg sized ⊢
    refine ⟨pre, fun equal => ?_⟩
    cases type with
    | falling =>
      rcases kept.room cov now (.inl rfl) with less | ⟨-, ready, low⟩
      · exact absurd equal (Nat.ne_of_lt less)
      · exact ⟨sameMode ▸ ready, fun high => absurd (high.symm.trans low) (by decide)⟩
    | rising =>
      exact ⟨((covered_iff.mp cov) equal).1, fun _ => .inl rfl⟩

end

section

variable {env : PortEnv} {port : Port}

lemma BufferedInput.seeNextEdge (kept : port.BufferedInput) (env : PortEnv)
    (cov : ¬ port.Exposed port.nextEdge.type) : (port.seeNextEdge env).BufferedInput ∧
      ¬ (port.seeNextEdge env).Exposed (port.seeNextEdge env).nextEdge.type := by
  have moved : { port with nextEdge := port.nextEdge.next }.BufferedInput :=
    kept.of_settings rfl kept.input (kept.sized.same rfl rfl) kept.most
  rw [seeNextEdge_nextEdge kept.dataPort]
  exact moved.seeEdge cov port.nextEdge.time

lemma BufferedInput.updateSlow (kept : port.BufferedInput) (cov : ¬ port.Exposed port.nextEdge.type)
    (now : Nat) : (port.updateSlow env now).BufferedInput := by
  have loop (n : Nat) : (updateSlowLoop env now n port).BufferedInput := by
    induction n generalizing port with
    | zero => exact kept
    | succ n ih =>
      unfold updateSlowLoop
      split
      · obtain ⟨kept, cov⟩ := kept.seeNextEdge env cov
        exact ih kept cov
      · exact kept
  have looped := loop (now + 1 - port.nextEdge.time)
  exact looped.of_settings rfl looped.input (looped.sized.same rfl rfl) looped.most

/-- Without ready out it does not matter how the edges are passed: after each of them there is room. -/
lemma BufferedInput.update_plain (kept : port.BufferedInput) (cov : ¬ port.Exposed port.nextEdge.type)
    (plain : port.useReadyOut = false) (now : Nat) : (port.update env now).BufferedInput := by
  have passing : Passing env fun next => next.BufferedInput ∧ next.useReadyOut = false ∧
      next.validShiftRegEntries ≠ next.portShiftCount := by
    constructor
    case edge =>
      intro next ⟨kept, plain, room⟩
      have cov : ¬ next.Exposed next.nextEdge.type := fun seen => room seen.1
      obtain ⟨after, coveredAfter⟩ := kept.seeNextEdge env cov
      have plainAfter : (next.seeNextEdge env).useReadyOut = false :=
        (useReadyOut_congr (seeNextEdge_settings env kept.dataPort)).trans plain
      refine ⟨after, plainAfter, fun full => ?_⟩
      have ready := (covered_iff.mp coveredAfter full).1
      exact absurd (ready.symm.trans plainAfter) (by decide)
    case skip =>
      intro next _ _ _ ⟨kept, plain, room⟩
      exact ⟨kept.of_settings rfl kept.input (kept.sized.same rfl rfl) kept.most, plain, room⟩
    case endTime =>
      intro next ⟨kept, plain, room⟩
      have some := kept.sized.shiftCount.1
      refine ⟨kept.of_settings rfl kept.input (kept.sized.same rfl rfl) (Nat.zero_le _), plain, fun none => ?_⟩
      have none : 0 = next.portShiftCount := none
      omega
    case wrap =>
      intro next es ⟨kept, plain, room⟩ whole
      have below : es % next.shiftRegEntries < next.portShiftCount := by
        rw [whole]
        exact Nat.mod_lt _ kept.sized.some
      exact ⟨kept.of_settings rfl kept.input (kept.sized.same rfl rfl) (Nat.le_of_lt below), plain, Nat.ne_of_lt below⟩
  have room : port.validShiftRegEntries ≠ port.portShiftCount := by
    intro full
    have ready := (covered_iff.mp cov full).1
    exact absurd (ready.symm.trans plain) (by decide)
  exact (passing.update now ⟨kept, plain, room⟩).1

def due (env : PortEnv) (port : Port) (time : Nat) : Bool :=
  env.isFixedFrequency && decide (port.nextEdge.time ≤ time)

/-- The edges that are due find the port covered, and with ready out in use they are seen one by one. -/
def EdgesFit (env : PortEnv) (port : Port) (time : Nat) : Prop :=
  due env port time = true → ¬ port.Exposed port.nextEdge.type ∧
    (port.useReadyOut = true → time < (port.nextEdge.add 2).time)
  deriving Decidable

lemma update_notDue {time : Nat} (none : due env port time = false) :
    port.update env time = { port with time := time } := by
  unfold update
  split
  · rfl
  · rename_i clk
    simp only [Bool.or_eq_true, Bool.not_eq_true', not_or, Bool.not_eq_false] at clk
    have later : time < port.nextEdge.time := by
      simpa [due, clk.1.1] using none
    have early : time < (port.nextEdge.add 2).time := Nat.lt_of_lt_of_le later (Nat.le_add_right _ _)
    rw [if_pos early]
    unfold updateSlow
    rw [show time + 1 - port.nextEdge.time = 0 by omega]
    rfl

lemma BufferedInput.update (kept : port.BufferedInput) {time : Nat} (fits : EdgesFit env port time) :
    (port.update env time).BufferedInput := by
  cases due : due env port time with
  | false =>
    rw [update_notDue due]
    exact kept.of_settings rfl kept.input (kept.sized.same rfl rfl) kept.most
  | true =>
    obtain ⟨cov, early⟩ := fits due
    cases ready : port.useReadyOut with
    | false => exact kept.update_plain cov ready time
    | true =>
      have slow : port.update env time = port.updateSlow env time := by
        simp only [Port.due, Bool.and_eq_true] at due
        unfold Port.update
        simp [due.1, kept.inUse, kept.dataPort, early ready]
      rw [slow]
      exact kept.updateSlow cov time

end

end Port

end Axe
