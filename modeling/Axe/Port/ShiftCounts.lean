import Axe.Port.Entries

/-! The shift count of a buffered input port. A sample fills the shift register when the number
of entries is the shift count, which is tested for equality only; so it matters that the
operations never set a count that has been passed. -/

namespace Axe

open Edge (EdgeType)

namespace Port

section

structure ClockEdge where
  env : PortEnv
  type : EdgeType
  time : Nat
  deriving DecidableEq, Repr

def seeClockEdge (port : Port) (edge : ClockEdge) : Port := port.seeEdge edge.env edge.type edge.time

/-- Readiness permits a sample at each sampling edge, and none of them fills the shift register. -/
def SamplesUnfilled (port : Port) (edge : ClockEdge) : Prop :=
  edge.type = port.samplingEdge →
    ((port.beforeSampling edge.type edge.time).latchReadyIn edge.env).samples = true ∧
      fills edge.env ((port.beforeSampling edge.type edge.time).latchReadyIn edge.env) = false

/-- While readiness permits sampling, fewer sampling edges pass than the port counts to before one at which the
shift register is transferred or found full. -/
def FillsInTime (port : Port) : Prop :=
  ∀ edges : List ClockEdge, Runs.Meets seeClockEdge SamplesUnfilled port edges →
    edges.countP (fun edge => decide (edge.type = port.samplingEdge)) < port.portShiftCount

variable {port : Port}

/-- The entries that go on being counted: when the port time is met, ready out starts with none. -/
def collected (port : Port) : Nat := if port.useReadyOut && port.timeRegValid then 0 else port.validShiftRegEntries

lemma collected_le (port : Port) : port.collected ≤ port.validShiftRegEntries := by
  unfold collected
  split <;> omega

lemma beforeSampling_collected (input : port.outputPort = false) (type : EdgeType) (now : Nat)
    (less : port.validShiftRegEntries < port.portShiftCount) : (port.beforeSampling type now).outputPort = false ∧
      (port.beforeSampling type now).portShiftCount = port.portShiftCount ∧
      (port.beforeSampling type now).validShiftRegEntries < port.portShiftCount ∧
      (port.beforeSampling type now).collected = port.collected := by
  have readyMode := useReadyOut_congr (beforeSampling_settings port type now)
  unfold collected
  rw [readyMode]
  unfold beforeSampling
  split
  · obtain ⟨input, count, es⟩ := seeFallingEdge_entries { port with time := now } input
    refine ⟨input, count, ?_⟩
    rcases es with ⟨es, timed⟩ | ⟨⟨ready, timed⟩, es⟩
    · rw [es, timed]
      exact ⟨less, rfl⟩
    · have ready : port.useReadyOut = true := ready
      have timed : port.timeRegValid = true := timed
      rw [es, ready, timed]
      refine ⟨by omega, ?_⟩
      simp
  · exact ⟨input, rfl, less, rfl⟩

lemma realign_timeRegValid (env : PortEnv) (port : Port) (untimed : port.timeRegValid = false) :
    (port.realign env).timeRegValid = false := by
  unfold realign
  split
  · rfl
  · split
    · rfl
    · exact untimed

lemma unfilled_collected {env : PortEnv} (samples : port.samples = true) (unfilled : port.fills env = false) :
    (port.seeSamplingEdge env).portShiftCount = port.portShiftCount ∧
      (port.seeSamplingEdge env).validShiftRegEntries = port.validShiftRegEntries + 1 ∧
      (port.seeSamplingEdge env).validShiftRegEntries ≠ port.portShiftCount ∧
      (port.seeSamplingEdge env).collected = port.collected + 1 := by
  have ne : ¬ (port.shiftIn.realign env).validShiftRegEntries = (port.shiftIn.realign env).portShiftCount := by
    simpa [fills] using unfilled
  have count : (port.shiftIn.realign env).portShiftCount = port.portShiftCount := realign_shiftCount env port.shiftIn
  have es : (port.shiftIn.realign env).validShiftRegEntries = port.validShiftRegEntries + 1 :=
    (realign_entries env port.shiftIn).resolve_right ne
  have seen : port.seeSamplingEdge env = port.shiftIn.realign env := by
    rw [seeSamplingEdge_eq, if_pos samples]
    unfold captureIfFull
    rw [if_neg]
    simp [ne]
  rw [seen]
  refine ⟨count, es, by rwa [← count], ?_⟩
  have readyMode : (port.shiftIn.realign env).useReadyOut = port.useReadyOut :=
    useReadyOut_congr (realign_settings env port.shiftIn)
  unfold collected
  rw [readyMode, es]
  cases ready : port.useReadyOut with
  | false => simp
  | true =>
    have untimed : port.timeRegValid = false := by
      cases timed : port.timeRegValid with
      | false => rfl
      | true => simp [Port.samples, ready, timed] at samples
    have untimedAfter := realign_timeRegValid env port.shiftIn untimed
    simp [untimed, untimedAfter]

lemma SamplesUnfilled.collected {edge : ClockEdge} (unfilled : port.SamplesUnfilled edge)
    (dp : port.portType = .dataPort) (input : port.outputPort = false)
    (less : port.validShiftRegEntries < port.portShiftCount) : (port.seeClockEdge edge).outputPort = false ∧
      (port.seeClockEdge edge).portShiftCount = port.portShiftCount ∧
      (port.seeClockEdge edge).validShiftRegEntries < port.portShiftCount ∧ (port.seeClockEdge edge).collected =
        port.collected + if edge.type = port.samplingEdge then 1 else 0 := by
  obtain ⟨inputThen, countThen, lessThen, collectedThen⟩ :=
    beforeSampling_collected input edge.type edge.time less
  unfold seeClockEdge
  rw [seeEdge_eq dp]
  by_cases sampling : edge.type = port.samplingEdge
  · rw [if_pos sampling, if_pos sampling]
    obtain ⟨samples, notFilled⟩ := unfilled sampling
    obtain ⟨count, es, ne, collectedAfter⟩ := unfilled_collected samples notFilled
    have count := count.trans countThen
    have es : _ = (port.beforeSampling edge.type edge.time).validShiftRegEntries + 1 := es
    have ne : _ ≠ (port.beforeSampling edge.type edge.time).portShiftCount := ne
    refine ⟨(seeSamplingEdge_outputPort _ _).trans inputThen, count, by omega, ?_⟩
    rw [collectedAfter, ← collectedThen]
    rfl
  · rw [if_neg sampling, if_neg sampling]
    exact ⟨inputThen, countThen, lessThen, collectedThen⟩

lemma fillsInTime (dp : port.portType = .dataPort) (input : port.outputPort = false)
    (less : port.validShiftRegEntries < port.portShiftCount) : port.FillsInTime := by
  intro edges unfilled
  -- With every sampling edge seen one more entry has been collected.
  suffices bound : edges.countP (fun edge => decide (edge.type = port.samplingEdge)) + port.collected <
      port.portShiftCount by omega
  induction edges generalizing port with
  | nil =>
    have collected := collected_le port
    simp only [List.countP_nil]
    omega
  | cons edge edges ih =>
    obtain ⟨first, rest⟩ := unfilled
    obtain ⟨inputAfter, count, lessAfter, collectedAfter⟩ := first.collected dp input less
    have cfg : (port.seeClockEdge edge).toPortSettings = port.toPortSettings := seeEdge_settings _ _ _ _
    have samp : (port.seeClockEdge edge).samplingEdge = port.samplingEdge :=
      congrArg PortSettings.samplingEdge cfg
    have dataPortAfter : (port.seeClockEdge edge).portType = .dataPort :=
      (congrArg PortSettings.portType cfg).trans dp
    rw [← count] at lessAfter
    have later := ih dataPortAfter inputAfter lessAfter rest
    rw [samp, collectedAfter, count] at later
    rw [List.countP_cons]
    simp only [decide_eq_true_eq]
    omega

end

section

inductive InputOperation where
  | inWord
  | inpw (w : Nat)
  | setpsc (w : Nat)
  | endin
  | clearBuf
  deriving DecidableEq, Repr

def InputOperation.operation : InputOperation → Operation
  | inWord => .inWord
  | inpw w => .inpw w
  | setpsc w => .setpsc w
  | endin => .endin
  | clearBuf => .clearBuf

/-- A shift count that is set is not below the number of entries there are. -/
def CountFits (port : Port) : InputOperation → Prop
  | .inpw w => port.isValidPortShiftCount w = true → port.timeAndConditionMet = false →
      port.validShiftRegEntries ≤ w / port.width
  | .setpsc w => port.isValidPortShiftCount w = true → port.validShiftRegEntries ≤ w / port.width
  | _ => True

instance (port : Port) (op : InputOperation) : Decidable (CountFits port op) := by
  cases op <;> unfold CountFits <;> infer_instance

variable {port : Port}

lemma BufferedInput.nextTransferReg (kept : port.BufferedInput) {es : Nat}
    (most : es ≤ port.shiftRegEntries) : (port.nextTransferReg es).BufferedInput := by
  have sized := kept.sized.nextTransferReg es
  unfold Port.nextTransferReg at sized ⊢
  by_cases full : port.validShiftRegEntries = port.portShiftCount
  · rw [if_pos full] at sized ⊢
    exact { kept with sized := sized, most := most }
  · rw [if_neg full] at sized ⊢
    exact { kept with sized := sized, most := kept.most }

/-- The operations of an input keep the entries within the count, given a count that fits. -/
lemma BufferedInput.perform (kept : port.BufferedInput) (env : PortEnv) (t time : Nat) {op : InputOperation}
    (fits : CountFits port op) : (port.perform env t time op.operation).port.BufferedInput := by
  have paused : { port with pausedIn := some t }.BufferedInput := { kept with sized := kept.sized.same rfl rfl }
  have acc {w : Nat} (ok : ¬ (!port.buffered || !port.isValidPortShiftCount w) = true)
      (most : port.validShiftRegEntries ≤ w / port.width) :
      { port with portShiftCount := w / port.width }.BufferedInput :=
    { kept with sized := kept.sized.valid (valid_of_accepted ok) rfl rfl, most := most }
  cases op with
  | inWord =>
    simp only [InputOperation.operation, Port.perform, Port.inWord]
    rw [if_neg (by simp [kept.dataPort]), if_neg (by simp [kept.input])]
    split
    · exact kept.nextTransferReg (Nat.zero_le _)
    · exact paused
  | inpw w =>
    simp only [InputOperation.operation, Port.perform, Port.inpw]
    split
    · exact kept
    · rename_i ok
      rw [if_neg (by simp [kept.dataPort]), if_neg (by simp [kept.input])]
      split
      · exact kept.nextTransferReg (Nat.le_trans kept.most kept.sized.shiftCount.2)
      · rename_i waits
        have cnt := acc ok (fits (valid_of_accepted ok) (Bool.eq_false_iff.mpr waits))
        exact { cnt with sized := cnt.sized.same rfl rfl }
  | setpsc w =>
    simp only [InputOperation.operation, Port.perform, Port.setpsc]
    split
    · exact kept
    · rename_i ok
      rw [if_neg (by simp [kept.dataPort]), if_neg (by simp [kept.input])]
      exact acc ok (fits (valid_of_accepted ok))
  | endin =>
    have sized : port.endin.port.Sized :=
      kept.sized.endin_iff.mpr fun _ _ _ _ => Nat.le_trans kept.most kept.sized.shiftCount.2
    simp only [InputOperation.operation, Port.perform]
    unfold Port.endin at sized ⊢
    rw [if_neg (by simp [kept.input, kept.buffered]), if_neg (by simp [kept.dataPort])] at sized ⊢
    by_cases loaded : port.transferRegValid = true
    · rw [if_pos loaded] at sized ⊢
      by_cases some : port.validShiftRegEntries ≠ 0
      · -- The entries there are become the count, so that the next sample passes it.
        simp only [if_pos some] at sized ⊢
        exact { kept with sized := sized, most := Nat.le_refl _ }
      · simp only [if_neg some]
        exact kept
    · rw [if_neg loaded] at sized ⊢
      exact { kept with sized := sized, most := Nat.zero_le _ }
  | clearBuf =>
    have clr : { port with
        transferRegValid := false, holdTransferReg := false, validShiftRegEntries := 0 }.BufferedInput :=
      { kept with sized := kept.sized.same rfl rfl, most := Nat.zero_le _ }
    simp only [InputOperation.operation, Port.perform, Port.clearBuf, Port.clearReadyOut]
    split
    · exact clr
    · exact { clr with sized := clr.sized.same rfl rfl }

end

end Port

/-- What a port sees of its surroundings besides its clock. -/
structure Surroundings where
  readyInValue : Signal
  eventsPermitted : Bool
  deriving DecidableEq, Repr

/-- A port with the clock that it keeps. The edges of a clock without a fixed frequency are told to
the port as they happen, so that the type of the next one is what it has not had last. -/
structure ClockedPort where
  port : Port
  clock : Signal
  running : Bool
  nextType : EdgeType
  deriving DecidableEq, Repr

namespace ClockedPort

inductive InputStep where
  | operate (around : Surroundings) (t time : Nat) (op : Port.InputOperation)
  | update (around : Surroundings) (time : Nat)
  | seeEdge (around : Surroundings) (time : Nat)
  | seePinsChange (around : Surroundings) (value : Signal) (time : Nat)
  deriving DecidableEq, Repr

def env (st : ClockedPort) (around : Surroundings) : PortEnv where
  clock := st.clock
  running := st.running
  readyInValue := around.readyInValue
  eventsPermitted := around.eventsPermitted

/-- A clock block tells the edges of its source only while it runs and the source is not itself a clock. -/
def tellsEdges (st : ClockedPort) : Bool := st.running && !st.clock.isClock

def step (st : ClockedPort) : InputStep → ClockedPort
  | .operate around t time op =>
    { st with port := (st.port.operate (st.env around) t time op.operation).port }
  | .update around time => { st with port := st.port.update (st.env around) time }
  | .seeEdge around time =>
    if st.tellsEdges then
      { st with
        port := st.port.seeEdge (st.env around) st.nextType time
        nextType := Edge.flip st.nextType }
    else st
  | .seePinsChange around value time =>
    { st with port := st.port.seePinsChange (st.env around) value time }

/-- No edge finds the port exposed, and no shift count is set that has been passed. -/
def StepFits (st : ClockedPort) : InputStep → Prop
  | .operate around _ time op =>
    Port.EdgesFit (st.env around) st.port time ∧ Port.CountFits (st.port.update (st.env around) time) op
  | .update around time => Port.EdgesFit (st.env around) st.port time
  | .seeEdge _ _ => st.tellsEdges = true → ¬ st.port.Exposed st.nextType
  | .seePinsChange around _ time => Port.EdgesFit (st.env around) st.port time

instance (st : ClockedPort) (label : InputStep) : Decidable (st.StepFits label) := by
  cases label <;> unfold StepFits <;> infer_instance

section

variable {st : ClockedPort}

lemma bufferedInput_step (kept : st.port.BufferedInput) (label : InputStep) (fits : st.StepFits label) :
    (st.step label).port.BufferedInput := by
  cases label with
  | operate around t time op =>
    obtain ⟨edges, cnt⟩ := fits
    have upd := kept.update edges
    have owned : ((st.port.update (st.env around) time).updateOwner t).BufferedInput :=
      { upd with sized := upd.sized.same rfl rfl }
    exact owned.perform (st.env around) t time cnt
  | update around time => exact kept.update fits
  | seeEdge around time =>
    unfold step
    dsimp only
    split
    · rename_i tells
      exact (kept.seeEdge (fits tells) time).1
    · exact kept
  | seePinsChange around value time =>
    have upd := kept.update fits
    exact { upd with sized := upd.sized.same rfl rfl }

/-- In every run in which no edge finds the port exposed and no shift count is set that has been passed, there are
never more entries than the port counts to; so the shift register is filled in time. -/
theorem entries_le_shiftCount (start : ClockedPort) (input : start.port.BufferedInput) (steps : List InputStep)
    (fits : Runs.Meets step StepFits start steps) : let port := (steps.foldl step start).port
    port.validShiftRegEntries ≤ port.portShiftCount ∧
      (port.validShiftRegEntries ≠ port.portShiftCount → port.FillsInTime) := by
  intro port
  have preserved (st : ClockedPort) (label : InputStep) : st.port.BufferedInput → st.StepFits label →
      (st.step label).port.BufferedInput := fun kept => bufferedInput_step kept label
  have kept : port.BufferedInput := Runs.Meets.invariant preserved fits input
  refine ⟨kept.most, fun ne => ?_⟩
  exact Port.fillsInTime kept.dataPort kept.input (Nat.lt_of_le_of_ne kept.most ne)

def byteInput : ClockedPort where
  port :=
    let onePin : Port := { width := 1 }
    let buffered := ((onePin.setCInUse Port.still 0 true 0).operate Port.still 0 0 (.setBuffered true)).port
    (buffered.operate Port.still 0 0 (.setTransferWidth 8)).port
  clock := {}
  running := true
  nextType := .rising

lemma bufferedInput_byteInput : byteInput.port.BufferedInput := by
  have sized : byteInput.port.Sized := by constructor <;> decide
  constructor <;> first | decide | exact sized

def ready : Surroundings := ⟨⟨0, 1⟩, false⟩

theorem entries_le_shiftCount_setpsc :
    let steps := [InputStep.seeEdge ready 1, .seeEdge ready 2, .operate ready 0 3 (.setpsc 2), .seeEdge ready 4,
      .operate ready 0 5 .endin, .operate ready 0 6 .inWord]
    let port := (steps.foldl step byteInput).port
    port.validShiftRegEntries ≤ port.portShiftCount ∧
      (port.validShiftRegEntries ≠ port.portShiftCount → port.FillsInTime) :=
  entries_le_shiftCount byteInput bufferedInput_byteInput _ (by decide)

/-- A shift count of one entry set after two samples: the port goes on sampling and never fills. -/
theorem shiftCount_passed : byteInput.port.BufferedInput ∧
      let steps := [InputStep.seeEdge ready 1, .seeEdge ready 2, .seeEdge ready 3, .operate ready 0 4 (.setpsc 1)]
      let port := (steps.foldl step byteInput).port
      ¬ port.validShiftRegEntries ≤ port.portShiftCount :=
  ⟨bufferedInput_byteInput, by decide⟩

end

end ClockedPort

end Axe
