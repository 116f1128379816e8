import Axe.Port.Update
import Mathlib.Logic.Relation

/-! The single changes that an edge of a port's clock is made of. What each of them keeps is
kept by the edge: most of the port's fields. -/

namespace Axe

open Edge (EdgeType)

namespace EdgeIterator

variable (edge : EdgeIterator)

@[simp] lemma add_zero : edge.add 0 = edge := by simp [add]

lemma flip_flip (type : EdgeType) : Edge.flip (Edge.flip type) = type := by cases type <;> rfl

lemma add_succ (n : Nat) : edge.add (n + 1) = (edge.add n).next := by
  unfold add next
  have parity : (n + 1) % 2 = 1 ↔ ¬ n % 2 = 1 := by omega
  by_cases odd : n % 2 = 1
  · simp [odd, parity, flip_flip, Nat.mul_add, Nat.add_assoc]
  · simp [odd, parity, Nat.mul_add, Nat.add_assoc]

end EdgeIterator

namespace Port

open Relation (ReflTransGen)

lemma kept_of_moves {move : Port → Port → Prop} (kept : Port → Prop)
    (step : ∀ port next, move port next → kept port → kept next) {port next : Port}
    (moves : ReflTransGen move port next) (pre : kept port) : kept next := by
  induction moves with
  | refl => exact pre
  | tail _ move ih => exact step _ _ move ih

inductive FallingMove : Port → Port → Prop where
  | readyOut (port : Port) (value : Bool) :
    FallingMove port ({ port with readyOut := value }.call (.readyOut value port.time))
  | endTime (port : Port) : FallingMove port port.endTime
  | entries (port : Port) (entries : Nat) : FallingMove port { port with validShiftRegEntries := entries }
  | wakeSync (port : Port) (t : Nat) : FallingMove port ({ port with pausedSync := none }.call (.wake t port.time true))
  | wakeOut (port : Port) (t : Nat) : FallingMove port ({ port with pausedOut := none }.call (.wake t port.time false))
  | load (port : Port) : FallingMove port port.loadShiftReg
  | shift (port : Port) (shiftReg : Nat) (outputPort : Bool) :
    FallingMove port { port with shiftReg := shiftReg, outputPort := outputPort }
  | drive (port : Port) (value : Nat) : FallingMove port (port.call (.outputValue value port.time))

inductive SamplingMove : Port → Port → Prop where
  | shiftIn (port : Port) : SamplingMove port port.shiftIn
  | realign (port : Port) (condition : Condition) :
    SamplingMove port
      { port with
        validShiftRegEntries := port.portShiftCount
        transferRegValid := false
        timeRegValid := false
        condition := condition }
  | untimed (port : Port) : SamplingMove port { port with timeRegValid := false }
  | empty (port : Port) : SamplingMove port { port with validShiftRegEntries := 0 }
  | fill (port : Port) : SamplingMove port port.fillTransferReg
  | wakeIn (port : Port) (t : Nat) : SamplingMove port ({ port with pausedIn := none }.call (.wake t port.time false))
  | raise (port : Port) : SamplingMove port (port.call (.event port.time))

section

variable (env : PortEnv) (port : Port)

lemma updateReadyOut_eq :
    ∃ calls, port.updateReadyOut = { port with readyOut := port.computeReadyOut, calls := calls } := by
  unfold updateReadyOut
  dsimp only
  split
  · exact ⟨port.calls, by simp [*]⟩
  · exact ⟨_, rfl⟩

lemma updateReadyOut_moves : ReflTransGen FallingMove port port.updateReadyOut := by
  unfold updateReadyOut
  dsimp only
  split
  · exact .refl
  · exact .single (.readyOut port _)

lemma wakeSync_moves : ReflTransGen FallingMove port port.wakeSync := by
  unfold wakeSync
  split
  · exact .refl
  · split
    · exact .refl
    · exact .single (.wakeSync port _)

lemma shiftedOut_moves (nextOutputPort : Bool) :
    ReflTransGen FallingMove port (port.shiftedOut nextOutputPort).port := by
  unfold shiftedOut
  split
  · refine .head (.load port) ?_
    unfold wakePausedOut
    split
    · exact .refl
    · exact .single (.wakeOut port.loadShiftReg _)
  · split <;> exact .refl

lemma shiftIfReady_moves (nextOutputPort : Bool) :
    ReflTransGen FallingMove port (port.shiftIfReady nextOutputPort).port := by
  unfold shiftIfReady
  split
  · unfold shiftOut
    dsimp only
    split
    · exact .single (.entries port _)
    · exact .head (.entries port 0) ((wakeSync_moves _).trans (shiftedOut_moves _ _))
  · exact .refl

lemma drive_moves (next : NextOutput) (pins : Nat) : ReflTransGen FallingMove next.port (next.drive pins) := by
  have shifted : FallingMove next.port next.result := .shift next.port _ _
  unfold NextOutput.drive
  split
  · exact (ReflTransGen.single shifted).tail (.drive next.result _)
  · exact .single shifted

lemma handleFallingEdge_moves : ReflTransGen FallingMove port port.handleFallingEdge := by
  unfold handleFallingEdge
  split
  · unfold seeFallingEdgeOutputPort
    split
    · exact .head (.endTime port) ((shiftIfReady_moves _ _).trans (drive_moves _ _))
    · exact (shiftIfReady_moves _ _).trans (drive_moves _ _)
  · split
    · exact .single (.endTime port)
    · exact .refl

lemma seeFallingEdge_moves : ReflTransGen FallingMove port.countFallingEdge port.seeFallingEdge :=
  (handleFallingEdge_moves _).trans (updateReadyOut_moves _)

lemma realign_moves : ReflTransGen SamplingMove port (port.realign env) := by
  unfold realign
  split
  · exact .single (.realign port _)
  · split
    · exact .single (.untimed port)
    · exact .refl

lemma announce_moves : ReflTransGen SamplingMove port (port.announce env) := by
  have woken (port : Port) : ReflTransGen SamplingMove port port.wakePausedIn := by
    unfold wakePausedIn
    split
    · exact .refl
    · exact .single (.wakeIn port _)
  unfold announce
  split
  · dsimp only
    split
    · exact .head (.untimed port) ((woken _).tail (.raise _))
    · exact .head (.untimed port) (woken _)
  · exact .refl

lemma seeSamplingEdge_moves : ReflTransGen SamplingMove port (port.seeSamplingEdge env) := by
  have sampled : ReflTransGen SamplingMove port (port.shiftIn.realign env) :=
    .head (.shiftIn port) (realign_moves env _)
  unfold seeSamplingEdge
  split
  · exact .refl
  · split
    · exact .refl
    · split
      · exact .refl
      · refine sampled.trans ?_
        unfold captureIfFull
        split
        · refine .head (.empty _) ?_
          unfold capture
          dsimp only
          split
          · exact .refl
          · exact .head (.fill _) (announce_moves env _)
        · exact .refl

end

section

variable (env : PortEnv) (port : Port)

def frame (port : Port) : PortSettings × EdgeIterator × Nat × Nat × Bool :=
  (port.toPortSettings, port.nextEdge, port.time, port.portCounter, port.readyIn)

def fallingFrame (port : Port) : (PortSettings × EdgeIterator × Nat × Nat × Bool) × Condition × Nat :=
  (port.frame, port.condition, port.transferReg)

lemma frame_of_fallingMoves {port next : Port} (moves : ReflTransGen FallingMove port next) :
    next.fallingFrame = port.fallingFrame :=
  kept_of_moves (·.fallingFrame = port.fallingFrame) (fun _ _ move same => by cases move <;> exact same) moves rfl

lemma seeFallingEdge_frame : port.seeFallingEdge.fallingFrame = port.countFallingEdge.fallingFrame :=
  frame_of_fallingMoves port.seeFallingEdge_moves

lemma seeSamplingEdge_frame : (port.seeSamplingEdge env).frame = port.frame :=
  kept_of_moves (·.frame = port.frame) (fun _ _ move same => by cases move <;> exact same)
    (seeSamplingEdge_moves env port) rfl

lemma seeSamplingEdge_outputPort : (port.seeSamplingEdge env).outputPort = port.outputPort :=
  kept_of_moves (·.outputPort = port.outputPort) (fun _ _ move same => by cases move <;> exact same)
    (seeSamplingEdge_moves env port) rfl

end

section

variable {env : PortEnv} {port : Port}

lemma useReadyOut_congr {other : Port} (cfg : other.toPortSettings = port.toPortSettings) :
    other.useReadyOut = port.useReadyOut := by
  unfold useReadyOut
  rw [cfg]

lemma handleFallingEdge_input (port : Port) (input : port.outputPort = false) :
    port.handleFallingEdge = if port.useReadyOut && port.timeReached then port.endTime else port :=
  if_neg (by simp [input])

/-- The effect of an edge that changes no more than the counters. -/
def tick (env : PortEnv) (port : Port) : Port :=
  { port with
    nextEdge := port.nextEdge.next
    time := port.nextEdge.time
    portCounter := if port.nextEdge.type = .falling then (port.portCounter + 1) % 2 ^ 16 else port.portCounter
    readyIn :=
      if port.nextEdge.type = port.samplingEdge then env.readyInValue.getValue port.nextEdge.time ≠ 0
      else port.readyIn }

def arrive (port : Port) : Port := { port with nextEdge := port.nextEdge.next, time := port.nextEdge.time }

def afterFalling (port : Port) : Port :=
  if port.nextEdge.type = .falling then port.arrive.seeFallingEdge else port.arrive

def counted (port : Port) : Port :=
  if port.nextEdge.type = .falling then port.arrive.countFallingEdge else port.arrive

lemma counted_eq (port : Port) : port.counted = { port with
    nextEdge := port.nextEdge.next
    time := port.nextEdge.time
    portCounter := if port.nextEdge.type = .falling then (port.portCounter + 1) % 2 ^ 16 else port.portCounter } := by
  unfold counted
  split <;> rfl

lemma afterFalling_frame (port : Port) : port.afterFalling.fallingFrame = port.counted.fallingFrame := by
  unfold afterFalling counted
  split
  · exact seeFallingEdge_frame _
  · rfl

lemma afterFalling_settings (port : Port) : port.afterFalling.toPortSettings = port.toPortSettings := by
  have frame := congrArg (fun frame => frame.1.1) port.afterFalling_frame
  rw [counted_eq] at frame
  exact frame

section

variable (dataPort : port.portType = .dataPort)
include dataPort

lemma seeNextEdge_eq : port.seeNextEdge env =
    if port.nextEdge.type = port.samplingEdge then (port.afterFalling.latchReadyIn env).seeSamplingEdge env
    else port.afterFalling := by
  have samp : port.afterFalling.samplingEdge = port.samplingEdge :=
    congrArg PortSettings.samplingEdge port.afterFalling_settings
  unfold seeNextEdge seeEdge
  simp only [dataPort, ne_eq, not_true, if_false]
  rw [← samp]
  rfl

lemma seeNextEdge_frame : (port.seeNextEdge env).frame = (port.tick env).frame := by
  have cnt := congrArg Prod.fst port.afterFalling_frame
  rw [counted_eq] at cnt
  dsimp only [fallingFrame] at cnt
  rw [seeNextEdge_eq dataPort]
  unfold tick
  split
  · rename_i samp
    have latched (there : Port) : (there.latchReadyIn env).frame =
      (there.frame.1, there.frame.2.1, there.frame.2.2.1, there.frame.2.2.2.1,
        decide (env.readyInValue.getValue there.frame.2.2.1 ≠ 0)) := rfl
    rw [seeSamplingEdge_frame, latched, cnt]
    simp [frame, samp]
  · exact cnt

variable (env) in
lemma seeNextEdge_settings : (port.seeNextEdge env).toPortSettings = port.toPortSettings :=
  congrArg Prod.fst (seeNextEdge_frame dataPort)

lemma seeNextEdge_nextEdge : (port.seeNextEdge env).nextEdge = port.nextEdge.next :=
  congrArg (fun frame => frame.2.1) (seeNextEdge_frame dataPort)

end

end

end Port

end Axe
