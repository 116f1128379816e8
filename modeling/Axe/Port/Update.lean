import Axe.Port.Edges

/-! `Port::update`: all edges but the last are skipped where the port is in a state that
they do not change, with their effect on the counters computed in one go. -/

namespace Axe.Port

open Edge (EdgeType)

section

variable (port : Port)

def fallingEdges (numEdges : Nat) : Nat :=
  (numEdges + if port.nextEdge.type = .falling then 1 else 0) / 2

def samplingEdges (numEdges : Nat) : Nat :=
  (numEdges + if port.nextEdge.type = port.samplingEdge then 1 else 0) / 2

def updatePortCounter (numEdges : Nat) : Port :=
  { port with portCounter := (port.portCounter + port.fallingEdges numEdges) % 2 ^ 16 }

def updateInputValidShiftRegEntries (numEdges : Nat) : Port :=
  { port with
    validShiftRegEntries := (port.validShiftRegEntries + port.samplingEdges numEdges) % port.shiftRegEntries }

def fallingEdgesUntilTimeMet : Nat := (port.timeReg + 2 ^ 16 - (port.portCounter + 1) % 2 ^ 16) % 2 ^ 16 + 1

def edgesUntilTimeMet : Nat :=
  if port.nextEdge.type = .falling then port.fallingEdgesUntilTimeMet * 2 - 1
  else port.fallingEdgesUntilTimeMet * 2

def skipTo (newTime numEdges : Nat) : Port :=
  { port with nextEdge := port.nextEdge.add numEdges, time := newTime }

/-- The loop of `computeSteadyStateInputShiftReg`; it halves the width in each round. -/
def repeatValue : Nat → Nat → Nat → Nat → Nat
  | 0, _, _, val => val
  | rounds + 1, width, shift, val =>
    if 1 < width then repeatValue rounds (width / 2) (shift * 2) ((val <<< shift) % 2 ^ 32 ||| val) else val

def computeSteadyStateInputShiftReg : Nat :=
  repeatValue port.shiftRegEntries port.shiftRegEntries port.width port.pinsValue &&& makeMask port.transferWidth

end

section

variable (env : PortEnv)

/-- `while (goesOn) { seeEdge(nextEdge++); if (--numEdges == 0) return; }`, with the edges
that are left; none are left when it returns. -/
def seeEdgesWhile (goesOn : Port → Bool) : Nat → Port → Port × Nat
  | 0, port => (port, 0)
  | numEdges + 1, port =>
    if goesOn port then seeEdgesWhile goesOn numEdges (port.seeNextEdge env) else (port, numEdges + 1)

def andThen (result : Port × Nat) (rest : Port → Nat → Port) : Port :=
  if result.2 = 0 then result.1 else rest result.1 result.2

def draining (port : Port) : Bool :=
  port.validShiftRegEntries ≠ 0 || port.portShiftCount ≠ port.shiftRegEntries

def skipNotReady (newTime : Nat) (port : Port) (numEdges : Nat) : Port :=
  let port :=
    if port.timeRegValid && decide (port.fallingEdgesUntilTimeMet ≤ numEdges) &&
        (port.outputPort || port.useReadyOut) then
      { port with timeRegValid := false, validShiftRegEntries := 0 }
    else port
  (port.updatePortCounter numEdges).skipTo newTime numEdges

def skipCounting (newTime : Nat) (port : Port) (numEdges : Nat) : Port :=
  (port.updatePortCounter numEdges).skipTo newTime numEdges

/-- Skip to the last edge before the one at which the port time is met. -/
def skipToTime (port : Port) : Port :=
  let skipped := port.edgesUntilTimeMet - 1
  { port.updatePortCounter skipped with nextEdge := port.nextEdge.add skipped }

def skipDrained (newTime : Nat) (port : Port) (numEdges : Nat) : Port :=
  if !port.timeRegValid then skipCounting newTime port numEdges
  else if port.fallingEdges numEdges < port.fallingEdgesUntilTimeMet then skipCounting newTime port numEdges
  else
    andThen (seeEdgesWhile env (·.timeRegValid) (numEdges - (port.edgesUntilTimeMet - 1)) port.skipToTime)
      fun port numEdges => andThen (seeEdgesWhile env draining numEdges port) (skipCounting newTime)

def skipOutput (newTime : Nat) (port : Port) (numEdges : Nat) : Port :=
  andThen (seeEdgesWhile env draining numEdges port) (skipDrained env newTime)

def unsettled (steadyStateShiftReg : Nat) (port : Port) : Bool :=
  port.shiftReg ≠ steadyStateShiftReg || port.portShiftCount ≠ port.shiftRegEntries

def unfilled (port : Port) : Bool := !port.transferRegValid || port.portShiftCount ≠ port.shiftRegEntries

def skipInputReadyOut (newTime : Nat) (port : Port) (numEdges : Nat) : Port :=
  let steadyStateShiftReg := port.computeSteadyStateInputShiftReg
  if !port.valueMeetsCondition port.pinsValue then
    andThen (seeEdgesWhile env (unsettled steadyStateShiftReg) numEdges port) fun port numEdges =>
      ((port.updatePortCounter numEdges).updateInputValidShiftRegEntries numEdges).skipTo newTime numEdges
  else
    andThen (seeEdgesWhile env (·.condition ≠ .full) numEdges port) fun port numEdges =>
      andThen (seeEdgesWhile env unfilled numEdges port) (skipCounting newTime)

def unsteady (steadyStateShiftReg : Nat) (port : Port) : Bool :=
  !port.transferRegValid || unsettled steadyStateShiftReg port || port.transferReg ≠ steadyStateShiftReg

def skipInputPlain (newTime : Nat) (port : Port) (numEdges : Nat) : Port :=
  let steadyStateShiftReg := port.computeSteadyStateInputShiftReg
  andThen (seeEdgesWhile env (unsteady steadyStateShiftReg) numEdges port) fun port numEdges =>
    ((port.updatePortCounter numEdges).updateInputValidShiftRegEntries numEdges).skipTo newTime numEdges

def skipInputUntimed (newTime : Nat) (port : Port) (numEdges : Nat) : Port :=
  if port.useReadyOut then skipInputReadyOut env newTime port numEdges else skipInputPlain env newTime port numEdges

def skipInputTimed (newTime : Nat) (port : Port) (numEdges : Nat) : Port :=
  if port.fallingEdges numEdges < port.fallingEdgesUntilTimeMet then skipCounting newTime port numEdges
  else
    andThen (seeEdgesWhile env (·.timeRegValid) (numEdges - (port.edgesUntilTimeMet - 1)) port.skipToTime)
      (skipInputUntimed env newTime)

def skipInput (newTime : Nat) (port : Port) (numEdges : Nat) : Port :=
  if port.pinsInputValue.isClock then port.updateSlow env newTime
  else if port.timeRegValid then
    let calm :=
      if port.useReadyOut then (port, numEdges)
      else seeEdgesWhile env (unsettled port.computeSteadyStateInputShiftReg) numEdges port
    andThen calm (skipInputTimed env newTime)
  else skipInputUntimed env newTime port numEdges

def readyInChanged (port : Port) : Bool := port.readyIn.toNat ≠ env.readyInValue.getValue port.time

def skipLatched (newTime : Nat) (port : Port) (numEdges : Nat) : Port :=
  if port.useReadyIn && !port.readyIn then skipNotReady newTime port numEdges
  else if port.outputPort then skipOutput env newTime port numEdges
  else skipInput env newTime port numEdges

def updateNoExternalChange (port : Port) (numEdges : Nat) : Port :=
  if numEdges = 0 then port
  else
    let newTime := (port.nextEdge.add (numEdges - 1)).time
    if port.useReadyIn && env.readyInValue.isClock then port.updateSlow env newTime
    else
      let calm :=
        if port.useReadyIn then seeEdgesWhile env (readyInChanged env) numEdges port else (port, numEdges)
      andThen calm (skipLatched env newTime)

def update (newTime : Nat) (port : Port) : Port :=
  if !env.isFixedFrequency || !port.inUse || port.portType ≠ .dataPort then { port with time := newTime }
  else if newTime < (port.nextEdge.add 2).time then port.updateSlow env newTime
  else
    let numEdges := (env.clock.getEdgeIterator newTime).sub port.nextEdge % 2 ^ 32
    { (updateNoExternalChange env port ((numEdges + 2 ^ 32 - 1) % 2 ^ 32)).seeNextEdge env with time := newTime }

end

end Axe.Port
