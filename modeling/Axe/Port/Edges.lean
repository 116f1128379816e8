import Axe.Port.State

/-! What a port does at the edges of its clock, and how it catches up with the time:
edge by edge, or over many edges at once where nothing can be seen from outside. -/

namespace Axe.Port

open Edge (EdgeType)

section

variable (port : Port)

def nextShiftRegOutputPort (old : Nat) : Nat :=
  let repeatValue := old >>> (port.transferWidth - port.width)
  old >>> port.width ||| (repeatValue <<< (port.transferWidth - port.width)) % 2 ^ 32

def computeReadyOut : Bool :=
  if !port.useReadyOut then false
  else if port.outputPort then
    if port.useReadyIn && !port.readyIn then false else port.validShiftRegEntries ≠ 0
  else if port.timeRegValid then port.portCounter = port.timeReg
  else port.validShiftRegEntries ≠ port.portShiftCount

def updateReadyOut : Port :=
  let newValue := port.computeReadyOut
  if newValue = port.readyOut then port
  else { port with readyOut := newValue }.call (.readyOut newValue port.time)

/-- Let a thread that waits in `sync` go on once everything is output. -/
def wakeSync : Port :=
  match port.pausedSync with
  | none => port
  | some t =>
    if port.transferRegValid then port
    else { port with pausedSync := none }.call (.wake t port.time true)

def wakePausedOut : Port :=
  match port.pausedOut with
  | none => port
  | some t => { port with pausedOut := none }.call (.wake t port.time false)

def wakePausedIn : Port :=
  match port.pausedIn with
  | none => port
  | some t => { port with pausedIn := none }.call (.wake t port.time false)

def loadShiftReg : Port :=
  { port with
    validShiftRegEntries := port.portShiftCount
    portShiftCount := port.shiftRegEntries
    timestampReg := port.portCounter
    transferRegValid := false }

/-- A falling edge before its end: the shift register and the direction change last. -/
structure NextOutput where
  port : Port
  shiftReg : Nat
  outputPort : Bool

def shiftedOut (nextOutputPort : Bool) : NextOutput :=
  if !port.timeRegValid && port.transferRegValid then
    ⟨port.loadShiftReg.wakePausedOut, port.transferReg, nextOutputPort⟩
  else if !port.timeRegValid && port.pausedIn.isSome then ⟨port, port.shiftReg, false⟩
  else ⟨port, port.shiftReg, nextOutputPort⟩

def shiftOut (nextOutputPort : Bool) : NextOutput :=
  let entries := port.validShiftRegEntries - 1
  if entries ≠ 0 then
    ⟨{ port with validShiftRegEntries := entries }, port.nextShiftRegOutputPort port.shiftReg, nextOutputPort⟩
  else { port with validShiftRegEntries := 0 }.wakeSync.shiftedOut nextOutputPort

def NextOutput.result (next : NextOutput) : Port :=
  { next.port with shiftReg := next.shiftReg, outputPort := next.outputPort }

def NextOutput.drivenValue (next : NextOutput) : Nat := if next.outputPort then next.shiftReg else 0

def NextOutput.drive (next : NextOutput) (pins : Nat) : Port :=
  if (pins ^^^ next.drivenValue) &&& next.port.portWidthMask ≠ 0 then
    next.result.call (.outputValue next.result.getPinsOutputValue next.result.time)
  else next.result

def shiftIfReady (nextOutputPort : Bool) : NextOutput :=
  if !port.useReadyIn || port.readyIn then port.shiftOut nextOutputPort
  else ⟨port, port.shiftReg, nextOutputPort⟩

def endTime : Port := { port with timeRegValid := false, validShiftRegEntries := 0 }

def timeReached : Bool := port.timeRegValid && port.timeReg = port.portCounter

def seeFallingEdgeOutputPort : Port :=
  if port.timeReached then
    (port.endTime.shiftIfReady port.transferRegValid).drive port.shiftReg
  else (port.shiftIfReady port.outputPort).drive port.shiftReg

end

section

variable (env : PortEnv) (port : Port)

def countFallingEdge : Port := { port with portCounter := (port.portCounter + 1) % 2 ^ 16 }

def handleFallingEdge : Port :=
  if port.outputPort then port.seeFallingEdgeOutputPort
  else if port.useReadyOut && port.timeReached then port.endTime
  else port

def seeFallingEdge : Port := port.countFallingEdge.handleFallingEdge.updateReadyOut

def shouldRealignShiftRegister : Bool :=
  port.buffered && (port.pausedIn.isSome || env.eventsPermitted) && !port.holdTransferReg &&
    port.valueMeetsCondition port.pinsValue &&
    if port.timeRegValid then !port.useReadyOut && port.timeReached else port.condition ≠ .full

def announce : Port :=
  if port.timeAndConditionMet then
    let port := { port with timeRegValid := false }.wakePausedIn
    if env.eventsPermitted then port.call (.event port.time) else port
  else port

def fillTransferReg : Port :=
  { port with portShiftCount := port.shiftRegEntries, timestampReg := port.portCounter }.setTransferReg port.shiftReg

def capture : Port :=
  let port := { port with validShiftRegEntries := 0 }
  if port.holdTransferReg then port else port.fillTransferReg.announce env

/-- The number of entries is a 32-bit one in the source, and a shift by the full width of 32 is undefined there. -/
def shiftIn : Port :=
  { port with
    shiftReg := port.shiftReg >>> port.width |||
      (port.pinsValue <<< (port.transferWidth - port.width)) % 2 ^ 32
    validShiftRegEntries := port.validShiftRegEntries + 1 }

/-- Start a new transfer with the value just sampled, if that is the one waited for. -/
def realign : Port :=
  if port.shouldRealignShiftRegister env then
    { port with
      validShiftRegEntries := port.portShiftCount
      transferRegValid := false
      timeRegValid := false
      condition := if port.buffered then .full else port.condition }
  else if port.buffered && !port.useReadyOut && port.timeReached then { port with timeRegValid := false }
  else port

def captureIfFull : Port :=
  if port.validShiftRegEntries = port.portShiftCount &&
      (!port.useReadyOut || !port.transferRegValid || port.timeRegValid || port.condition ≠ .full) then
    port.capture env
  else port

def seeSamplingEdge : Port :=
  if port.outputPort then port
  else if port.useReadyOut && (!port.readyOut || port.timeRegValid) then port
  else if port.useReadyIn && !port.readyIn then port
  else ((port.shiftIn).realign env).captureIfFull env

def latchReadyIn : Port := { port with readyIn := env.readyInValue.getValue port.time ≠ 0 }

def seeEdge (type : EdgeType) (newTime : Nat) : Port :=
  let port := { port with time := newTime }
  if port.portType ≠ .dataPort then port
  else
    let port := if type = .falling then port.seeFallingEdge else port
    if type = port.samplingEdge then (port.latchReadyIn env).seeSamplingEdge env else port

def seeNextEdge : Port :=
  { port with nextEdge := port.nextEdge.next }.seeEdge env port.nextEdge.type port.nextEdge.time

/-- The loop of `updateSlow`; there is at most one round for each tick. -/
def updateSlowLoop (newTime : Nat) : Nat → Port → Port
  | 0, port => port
  | rounds + 1, port =>
    if port.nextEdge.time ≤ newTime then updateSlowLoop newTime rounds (port.seeNextEdge env) else port

def updateSlow (newTime : Nat) : Port :=
  { updateSlowLoop env newTime (newTime + 1 - port.nextEdge.time) port with time := newTime }

end

end Axe.Port
