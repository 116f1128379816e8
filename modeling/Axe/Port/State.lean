import Axe.System.State

/-! Signals, clock edges and the state of a port. A port talks to threads and to what is
connected to its pins by calls, which are noted down in the order in which they are made. -/

namespace Axe

namespace Edge

inductive EdgeType where
  | rising
  | falling
  deriving DecidableEq, Repr

def flip : EdgeType → EdgeType
  | .rising => .falling
  | .falling => .rising

end Edge

open Edge (EdgeType)

structure Edge where
  time : Nat
  type : EdgeType
  deriving DecidableEq, Repr

structure EdgeIterator where
  time : Nat
  type : EdgeType
  halfPeriod : Nat
  deriving DecidableEq, Repr

namespace EdgeIterator

def next (edge : EdgeIterator) : EdgeIterator :=
  { edge with type := Edge.flip edge.type, time := edge.time + edge.halfPeriod }

def add (edge : EdgeIterator) (n : Nat) : EdgeIterator :=
  { edge with
    type := if n % 2 = 1 then Edge.flip edge.type else edge.type
    time := edge.time + edge.halfPeriod * n }

def sub (edge other : EdgeIterator) : Nat := (edge.time - other.time) / edge.halfPeriod

end EdgeIterator

/-- A constant value, or a clock that is 0 from `value` on and 1 a half period later. -/
structure Signal where
  halfPeriod : Nat := 0
  value : Nat := 0
  deriving DecidableEq, Repr

namespace Signal

def isClock (sig : Signal) : Bool := sig.halfPeriod ≠ 0

def getValue (sig : Signal) (time : Nat) : Nat :=
  if sig.halfPeriod = 0 then sig.value
  else (time + 2 ^ 64 - sig.value) % 2 ^ 64 / sig.halfPeriod % 2

/-- The first edge after the given time, which is not before the clock's phase. -/
def getNextEdge (sig : Signal) (time : Nat) : Edge :=
  let number := 1 + (time - sig.value) / sig.halfPeriod
  { time := sig.value + number * sig.halfPeriod
    type := if number % 2 = 1 then .rising else .falling }

def getEdgeIterator (sig : Signal) (time : Nat) : EdgeIterator :=
  { time := (sig.getNextEdge time).time, type := (sig.getNextEdge time).type, halfPeriod := sig.halfPeriod }

def flipLeastSignificantBit (sig : Signal) : Signal :=
  if sig.halfPeriod = 0 then { sig with value := sig.value ^^^ 1 }
  else { sig with value := (sig.value + sig.halfPeriod) % 2 ^ 32 }

end Signal

inductive Condition where
  | full
  | after
  | eq
  | neq
  deriving DecidableEq, Repr

inductive ReadyMode where
  | noReady
  | strobed
  | handshake
  deriving DecidableEq, Repr

inductive MasterSlave where
  | master
  | slave
  deriving DecidableEq, Repr

inductive PortType where
  | dataPort
  | readyPort
  | clockPort
  deriving DecidableEq, Repr

inductive PortCall where
  | outputValue (value time : Nat)
  | readyOut (value : Bool) (time : Nat)
  /-- A paused thread goes on; one that waited in `sync` after its instruction. -/
  | wake (t time : Nat) (afterInstruction : Bool)
  | event (time : Nat)
  deriving DecidableEq, Repr

structure PortSettings where
  inUse : Bool := false
  events : Eventable := {}
  width : Nat
  data : Nat := 0
  shiftRegEntries : Nat := 0
  transferWidth : Nat := 0
  timeReg : Nat := 0
  holdTransferReg : Bool := false
  buffered : Bool := false
  inverted : Bool := false
  samplingEdge : EdgeType := .rising
  readyMode : ReadyMode := .noReady
  masterSlave : MasterSlave := .master
  portType : PortType := .dataPort
  pinsInputValue : Signal := {}
  deriving DecidableEq, Repr

structure PortPauses where
  pausedOut : Option Nat := none
  pausedIn : Option Nat := none
  pausedSync : Option Nat := none
  calls : List PortCall := []
  deriving DecidableEq, Repr

structure Port extends PortSettings, PortPauses where
  condition : Condition := .full
  portCounter : Nat := 0
  portShiftCount : Nat := 0
  validShiftRegEntries : Nat := 0
  shiftReg : Nat := 0
  transferReg : Nat := 0
  readyOut : Bool := false
  readyIn : Bool := false
  timeRegValid : Bool := false
  transferRegValid : Bool := false
  timestampReg : Nat := 0
  time : Nat := 0
  nextEdge : EdgeIterator := ⟨0, .rising, 0⟩
  outputPort : Bool := false
  deriving DecidableEq, Repr

structure PortEnv where
  clock : Signal
  running : Bool
  readyInValue : Signal
  eventsPermitted : Bool
  deriving DecidableEq, Repr

def PortEnv.isFixedFrequency (env : PortEnv) : Bool := env.running && env.clock.isClock

def makeMask (width : Nat) : Nat := 2 ^ width - 1

namespace Port

variable (port : Port)

def portWidthMask : Nat := makeMask port.width

def useReadyIn : Bool :=
  port.readyMode = .handshake || port.readyMode = .strobed && port.masterSlave = .slave

def useReadyOut : Bool :=
  port.readyMode = .handshake || port.readyMode = .strobed && port.masterSlave = .master

def getEffectiveValue (value : Signal) : Signal :=
  if port.inverted then value.flipLeastSignificantBit else value

def getDataPortPinsValue : Signal :=
  if port.outputPort then { value := port.shiftReg &&& port.portWidthMask } else port.pinsInputValue

def getEffectiveDataPortInputPinsValue : Signal := port.getEffectiveValue port.getDataPortPinsValue

def pinsValue : Nat := port.getEffectiveDataPortInputPinsValue.getValue port.time

def getPinsOutputValue : Nat :=
  (port.getEffectiveValue { value := if port.outputPort then port.shiftReg &&& port.portWidthMask else 0 }).getValue
    port.time

def valueMeetsCondition (value : Nat) : Bool :=
  match port.condition with
  | .full | .after => true
  | .eq => port.data = value
  | .neq => port.data ≠ value

def conditionMet : Bool :=
  port.transferRegValid &&
    (port.condition = .full || !port.buffered && port.valueMeetsCondition port.transferReg)

def timeMet : Bool :=
  port.transferRegValid && (!port.timeRegValid || port.timestampReg = port.timeReg)

def timeAndConditionMet : Bool := port.timeMet && port.conditionMet

def call (made : PortCall) : Port := { port with calls := port.calls ++ [made] }

def setTransferReg (value : Nat) : Port := { port with transferReg := value, transferRegValid := true }

end Port

end Axe
