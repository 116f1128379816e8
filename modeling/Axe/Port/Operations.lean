import Axe.Port.Update
import Axe.Channel.Operations

/-! The operations on a port. Each brings the port up to date and then does its own work. When
the port has to be run next, which most ask at their end, is not modelled. -/

namespace Axe

namespace Port

open Edge (EdgeType)

/-- What an operation leaves: the port and what the thread gets. -/
structure Performed where
  port : Port
  result : ResOpResult Nat := .continued 0

section

variable (port : Port) (t : Nat)

def pauseIn : Performed := { port := { port with pausedIn := some t }, result := .deschedule }

def pauseOut : Performed := { port := { port with pausedOut := some t }, result := .deschedule }

/-- The transfer register has been read; the shift register takes its place if it is full, and goes on from the
given number of entries. -/
def nextTransferReg (entries : Nat) : Port :=
  if port.validShiftRegEntries = port.portShiftCount then
    { port with
      portShiftCount := port.shiftRegEntries
      transferReg := port.shiftReg
      validShiftRegEntries := entries
      timestampReg := port.portCounter
      holdTransferReg := false }
  else { port with transferRegValid := false, holdTransferReg := false }

def inWord : Performed :=
  if port.portType ≠ .dataPort then { port := port }
  else if port.outputPort then port.pauseIn t
  else if port.timeAndConditionMet then
    { port := port.nextTransferReg 0, result := .continued port.transferReg }
  else port.pauseIn t

def isValidPortShiftCount (count : Nat) : Bool :=
  decide (port.width ≤ count) && decide (count ≤ port.transferWidth) && count % port.width = 0

def inpw (w : Nat) : Performed :=
  if !port.buffered || !port.isValidPortShiftCount w then
    { port := port, result := .illegal }
  else if port.portType ≠ .dataPort then { port := port }
  else if port.outputPort then port.pauseIn t
  else if port.timeAndConditionMet then
    { port := port.nextTransferReg port.validShiftRegEntries
      result := .continued port.transferReg }
  else { port with portShiftCount := w / port.width }.pauseIn t

/-- An input port that is turned round starts with one entry. -/
def turnRound : Port :=
  if port.outputPort then port else { port with validShiftRegEntries := 1, outputPort := true }

def out (value : Nat) : Performed :=
  if port.portType ≠ .dataPort then { port := port }
  else if port.outputPort && port.transferRegValid then port.pauseOut t
  else { port := port.turnRound.setTransferReg value }

def outpw (value w : Nat) : Performed :=
  if !port.buffered || !port.isValidPortShiftCount w then
    { port := port, result := .illegal }
  else if port.portType ≠ .dataPort then { port := port }
  else if port.outputPort && port.transferRegValid then port.pauseOut t
  else { port := { port.turnRound with portShiftCount := w / port.width }.setTransferReg value }

def setpsc (w : Nat) : Performed :=
  if !port.buffered || !port.isValidPortShiftCount w then
    { port := port, result := .illegal }
  else if port.portType ≠ .dataPort then { port := port }
  else if port.outputPort && port.transferRegValid then port.pauseOut t
  else { port := { port with portShiftCount := w / port.width } }

def endin : Performed :=
  if port.outputPort || !port.buffered then { port := port, result := .illegal }
  else if port.portType ≠ .dataPort then { port := port }
  else if port.transferRegValid then
    { port :=
        if port.validShiftRegEntries ≠ 0 then { port with portShiftCount := port.validShiftRegEntries } else port
      result := .continued ((port.validShiftRegEntries + port.shiftRegEntries) * port.width) }
  else
    { port := { port with validShiftRegEntries := 0 }.fillTransferReg
      result := .continued (port.validShiftRegEntries * port.width) }

def sync : Performed :=
  if port.portType ≠ .dataPort || !port.outputPort then { port := port }
  else { port := { port with pausedSync := some t }, result := .deschedule }

def setPortTime (value : Nat) : Performed :=
  if port.portType ≠ .dataPort then { port := port }
  else if port.outputPort && port.transferRegValid then port.pauseOut t
  else { port := { port with timeReg := value % 2 ^ 16, timeRegValid := true } }

end

section

variable (env : PortEnv) (port : Port)

def settle (ok : Bool) (changed : Port) : Performed :=
  if ok then { port := changed } else { port := port, result := .illegal }

def clearReadyOut (time : Nat) : Port :=
  if !port.readyOut then port else { port with readyOut := false }.call (.readyOut false time)

def clearBuf (time : Nat) : Port :=
  { port with transferRegValid := false, holdTransferReg := false, validShiftRegEntries := 0 }.clearReadyOut time

def setData (d : Nat) : Port := { port with data := d &&& port.portWidthMask }

def setCondition (c : Condition) : Performed := port.settle (c ≠ .after) { port with condition := c }

def setBuffered (value : Bool) : Performed :=
  port.settle (value || port.transferWidth = port.width && port.readyMode = .noReady) { port with buffered := value }

def setReadyMode (mode : ReadyMode) : Performed :=
  port.settle (mode = .noReady || port.buffered) { port with readyMode := mode }

/-- The width that is tested first is the one the port has, not the one it is to get. -/
def checkTransferWidth (value : Nat) : Bool :=
  if port.transferWidth = port.width then true
  else if port.transferWidth < port.width then false
  else value = 8 || value = 32

def setTransferWidth (value : Nat) : Performed :=
  port.settle (port.checkTransferWidth value)
    { port with
      transferWidth := value
      shiftRegEntries := value / port.width
      portShiftCount := value / port.width }

def setSamplingEdge (value : EdgeType) : Performed :=
  if port.samplingEdge = value then { port := port }
  else { port := { port with samplingEdge := value } }

/-- Only a one bit port can be inverted. -/
def setPortInv (value : Bool) : Performed :=
  port.settle (port.inverted = value || !value || port.width = 1) { port with inverted := value }

def restartEdges (time : Nat) : Port :=
  if env.isFixedFrequency then { port with nextEdge := env.clock.getEdgeIterator time } else port

def setPortType (type : PortType) (time : Nat) : Performed :=
  if port.portType = type then { port := port }
  else if type = .dataPort then { port := { port with portType := type }.restartEdges env time }
  else { port := { port with portType := type, outputPort := true } }

def seeClockChange (time : Nat) : Port :=
  if port.inUse && port.portType = .dataPort then port.restartEdges env time else port

def seeClockStart (time : Nat) : Port :=
  if port.inUse then { port with portCounter := 0 }.seeClockChange env time else port

def setInUse (t time : Nat) : Port :=
  ({ port with
    inUse := true
    events := { owner := some t }
    data := 0
    condition := .full
    outputPort := false
    buffered := false
    inverted := false
    samplingEdge := .rising
    transferRegValid := false
    timeRegValid := false
    holdTransferReg := false
    validShiftRegEntries := 0
    timestampReg := 0
    shiftReg := 0
    shiftRegEntries := 1
    portShiftCount := 1
    time := time
    portCounter := 0
    readyIn := false
    readyMode := .noReady
    masterSlave := .master
    portType := .dataPort
    transferWidth := port.width }.restartEdges env time).clearReadyOut time

def setCInUse (t : Nat) (val : Bool) (time : Nat) : Port :=
  if val then port.setInUse env t time else { port with inUse := false, events := { port.events with owner := none } }

def completeEvent : Port := { port with holdTransferReg := true }

def updateOwner (t : Nat) : Port := { port with events := { port.events with owner := some t } }

end

/-- What a thread can do with a port in use, `peek` apart, which like `getTimestamp` only reads. -/
inductive Operation where
  | inWord
  | inpw (w : Nat)
  | out (value : Nat)
  | outpw (value w : Nat)
  | setpsc (w : Nat)
  | endin
  | sync
  | setPortTime (value : Nat)
  | clearPortTime
  | clearBuf
  | getTimestamp
  | setData (d : Nat)
  | getData
  | setCondition (c : Condition)
  | setBuffered (value : Bool)
  | setReadyMode (mode : ReadyMode)
  | setMasterSlave (value : MasterSlave)
  | setTransferWidth (value : Nat)
  | setSamplingEdge (value : EdgeType)
  | setPinDelay (value : Nat)
  | setPortInv (value : Bool)
  | setPortType (type : PortType)
  deriving DecidableEq, Repr

def perform (env : PortEnv) (t time : Nat) (port : Port) : Operation → Performed
  | .inWord => port.inWord t
  | .inpw w => port.inpw t w
  | .out value => port.out t value
  | .outpw value w => port.outpw t value w
  | .setpsc w => port.setpsc t w
  | .endin => port.endin
  | .sync => port.sync t
  | .setPortTime value => port.setPortTime t value
  | .clearPortTime => { port := { port with timeRegValid := false } }
  | .clearBuf => { port := port.clearBuf time }
  | .getTimestamp => { port := port, result := .continued port.timestampReg }
  | .setData d => { port := port.setData d }
  | .getData => { port := port, result := .continued port.data }
  | .setCondition c => port.setCondition c
  | .setBuffered value => port.setBuffered value
  | .setReadyMode mode => port.setReadyMode mode
  | .setMasterSlave value => { port := { port with masterSlave := value } }
  | .setTransferWidth value => port.setTransferWidth value
  | .setSamplingEdge value => port.setSamplingEdge value
  | .setPinDelay value => port.settle (decide (value ≤ 5)) port
  | .setPortInv value => port.setPortInv value
  | .setPortType type => port.setPortType env type time

def operate (env : PortEnv) (t time : Nat) (op : Operation) (port : Port) : Performed :=
  ((port.update env time).updateOwner t).perform env t time op

end Port

end Axe
