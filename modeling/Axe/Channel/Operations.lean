import Axe.System.State

/-! Channel ends: claiming a route, sending tokens along it and taking them out of
the buffer. The operations are those of `Chanend` and `ChanEndpoint`; how a
resource identifier leads to a channel end is a parameter. -/

namespace Axe

def chanendBufferSize : Nat := 8
def ctEnd : BitVec 8 := 1
def ctPause : BitVec 8 := 2

def endsPacket (val : BitVec 8) : Bool := val = ctEnd || val = ctPause

inductive ClaimResult where
  | junked
  | opened
  | queued
  deriving DecidableEq, Repr

inductive ResOpResult (Value : Type) where
  | continued (val : Value)
  | deschedule
  | illegal
  deriving DecidableEq, Repr

def ResOpResult.map {Value Result : Type} (f : Value → Result) : ResOpResult Value → ResOpResult Result
  | .continued val => .continued (f val)
  | .deschedule => .deschedule
  | .illegal => .illegal

namespace System

/-- `notifyDestClaimed` and `notifyDestCanAcceptTokens`, which do the same. -/
def notifySource (sys : System) (c time : Nat) : System :=
  match (sys.chanends c).pausedOut with
  | none => sys
  | some t => (sys.wake t time).updateChanend c fun ch => { ch with pausedOut := none }

def claim (sys : System) (d newSource : Nat) : System × ClaimResult :=
  let dest := sys.chanends d
  if dest.junkIncoming then (sys, .junked)
  else if dest.source = some newSource then (sys, .opened)
  else if dest.source.isSome then
    (sys.updateChanend d fun ch => { ch with queue := ch.queue ++ [newSource] }, .queued)
  else (sys.updateChanend d fun ch => { ch with source := some newSource }, .opened)

def release (sys : System) (d time : Nat) : System :=
  match (sys.chanends d).queue with
  | [] => sys.updateChanend d fun ch => { ch with source := none }
  | next :: rest =>
    (sys.updateChanend d fun ch => { ch with source := some next, queue := rest }).notifySource next time

/-- `Chanend::update`, after tokens were placed in the buffer. -/
def updateAfterToken (sys : System) (d time : Nat) : System :=
  let ch := sys.chanends d
  if sys.eventsPermitted ch.events then sys.event (.chanend d) time
  else
    match ch.pausedIn with
    | none => sys
    | some t =>
      if ch.waitForWord && decide (ch.buf.length < 4) then sys
      else (sys.wake t time).updateChanend d fun ch => { ch with pausedIn := none }

def pushTokens (sys : System) (d : Nat) (tokens : List Token) : System :=
  sys.updateChanend d fun ch => { ch with buf := ch.buf ++ tokens }

def receiveDataTokens (sys : System) (d time : Nat) (values : List (BitVec 8)) : System :=
  (sys.pushTokens d (values.map (⟨·, false⟩))).updateAfterToken d time

def receiveCtrlToken (sys : System) (d time : Nat) (val : BitVec 8) : System :=
  if val = ctEnd then ((sys.pushTokens d [⟨val, true⟩]).release d time).updateAfterToken d time
  else if val = ctPause then sys.release d time
  else (sys.pushTokens d [⟨val, true⟩]).updateAfterToken d time

/-- `getChanendDest`: where a resource identifier leads from the core of the given owner thread. -/
abbrev Routing := Option Nat → BitVec 32 → Option Nat

section

variable (via : Routing)

def openRoute (sys : System) (s : Nat) : System × Bool :=
  let ch := sys.chanends s
  if ch.inPacket then (sys, true)
  else
    let dest := via ch.events.owner ch.destID
    let sys := sys.updateChanend s fun ch => { ch with dest := dest }
    match dest with
    | none => (sys.updateChanend s fun ch => { ch with junkPacket := true, inPacket := true }, true)
    | some d =>
      match sys.claim d s with
      | (sys, .junked) => (sys.updateChanend s fun ch => { ch with junkPacket := true, inPacket := true }, true)
      | (sys, .opened) => (sys.updateChanend s fun ch => { ch with inPacket := true }, true)
      | (sys, .queued) => (sys, false)

/-- The common course of `outt`, `out` and `outct`: open the route, drop what goes to a
junked packet, wait for room in the destination's buffer, deliver. -/
def sendTokens (sys : System) (t s room : Nat) (junk : System → System) (deliver : System → Nat → System) :
    System × ResOpResult Unit :=
  let (sys, opened) := sys.openRoute via s
  let ch := sys.chanends s
  let paused := (sys.updateChanend s fun ch => { ch with pausedOut := some t }, .deschedule)
  if !opened then paused
  else if ch.junkPacket then (junk sys, .continued ())
  else
    match ch.dest with
    | none => (sys, .continued ()) -- not reached: an open packet that is not junked has a destination
    | some d =>
      if chanendBufferSize < (sys.chanends d).buf.length + room then paused
      else (deliver sys d, .continued ())

def outt (sys : System) (t s time : Nat) (val : BitVec 8) : System × ResOpResult Unit :=
  sys.sendTokens via t s 1 id fun sys d => sys.receiveDataTokens d time [val]

/-- Channels are big endian. -/
def wordBytes (val : BitVec 32) : List (BitVec 8) :=
  [val.extractLsb' 24 8, val.extractLsb' 16 8, val.extractLsb' 8 8, val.extractLsb' 0 8]

def out (sys : System) (t s time : Nat) (val : BitVec 32) : System × ResOpResult Unit :=
  sys.sendTokens via t s 4 id fun sys d => sys.receiveDataTokens d time (wordBytes val)

def outct (sys : System) (t s time : Nat) (val : BitVec 8) : System × ResOpResult Unit :=
  sys.sendTokens via t s 1
    (fun sys =>
      if endsPacket val then
        sys.updateChanend s fun ch => { ch with inPacket := false, junkPacket := false }
      else sys)
    (fun sys d =>
      let sys := sys.receiveCtrlToken d time val
      if endsPacket val then
        sys.updateChanend s fun ch => { ch with inPacket := false, dest := none }
      else sys)

end

def setOwner (sys : System) (t c : Nat) : System :=
  sys.updateChanend c fun ch => { ch with events := { ch.events with owner := some t } }

def setPausedIn (sys : System) (t c : Nat) (wordInput : Bool) : System :=
  sys.updateChanend c fun ch => { ch with pausedIn := some t, waitForWord := wordInput }

/-- `none` when the thread has to wait, else whether the first token is a control token. -/
def testct (sys : System) (t c : Nat) : System × Option Bool :=
  let sys := sys.setOwner t c
  match (sys.chanends c).buf with
  | [] => (sys.setPausedIn t c false, none)
  | token :: _ => (sys, some token.control)

/-- Position of the first control token among the first four, counted from one. -/
def controlPosition (buf : List Token) : Nat :=
  match (buf.take 4).findIdx? (·.control) with
  | some i => i + 1
  | none => 0

/-- `none` when the thread has to wait, else the position of a control token in the
next word, 0 if there is none. -/
def testwct (sys : System) (t c : Nat) : System × Option Nat :=
  let sys := sys.setOwner t c
  let buf := (sys.chanends c).buf
  if controlPosition buf ≠ 0 then (sys, some (controlPosition buf))
  else if buf.length < 4 then (sys.setPausedIn t c true, none)
  else (sys, some 0)

/-- Take tokens out of the buffer and tell the source of the current packet. -/
def popTokens (sys : System) (c time num : Nat) : System :=
  let sys := sys.updateChanend c fun ch => { ch with buf := ch.buf.drop num }
  match (sys.chanends c).source with
  | none => sys
  | some source => sys.notifySource source time

/-- The common course of `intoken`, `inct` and `chkct`: wait for a token, trap on one
that is not accepted, else take it. -/
def inputToken (sys : System) (t c time : Nat) (accepts : Token → Bool) : System × ResOpResult (BitVec 32) :=
  match sys.testct t c with
  | (sys, none) => (sys, .deschedule)
  | (sys, some _) =>
    match (sys.chanends c).buf with
    | [] => (sys, .deschedule) -- not reached: `testct` found a token
    | token :: _ =>
      if accepts token then (sys.popTokens c time 1, .continued (token.value.setWidth 32))
      else (sys, .illegal)

def intoken (sys : System) (t c time : Nat) : System × ResOpResult (BitVec 32) :=
  sys.inputToken t c time fun token => !token.control

def inct (sys : System) (t c time : Nat) : System × ResOpResult (BitVec 32) :=
  sys.inputToken t c time fun token => token.control

def chkct (sys : System) (t c time : Nat) (val : BitVec 32) : System × ResOpResult (BitVec 32) :=
  sys.inputToken t c time fun token => token.control && token.value.setWidth 32 == val

def bufferWord : List Token → BitVec 32
  | first :: snd :: third :: fourth :: _ => first.value ++ snd.value ++ third.value ++ fourth.value
  | _ => 0

def inWord (sys : System) (t c time : Nat) : System × ResOpResult (BitVec 32) :=
  match sys.testwct t c with
  | (sys, none) => (sys, .deschedule)
  | (sys, some 0) => (sys.popTokens c time 4, .continued (bufferWord (sys.chanends c).buf))
  | (sys, some _) => (sys, .illegal)

def alloc (sys : System) (t c : Nat) : System :=
  sys.updateChanend c fun ch =>
    { ch with
      dest := none
      pausedOut := none
      pausedIn := none
      inPacket := false
      junkPacket := false
      events := { owner := some t }
      inUse := true
      junkIncoming := false }

def free (sys : System) (c : Nat) : System × Bool :=
  let ch := sys.chanends c
  if !ch.buf.isEmpty || ch.source.isSome || ch.inPacket then (sys, false)
  else
    (sys.updateChanend c fun ch =>
      { ch with events := { ch.events with owner := none }, inUse := false, junkIncoming := true }, true)

/-- `setData`: the identifier of a channel end or of a configuration port, outside a packet. -/
def setData (sys : System) (c : Nat) (val : BitVec 32) : System × Bool :=
  let type := val.extractLsb' 0 8
  if (sys.chanends c).inPacket then (sys, false)
  else if type ≠ 2 ∧ type ≠ 12 then (sys, false)
  else (sys.updateChanend c fun ch => { ch with destID := val }, true)

end System

inductive ChanOp where
  | alloc
  | free
  | setd (val : BitVec 32)
  | outt (val : BitVec 8)
  | out (val : BitVec 32)
  | outct (val : BitVec 8)
  | intoken
  | inct
  | chkct (val : BitVec 32)
  | inWord
  | testct
  | testwct
  deriving DecidableEq, Repr

structure ChanCall where
  thread : Nat
  chanend : Nat
  op : ChanOp
  deriving DecidableEq, Repr

namespace System

variable (via : Routing)

def ofBool (result : System × Bool) : System × ResOpResult (BitVec 32) :=
  (result.1, if result.2 then .continued 0 else .illegal)

def ofUnit (result : System × ResOpResult Unit) : System × ResOpResult (BitVec 32) :=
  (result.1, result.2.map fun _ => 0)

def ofTest {Value : Type} (toWord : Value → BitVec 32) (result : System × Option Value) :
    System × ResOpResult (BitVec 32) :=
  (result.1, match result.2 with
    | some val => .continued (toWord val)
    | none => .deschedule)

/-- The resource's part of an instruction. Every instruction but the allocation checks
that the channel end is in use; the allocation takes one that is not. -/
def perform (sys : System) (call : ChanCall) : System × ResOpResult (BitVec 32) :=
  let t := call.thread
  let c := call.chanend
  let time := (sys.threads t).time
  if (sys.chanends c).inUse then
    match call.op with
    | .alloc => (sys, .illegal)
    | .free => ofBool (sys.free c)
    | .setd val => ofBool (sys.setData c val)
    | .outt val => ofUnit (sys.outt via t c time val)
    | .out val => ofUnit (sys.out via t c time val)
    | .outct val => ofUnit (sys.outct via t c time val)
    | .intoken => sys.intoken t c time
    | .inct => sys.inct t c time
    | .chkct val => sys.chkct t c time val
    | .inWord => sys.inWord t c time
    | .testct => ofTest (fun isCt => if isCt then 1 else 0) (sys.testct t c)
    | .testwct => ofTest (BitVec.ofNat 32) (sys.testwct t c)
  else
    match call.op with
    | .alloc => (sys.alloc t c, .continued 0)
    | _ => (sys, .illegal)

/-- Outputs check for events before they pause and when they are done. -/
def canEvent : ChanOp → Bool
  | .outt _ | .out _ | .outct _ => true
  | _ => false

def finish (sys : System) (t : Nat) (res : ResourceRef) (canEvent : Bool) :
    ResOpResult (BitVec 32) → System
  | .continued _ =>
    let sys := sys.updateThread t fun th => { th with pc := th.pc + 1 }
    if canEvent && sys.pendingEvent.isSome then (sys.takePendingEvent t).schedule t else sys
  | .deschedule =>
    if canEvent && sys.pendingEvent.isSome then (sys.takePendingEvent t).schedule t
    else sys.updateThread t fun th => { th with waiting := true, pausedOn := some res }
  | .illegal =>
    sys.updateThread t fun th => { th with eeble := false, ieble := false, pc := th.kep }

def attempt (sys : System) (call : ChanCall) : System × ResOpResult (BitVec 32) :=
  { sys with currentRunnable := some call.thread }.perform via call

def execute (sys : System) (call : ChanCall) : System :=
  (sys.attempt via call).1.finish call.thread (.chanend call.chanend) (canEvent call.op)
    (sys.attempt via call).2

end System

end Axe
