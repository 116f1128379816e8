import Mathlib.Algebra.Group.Nat.Defs
import Mathlib.Logic.Function.Basic

/-! Threads, the resources they pause on and the scheduler's view of them.
Threads and resources are named by numbers. -/

namespace Axe

inductive ResourceRef where
  | port (num : Nat)
  | timer (num : Nat)
  | chanend (num : Nat)
  | sync (num : Nat)
  | lock (num : Nat)
  deriving DecidableEq, Repr

/-- A thread, as far as pauses and events go; `waiting`, `eeble` and `ieble` are bits of `sr`. -/
structure Thread where
  inUse : Bool := false
  waiting : Bool := false
  eeble : Bool := false
  ieble : Bool := false
  pausedOn : Option ResourceRef := none
  pc : Nat := 0
  time : Nat := 0
  kep : Nat := 0
  ssync : Bool := false
  sync : Option Nat := none
  /-- The thread's place in the scheduler's queue. -/
  wakeUpTime : Option Nat := none
  deriving DecidableEq, Repr

structure Eventable where
  owner : Option Nat := none
  vector : Nat := 0
  eventsEnabled : Bool := false
  interruptMode : Bool := false
  deriving DecidableEq, Repr

structure Token where
  value : BitVec 8
  control : Bool
  deriving DecidableEq, Repr

/-- `Chanend` with the state of its `ChanEndpoint`. -/
structure Chanend where
  inUse : Bool := false
  events : Eventable := {}
  junkIncoming : Bool := true
  queue : List Nat := []
  source : Option Nat := none
  destID : BitVec 32 := 0
  dest : Option Nat := none
  buf : List Token := []
  pausedOut : Option Nat := none
  pausedIn : Option Nat := none
  waitForWord : Bool := false
  inPacket : Bool := false
  junkPacket : Bool := false
  deriving DecidableEq, Repr

structure PortLinks where
  events : Eventable := {}
  pausedOut : Option Nat := none
  pausedIn : Option Nat := none
  pausedSync : Option Nat := none
  deriving DecidableEq, Repr

structure Timer where
  inUse : Bool := false
  events : Eventable := {}
  after : Bool := false
  data : BitVec 32 := 0
  pausedIn : Option Nat := none
  wakeUpTime : Option Nat := none
  deriving DecidableEq, Repr

structure Lock where
  inUse : Bool := false
  held : Bool := false
  threads : List Nat := []
  deriving DecidableEq, Repr

/-- `Synchroniser`; the master thread comes first in `threads`. -/
structure Synchroniser where
  inUse : Bool := false
  threads : List Nat := []
  numPaused : Nat := 0
  join : Bool := false
  deriving DecidableEq, Repr

structure PendingEvent where
  res : ResourceRef
  interrupt : Bool
  time : Nat
  deriving DecidableEq, Repr

structure System where
  threads : Nat → Thread
  ports : Nat → PortLinks
  chanends : Nat → Chanend
  timers : Nat → Timer
  locks : Nat → Lock
  syncs : Nat → Synchroniser
  /-- The thread that is executing, while one is. -/
  currentRunnable : Option Nat
  pendingEvent : Option PendingEvent

namespace System

def initial : System where
  threads _ := {}
  ports _ := {}
  chanends _ := {}
  timers _ := {}
  locks _ := {}
  syncs _ := {}
  currentRunnable := none
  pendingEvent := none

def updateThread (sys : System) (t : Nat) (change : Thread → Thread) : System :=
  { sys with threads := Function.update sys.threads t (change (sys.threads t)) }

def updateChanend (sys : System) (c : Nat) (change : Chanend → Chanend) : System :=
  { sys with chanends := Function.update sys.chanends c (change (sys.chanends c)) }

def updatePort (sys : System) (p : Nat) (change : PortLinks → PortLinks) : System :=
  { sys with ports := Function.update sys.ports p (change (sys.ports p)) }

def updateTimer (sys : System) (n : Nat) (change : Timer → Timer) : System :=
  { sys with timers := Function.update sys.timers n (change (sys.timers n)) }

def updateLock (sys : System) (n : Nat) (change : Lock → Lock) : System :=
  { sys with locks := Function.update sys.locks n (change (sys.locks n)) }

def updateSync (sys : System) (s : Nat) (change : Synchroniser → Synchroniser) : System :=
  { sys with syncs := Function.update sys.syncs s (change (sys.syncs s)) }

def schedule (sys : System) (t : Nat) : System :=
  sys.updateThread t fun th =>
    { th with waiting := false, pausedOn := none, wakeUpTime := some th.time }

def wake (sys : System) (t time : Nat) : System :=
  (sys.updateThread t fun th => { th with time := time }).schedule t

/-- `Resource::cancel`; only synchronisers do anything. -/
def cancel (sys : System) : ResourceRef → System
  | .sync s => sys.updateSync s fun sync => { sync with numPaused := (sync.numPaused + 2 ^ 32 - 1) % 2 ^ 32 }
  | _ => sys

def eventable (sys : System) : ResourceRef → Eventable
  | .port p => (sys.ports p).events
  | .chanend c => (sys.chanends c).events
  | .timer t => (sys.timers t).events
  | _ => {}

def completeEvent (sys : System) (t : Nat) (res : ResourceRef) (intr : Bool) : System :=
  let sys := sys.updateThread t fun th =>
    { th with eeble := false, ieble := !intr && th.ieble }
  match (sys.eventable res).owner with
  | none => sys
  | some owner => sys.updateThread owner fun th => { th with pc := (sys.eventable res).vector }

def takeEvent (sys : System) (t : Nat) (res : ResourceRef) (intr : Bool) : System :=
  let th := sys.threads t
  let sys :=
    if th.waiting then
      let sys := match th.pausedOn with
        | some paused => sys.cancel paused
        | none => sys
      sys.schedule t
    else sys
  sys.completeEvent t res intr

def takePendingEvent (sys : System) (t : Nat) : System :=
  match sys.pendingEvent with
  | none => sys
  | some event =>
    let sys := sys.updateThread t fun th =>
      { th with time := max th.time event.time, waiting := false }
    { sys.completeEvent t event.res event.interrupt with pendingEvent := none }

def setPendingEvent (sys : System) (res : ResourceRef) (time : Nat) (intr : Bool) : System :=
  match sys.pendingEvent with
  | some event =>
    if event.time ≤ time then sys else { sys with pendingEvent := some ⟨res, intr, time⟩ }
  | none => { sys with pendingEvent := some ⟨res, intr, time⟩ }

def eventsPermitted (sys : System) (events : Eventable) : Bool :=
  match events.owner with
  | none => false
  | some owner =>
    events.eventsEnabled &&
      if events.interruptMode then (sys.threads owner).ieble else (sys.threads owner).eeble

def event (sys : System) (res : ResourceRef) (time : Nat) : System :=
  let events := sys.eventable res
  match events.owner with
  | none => sys
  | some owner =>
    if sys.currentRunnable = some owner then sys.setPendingEvent res time events.interruptMode
    else
      let sys := sys.updateThread owner fun th => { th with time := time }
      sys.takeEvent owner res events.interruptMode

section

variable (sys : System)

@[simp] lemma updateThread_chanends (t : Nat) (upd : Thread → Thread) :
    (sys.updateThread t upd).chanends = sys.chanends := rfl

@[simp] lemma updateThread_pendingEvent (t : Nat) (upd : Thread → Thread) :
    (sys.updateThread t upd).pendingEvent = sys.pendingEvent := rfl

@[simp] lemma schedule_chanends (t : Nat) : (sys.schedule t).chanends = sys.chanends := rfl

@[simp] lemma wake_chanends (t time : Nat) : (sys.wake t time).chanends = sys.chanends := rfl

@[simp] lemma cancel_chanends (res : ResourceRef) : (sys.cancel res).chanends = sys.chanends := by
  cases res <;> rfl

@[simp] lemma completeEvent_chanends (t : Nat) (res : ResourceRef) (intr : Bool) :
    (sys.completeEvent t res intr).chanends = sys.chanends := by
  unfold completeEvent
  dsimp only
  split <;> rfl

@[simp] lemma takeEvent_chanends (t : Nat) (res : ResourceRef) (intr : Bool) :
    (sys.takeEvent t res intr).chanends = sys.chanends := by
  unfold takeEvent
  dsimp only
  split
  · split <;> simp
  · simp

@[simp] lemma takePendingEvent_chanends (t : Nat) : (sys.takePendingEvent t).chanends = sys.chanends := by
  unfold takePendingEvent
  split <;> simp

@[simp] lemma setPendingEvent_chanends (res : ResourceRef) (time : Nat) (intr : Bool) :
    (sys.setPendingEvent res time intr).chanends = sys.chanends := by
  unfold setPendingEvent
  split
  · split <;> rfl
  · rfl

@[simp] lemma event_chanends (res : ResourceRef) (time : Nat) : (sys.event res time).chanends = sys.chanends := by
  unfold event
  dsimp only
  split
  · rfl
  · split <;> simp

end

structure SameEvents (sys post : System) : Prop where
  eventable : post.eventable = sys.eventable
  currentRunnable : post.currentRunnable = sys.currentRunnable
  pendingEvent : post.pendingEvent = sys.pendingEvent

namespace SameEvents

variable {sys mid post : System}

lemma trans (first : SameEvents sys mid) (snd : SameEvents mid post) : SameEvents sys post :=
  ⟨snd.eventable.trans first.eventable, snd.currentRunnable.trans first.currentRunnable,
    snd.pendingEvent.trans first.pendingEvent⟩

lemma updateThread (sys : System) (t : Nat) (upd : Thread → Thread) :
    SameEvents sys (sys.updateThread t upd) := by
  refine ⟨?_, rfl, rfl⟩
  funext res
  cases res <;> rfl

lemma cancel (sys : System) (res : ResourceRef) : SameEvents sys (sys.cancel res) := by
  cases res with
  | sync s =>
    refine ⟨?_, rfl, rfl⟩
    funext res
    cases res <;> rfl
  | _ => exact ⟨rfl, rfl, rfl⟩

lemma completeEvent (sys : System) (t : Nat) (res : ResourceRef) (intr : Bool) :
    SameEvents sys (sys.completeEvent t res intr) := by
  have first := updateThread sys t fun th =>
    { th with eeble := false, ieble := !intr && th.ieble }
  simp only [System.completeEvent]
  split
  · exact first
  · exact first.trans (updateThread _ _ _)

lemma takeEvent (sys : System) (t : Nat) (res : ResourceRef) (intr : Bool) :
    SameEvents sys (sys.takeEvent t res intr) := by
  simp only [System.takeEvent]
  split
  · split
    · exact ((cancel sys _).trans (updateThread _ t _)).trans (completeEvent _ _ _ _)
    · exact (updateThread sys t _).trans (completeEvent _ _ _ _)
  · exact completeEvent _ _ _ _

end SameEvents

lemma takePendingEvent_pendingEvent (sys : System) (t : Nat) : (sys.takePendingEvent t).pendingEvent = none := by
  simp only [System.takePendingEvent]
  split
  case h_1 nil => exact nil
  case h_2 => rfl

end System

end Axe
