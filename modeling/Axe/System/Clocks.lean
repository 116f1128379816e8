import Axe.Channel.Frames
import Axe.Library.AgentClocks
import Axe.System.ThreadLives

/-! The run loop with the clocks of its threads. A thread runs on until it pauses or
finds that its time slice has expired, so its clock gets ahead of threads that are
still in the queue; some of the instructions that can pause look at the time slice
before they do anything, others do not. -/

namespace Axe

def cyclesPerTick : Nat := 4

namespace Timer

def ticks (time : Nat) : BitVec 32 := BitVec.ofNat 32 (time / cyclesPerTick)

def conditionMet (timer : Timer) (time : Nat) : Bool :=
  !timer.after || decide (0 < (ticks time - timer.data).toInt)

/-- The earliest time at which the timer will become ready; the wait is a signed 32-bit number. -/
def getEarliestReadyTime (timer : Timer) (time : Nat) : Nat :=
  if timer.conditionMet time then time
  else
    let wait := timer.data + 1 - ticks time
    (BitVec.ofNat 64 time + (wait * BitVec.ofNat 32 cyclesPerTick).signExtend 64).toNat

end Timer

/-- An instruction that the loop's clocks depend on; `resource` has all the rest. -/
inductive ClockedInstruction where
  | resource (inst : ResourceInstruction)
  | msync
  | mjoin
  | ssync
  | freet
  | getr
  | getst
  | tstart
  deriving DecidableEq, Repr

/-- The instructions with `setYieldBefore`: they yield if the time slice has expired. -/
def ResourceInstruction.yieldsBefore : ResourceInstruction → Bool
  | .int_2r | .inct_2r | .chkct_2r | .testct_2r | .testwct_2r | .freer_1r | .other => false
  | _ => true

namespace ClockedInstruction

def yieldsBefore : ClockedInstruction → Bool
  | .resource inst => inst.yieldsBefore
  | _ => false

def canEvent : ClockedInstruction → Bool
  | .resource inst => inst.canEvent
  | _ => false

end ClockedInstruction

inductive PortWait where
  | output
  | input
  | sync
  deriving DecidableEq, Repr

def PortWait.slot (p : Nat) : PortWait → WaitSlot
  | .output => .portOut p
  | .input => .portIn p
  | .sync => .portSync p

inductive Operation where
  | channel (c : Nat) (op : ChanOp)
  | allocTimer (n : Nat)
  | freeTimer (n : Nat)
  | setTimer (n : Nat) (after : Bool) (data : BitVec 32)
  | timerIn (n : Nat)
  | allocLock (n : Nat)
  | freeLock (n : Nat)
  | lockIn (n : Nat)
  | lockOut (n : Nat)
  /-- A port tells the thread to wait. -/
  | portWait (p : Nat) (kind : PortWait)
  /-- Events are set up on a resource; `seen` tells whether a port or a channel end has one at once. -/
  | enable (res : ResourceRef) (events : Eventable) (seen : Bool)
  /-- A resource of the thread is looked at after its events were let in. -/
  | check (res : ResourceRef) (seen : Bool)
  | setSR (eeble ieble : Bool)
  /-- The thread waits for events only. -/
  | wait
  | msync (s : Nat)
  | mjoin (s : Nat)
  | ssync
  | freet
  | allocThread
  | freeThread (u : Nat)
  | allocSync
  | freeSync (s : Nat)
  | getst (s : Nat)
  | tstart (u : Nat)
  deriving DecidableEq, Repr

def ChanOp.instructions : ChanOp → List ClockedInstruction
  | .alloc => [.getr]
  | .free => [.resource .freer_1r]
  | .setd _ => [.resource .setd_2r]
  | .outt _ => [.resource .outt_2r]
  | .out _ => [.resource .out_2r]
  | .outct _ => [.resource .outct_2r, .resource .outct_rus]
  | .intoken => [.resource .int_2r]
  | .inct => [.resource .inct_2r]
  | .chkct _ => [.resource .chkct_2r]
  | .inWord => [.resource .in_2r]
  | .testct => [.resource .testct_2r]
  | .testwct => [.resource .testwct_2r]

def Operation.instructions : Operation → List ClockedInstruction
  | .channel _ op => op.instructions
  | .allocTimer _ | .allocLock _ | .allocThread | .allocSync => [.getr]
  | .freeTimer _ | .freeLock _ | .freeThread _ | .freeSync _ => [.resource .freer_1r]
  | .setTimer _ _ _ => [.resource .setd_2r, .resource .setc_ru6, .resource .setc_l2r]
  | .timerIn _ | .lockIn _ => [.resource .in_2r]
  | .lockOut _ => [.resource .out_2r]
  | .portWait _ _ =>
    [.resource .in_2r, .resource .inshr_2r, .resource .inpw_l2rus, .resource .out_2r, .resource .outshr_2r,
      .resource .outpw_l2rus, .resource .setpsc_2r, .resource .syncr_1r, .resource .setpt_2r]
  | .enable _ _ _ =>
    [.resource .eet_2r, .resource .eef_2r, .resource .eeu_1r, .resource .edu_1r, .resource .setc_ru6,
      .resource .setc_l2r, .resource .setv_1r, .resource .setev_1r, .resource .clre_0r]
  | .setSR _ _ =>
    [.resource .setsr_u6, .resource .clrsr_u6, .resource .kret_0r, .resource .waiteu_0r, .resource .waitet_1r,
      .resource .waitef_1r, .resource .clre_0r]
  | .check _ _ =>
    [.resource .setsr_u6, .resource .kret_0r, .resource .waiteu_0r, .resource .waitet_1r, .resource .waitef_1r]
  | .wait => [.resource .waiteu_0r, .resource .waitet_1r, .resource .waitef_1r]
  | .msync _ => [.msync]
  | .mjoin _ => [.mjoin]
  | .ssync => [.ssync]
  | .freet => [.freet]
  | .getst _ => [.getst]
  | .tstart _ => [.tstart]

inductive OperationResult where
  | proceed
  | illegal
  /-- The thread has to wait, on the resource that says so or for events only. -/
  | deschedule (res : Option ResourceRef)
  deriving DecidableEq, Repr

namespace OperationResult

def ofResource {Value : Type} (res : ResourceRef) : ResOpResult Value → OperationResult
  | .continued _ => .proceed
  | .deschedule => .deschedule (some res)
  | .illegal => .illegal

def ofSync (s : Nat) : SyncResult → OperationResult
  | .proceed => .proceed
  | .deschedule => .deschedule (some (.sync s))
  | .kill => .deschedule none

end OperationResult

namespace System

def allocTimer (sys : System) (t n : Nat) : System :=
  sys.updateTimer n fun timer =>
    { timer with inUse := true, after := false, data := 0, events := { owner := some t } }

def freeTimer (sys : System) (n : Nat) : System :=
  sys.updateTimer n fun timer => { timer with inUse := false, events := { timer.events with owner := none } }

def scheduleTimer (sys : System) (n time : Nat) : System :=
  sys.updateTimer n fun timer => { timer with wakeUpTime := some (timer.getEarliestReadyTime time) }

def setTimerOwner (sys : System) (t n : Nat) : System :=
  sys.updateTimer n fun timer => { timer with events := { timer.events with owner := some t } }

def timerIn (sys : System) (t n time : Nat) : System × OperationResult :=
  let sys := sys.setTimerOwner t n
  if (sys.timers n).conditionMet time then (sys, .proceed)
  else
    ((sys.updateTimer n fun timer => { timer with pausedIn := some t }).scheduleTimer n time,
      .deschedule (some (.timer n)))

def timerRun (sys : System) (n time : Nat) : System :=
  if (sys.timers n).conditionMet time then
    let sys := sys.raiseEvent (.timer n) time
    match (sys.timers n).pausedIn with
    | none => sys
    | some t => (sys.wake t time).updateTimer n fun timer => { timer with pausedIn := none }
  else sys

def allocLock (sys : System) (n : Nat) : System :=
  sys.updateLock n fun _ => { inUse := true, held := false, threads := [] }

def lockIn (sys : System) (t n : Nat) : System × OperationResult :=
  if (sys.locks n).held then
    (sys.updateLock n fun lock => { lock with threads := lock.threads ++ [t] }, .deschedule (some (.lock n)))
  else (sys.updateLock n fun lock => { lock with held := true }, .proceed)

def lockOut (sys : System) (n time : Nat) : System :=
  match (sys.locks n).threads with
  | [] => sys.updateLock n fun lock => { lock with held := false }
  | next :: rest =>
    ((sys.updateLock n fun lock => { lock with threads := rest }).updateThread next fun thread =>
      { thread with time := max thread.time time, pc := thread.pc + 1 }).schedule next

/-- A resource of the executing thread raises the event that it sees, if it may. -/
def checkEvent (sys : System) (res : ResourceRef) (seen : Bool) (time : Nat) : System :=
  if sys.eventsPermitted (sys.eventable res) then
    match res with
    | .timer n => if (sys.timers n).conditionMet time then sys.event res time else sys.scheduleTimer n time
    | _ => if seen then sys.event res time else sys
  else sys

def ssyncOperation (sys : System) (t : Nat) : System × OperationResult :=
  match (sys.threads t).sync with
  | none => (sys, .deschedule none)
  | some s =>
    let result := sys.sync s t false
    (if result.2 = .kill then result.1.freeThread t else result.1, .ofSync s result.2)

def allocUnused (sys : System) (time : Nat) (use : System → Nat → System) : System :=
  match sys.unusedThread with
  | none => sys
  | some u => use (sys.allocThread u time) u

/-- The part of an instruction that works on resources, other threads and groups. -/
def operate (via : Routing) (sys : System) (t : Nat) (op : Operation) : System × OperationResult :=
  let time := (sys.threads t).time
  let used (inUse : Bool) (result : System × OperationResult) := if inUse then result else (sys, .illegal)
  match op with
  | .channel c op =>
    let result := sys.perform via ⟨t, c, op⟩
    (result.1, .ofResource (.chanend c) result.2)
  | .allocTimer n => if (sys.timers n).inUse then (sys, .proceed) else (sys.allocTimer t n, .proceed)
  | .freeTimer n => used (sys.timers n).inUse (sys.freeTimer n, .proceed)
  | .setTimer n after data =>
    used (sys.timers n).inUse
      ((sys.setTimerOwner t n).updateTimer n fun timer => { timer with after := after, data := data }, .proceed)
  | .timerIn n => used (sys.timers n).inUse (sys.timerIn t n time)
  | .allocLock n => if (sys.locks n).inUse then (sys, .proceed) else (sys.allocLock n, .proceed)
  | .freeLock n =>
    used (sys.locks n).inUse (sys.updateLock n fun lock => { lock with inUse := false }, .proceed)
  | .lockIn n => used (sys.locks n).inUse (sys.lockIn t n)
  | .lockOut n => used (sys.locks n).inUse (sys.lockOut n time, .proceed)
  | .portWait p kind => (sys.record t (kind.slot p), .deschedule (some (.port p)))
  | .enable res events seen =>
    ((sys.configure { events with owner := some t } res).checkEvent res seen time, .proceed)
  | .check res seen => (if (sys.eventable res).owner = some t then sys.checkEvent res seen time else sys, .proceed)
  | .setSR eeble ieble =>
    (sys.updateThread t fun thread => { thread with eeble := eeble, ieble := ieble }, .proceed)
  | .wait => (sys, .deschedule none)
  | .msync s =>
    let result := sys.sync s t true
    used (sys.syncs s).inUse (result.1, .ofSync s result.2)
  | .mjoin s =>
    let result := (sys.joining s).sync s t true
    used (sys.syncs s).inUse (result.1, .ofSync s result.2)
  | .ssync => sys.ssyncOperation t
  -- In a slave the instruction is an error that ends the simulation.
  | .freet => if (sys.threads t).sync.isSome then (sys, .illegal) else (sys.freeThread t, .deschedule none)
  | .allocThread => (sys.allocUnused time fun sys _ => sys, .proceed)
  | .freeThread u => used (sys.threads u).inUse (sys.freeThread u, .proceed)
  | .allocSync =>
    match sys.unusedSync with
    | none => (sys, .proceed)
    | some s => (sys.allocSync s t, .proceed)
  | .freeSync s => used (sys.syncs s).inUse (sys.freeSync s, .proceed)
  | .getst s => used (sys.syncs s).inUse (sys.allocUnused time fun sys u => sys.addChild s u, .proceed)
  | .tstart u =>
    used ((sys.threads u).inUse && (sys.threads u).ssync && (sys.threads u).sync.isNone)
      ((sys.updateThread u fun thread => { thread with ssync := false, pc := thread.pc + 1 }).schedule u, .proceed)

end System

inductive OtherRunnable where
  | timer (n : Nat)
  | port (p : Nat)
  | peripheral (num : Nat)
  deriving DecidableEq, Repr

inductive Phase where
  | fetch
  | execute (inst : ClockedInstruction)
  | descheduled (inst : ClockedInstruction) (res : Option ResourceRef)
  deriving DecidableEq, Repr

def Phase.afterOperation (inst : ClockedInstruction) : OperationResult → Phase
  | .deschedule res => .descheduled inst res
  | _ => .execute inst

inductive Running where
  | idle
  | thread (t : Nat) (phase : Phase)
  | other (r : OtherRunnable) (time : Nat)
  deriving DecidableEq, Repr

def Running.working : Running → Bool
  | .thread _ (.execute _) | .other _ _ => true
  | _ => false

structure ClockRun where
  sys : System
  /-- The places of the ports in the queue. -/
  ports : Nat → Option Nat
  peripherals : Nat → Option Nat
  running : Running
  /-- When a thread issued its current instruction. -/
  issued : Nat → Nat

inductive ClockStep where
  /-- The loop takes a thread from the queue. -/
  | dispatch (u : Nat)
  /-- The loop takes a timer, a port or a peripheral. -/
  | runOther (r : OtherRunnable)
  | timerRun
  /-- The `run` of what the loop took is over. -/
  | done
  /-- A port lets a thread that it records go on. -/
  | portWake (p : Nat) (kind : PortWait) (time : Nat)
  | portEvent (p time : Nat)
  /-- A port or a peripheral asks to be run. -/
  | scheduleOther (r : OtherRunnable) (time : Nat)
  | issue (inst : ClockedInstruction)
  | operate (op : Operation)
  | finish (cost : Nat)
  /-- The instruction ends with an exception. -/
  | trap (cost : Nat)
  | yield
  | takeEvent (cost : Nat)
  | pause (cost : Nat)

namespace System

def tick (sys : System) (t cost : Nat) : System :=
  sys.updateThread t fun thread => { thread with time := thread.time + cost }

/-- `pausedOn` stays null where the thread waits for no resource. -/
def pauseThread (sys : System) (t cost : Nat) (res : Option ResourceRef) : System :=
  sys.updateThread t fun thread =>
    { thread with time := thread.time + cost, pausedOn := res.or thread.pausedOn, waiting := true }

def portWake (sys : System) (slot : WaitSlot) (time : Nat) : System :=
  match sys.table.recorded slot with
  | [] => sys
  | t :: _ => (sys.wake t time).forget slot

end System

namespace ClockRun

def initial (started : Nat → Bool) : ClockRun where
  sys := { System.initial with
    threads := fun u => if started u then { inUse := true, wakeUpTime := some 0 } else {} }
  ports _ := none
  peripherals _ := none
  running := .idle
  issued _ := 0

variable (run : ClockRun)

def others : OtherRunnable → Option Nat
  | .timer n => (run.sys.timers n).wakeUpTime
  | .port p => run.ports p
  | .peripheral num => run.peripherals num

def setPlace (r : OtherRunnable) (place : Option Nat) : ClockRun :=
  match r with
  | .timer n => { run with sys := run.sys.updateTimer n fun timer => { timer with wakeUpTime := place } }
  | .port p => { run with ports := Function.update run.ports p place }
  | .peripheral num => { run with peripherals := Function.update run.peripherals num place }

def Queued (time : Nat) : Prop :=
  (∃ u, (run.sys.threads u).wakeUpTime = some time) ∨ ∃ r, run.others r = some time

/-- `hasTimeSliceExpired`: the first entry of the queue is due before the thread's time. -/
def Expired (t : Nat) : Prop := ∃ time, run.Queued time ∧ time < (run.sys.threads t).time

def now : Option Nat :=
  match run.running with
  | .idle => none
  | .thread t _ => some (run.sys.threads t).time
  | .other _ time => some time

def stop (sys : System) : ClockRun := { run with sys := sys, running := .idle }

def allocates (sys : System) : Operation → Option Nat
  | .allocThread => sys.unusedThread
  | .getst s => if (sys.syncs s).inUse then sys.unusedThread else none
  | _ => none

variable (via : System.Routing)

/-- One step; a step that does not fit the state changes nothing. -/
def act (label : ClockStep) : ClockRun :=
  let sys := run.sys
  match label, run.running with
  | .dispatch u, .idle =>
    if (sys.threads u).wakeUpTime.isSome then
      { run with
        sys := { sys.updateThread u fun thread => { thread with wakeUpTime := none } with currentRunnable := some u }
        running := .thread u .fetch }
    else run
  | .runOther r, .idle =>
    match run.others r with
    | none => run
    | some time =>
      let run := run.setPlace r none
      { run with sys := { run.sys with currentRunnable := none }, running := .other r time }
  | .timerRun, .other (.timer n) time => { run with sys := sys.timerRun n time }
  | .done, .other _ _ => run.stop sys
  | .portWake p kind time, running =>
    if running.working then { run with sys := sys.portWake (kind.slot p) time } else run
  | .portEvent p time, running => if running.working then { run with sys := sys.raiseEvent (.port p) time } else run
  | .scheduleOther r time, running => if running.working then run.setPlace r (some time) else run
  | .issue inst, .thread t .fetch =>
    { run with
      running := .thread t (.execute inst)
      issued := Function.update run.issued t (sys.threads t).time }
  | .operate op, .thread t (.execute inst) =>
    let result := sys.operate via t op
    { run with
      sys := result.1
      running := .thread t (Phase.afterOperation inst result.2)
      -- a thread that is allocated has not issued anything yet
      issued := fun u => if allocates sys op = some u then 0 else run.issued u }
  | .finish cost, .thread t (.execute _) => { run with sys := sys.advance t cost, running := .thread t .fetch }
  | .trap cost, .thread t (.execute _) => { run with sys := (sys.raise t).tick t cost, running := .thread t .fetch }
  | .yield, .thread t .fetch => run.stop (sys.schedule t)
  | .takeEvent cost, .thread t (.execute _) => run.stop (((sys.advance t cost).takePendingEvent t).schedule t)
  | .takeEvent cost, .thread t (.descheduled _ _) => run.stop (((sys.tick t cost).takePendingEvent t).schedule t)
  | .pause cost, .thread t (.descheduled _ res) => run.stop (sys.pauseThread t cost res)
  | _, _ => run

def Allowed : ClockStep → Prop
  | .dispatch u => ∀ w, (run.sys.threads u).wakeUpTime = some w → ∀ time, run.Queued time → w ≤ time
  | .runOther r => ∀ w, run.others r = some w → ∀ time, run.Queued time → w ≤ time
  | .issue inst => ∀ t phase, run.running = .thread t phase → inst.yieldsBefore = true → ¬run.Expired t
  | .operate op => ∀ t inst, run.running = .thread t (.execute inst) → inst ∈ op.instructions
  | .yield => ∀ t phase, run.running = .thread t phase → run.Expired t
  | .takeEvent _ => run.sys.pendingEvent.isSome = true
  | .pause _ => ∀ t inst res, run.running = .thread t (.descheduled inst res) → inst.canEvent = true →
      run.sys.pendingEvent = none
  | _ => True

end ClockRun

end Axe
