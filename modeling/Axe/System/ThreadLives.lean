import Axe.Library.References
import Axe.System.GroupMembers
import Axe.System.PendingEvents
import Axe.System.Waits

/-! Which threads can come to execute. A thread gets into the scheduler's queue through
one of the places that refer to it: the resources that record it as waiting, the resources
that send it events, its group, or the run loop itself. Freeing it clears none of them. -/

namespace Axe

namespace System

/-- A resource records the thread that pauses on it; a lock keeps a queue. -/
def record (sys : System) (t : Nat) : WaitSlot → System
  | .portOut p => sys.updatePort p fun port => { port with pausedOut := some t }
  | .portIn p => sys.updatePort p fun port => { port with pausedIn := some t }
  | .portSync p => sys.updatePort p fun port => { port with pausedSync := some t }
  | .chanIn c => sys.updateChanend c fun chanend => { chanend with pausedIn := some t }
  | .chanOut c => sys.updateChanend c fun chanend => { chanend with pausedOut := some t }
  | .timer n => sys.updateTimer n fun timer => { timer with pausedIn := some t }
  | .lock n => sys.updateLock n fun lock => { lock with threads := lock.threads ++ [t] }

def forget (sys : System) : WaitSlot → System
  | .portOut p => sys.updatePort p fun port => { port with pausedOut := none }
  | .portIn p => sys.updatePort p fun port => { port with pausedIn := none }
  | .portSync p => sys.updatePort p fun port => { port with pausedSync := none }
  | .chanIn c => sys.updateChanend c fun chanend => { chanend with pausedIn := none }
  | .chanOut c => sys.updateChanend c fun chanend => { chanend with pausedOut := none }
  | .timer n => sys.updateTimer n fun timer => { timer with pausedIn := none }
  | .lock n => sys.updateLock n fun lock => { lock with threads := lock.threads.tail }

def tstart (sys : System) (u t cost : Nat) : System :=
  if (sys.threads u).inUse && (sys.threads u).ssync && (sys.threads u).sync.isNone then
    ((sys.updateThread u fun th => { th with ssync := false, pc := th.pc + 1 }).schedule u).advance t cost
  else sys.raise t

def stops (sys : System) : GuestStep → Bool
  | .msync s t _ => (sys.syncs s).inUse && (sys.sync s t true).2 ≠ .proceed
  | .mjoin s t _ => (sys.syncs s).inUse && ((sys.joining s).sync s t true).2 ≠ .proceed
  | .ssync t _ =>
    match (sys.threads t).sync with
    | none => true
    | some s => (sys.sync s t false).2 ≠ .proceed
  | .freet t _ => (sys.threads t).sync.isNone
  | _ => false

def released (sys : System) : GuestStep → List Nat
  | .msync s _ _ =>
    if (sys.syncs s).inUse && sys.lastToArrive s && !(sys.syncs s).join then (sys.syncs s).threads else []
  | .ssync t _ =>
    match (sys.threads t).sync with
    | none => []
    | some s => if sys.lastToArrive s && !(sys.syncs s).join then (sys.syncs s).threads else []
  | _ => []

def allocated (sys : System) : GuestStep → Option Nat
  | .getrThread _ _ => sys.unusedThread
  | .getst s _ _ => if (sys.syncs s).inUse then sys.unusedThread else none
  | _ => none

end System

def GuestStep.thread : GuestStep → Option (Fin numThreads)
  | .getrThread t _ | .getrSync t _ | .getst _ t _ | .msync _ t _ | .mjoin _ t _ | .ssync t _ | .freet t _
  | .freerThread _ t _ | .freerSync _ t _ => some t
  | .cancel _ | .other _ _ => none

structure ThreadRun where
  sys : System
  executing : Option Nat
  started : Nat → Bool

inductive ThreadStep where
  /-- The loop takes a thread from the queue. -/
  | dispatch (u : Nat)
  | yield
  | pause (slot : WaitSlot)
  /-- The executing thread waits for events only. -/
  | deschedule
  /-- The executing thread takes its pending event. -/
  | takeEvent
  | configure (res : ResourceRef) (evs : Eventable)
  | tstart (u cost : Nat)
  | guest (step : GuestStep)
  /-- A resource lets a thread that it records go on. -/
  | wake (slot : WaitSlot) (time : Nat)
  | forget (slot : WaitSlot)
  | raise (res : ResourceRef) (time : Nat)
  /-- Whatever else is done to threads and resources. -/
  | work (after : System)

def ThreadStep.ofThread : ThreadStep → Bool
  | yield | pause _ | deschedule | takeEvent | configure _ _ | tstart _ _ | guest _ => true
  | dispatch _ | wake _ _ | forget _ | raise _ _ | work _ => false

namespace ThreadRun

def stop (run : ThreadRun) (sys : System) : ThreadRun := { run with sys := sys, executing := none }

def step (run : ThreadRun) (label : ThreadStep) : ThreadRun :=
  match label, run.executing with
  | .dispatch u, none =>
    if (run.sys.threads u).wakeUpTime.isSome then
      let sys := run.sys.updateThread u fun th => { th with wakeUpTime := none }
      { run with sys := { sys with currentRunnable := some u }, executing := some u }
    else run
  | .yield, some t => run.stop (run.sys.schedule t)
  | .pause slot, some t =>
    run.stop ((run.sys.record t slot).updateThread t fun th =>
      { th with pausedOn := some slot.resource, waiting := true })
  | .deschedule, some t => run.stop (run.sys.updateThread t fun th => { th with waiting := true })
  | .takeEvent, some t => run.stop ((run.sys.takePendingEvent t).schedule t)
  | .configure res evs, some _ => { run with sys := run.sys.configure evs res }
  | .tstart u cost, some t =>
    { run with
      sys := run.sys.tstart u t cost
      started := Function.update run.started u (run.started u ||
        ((run.sys.threads u).inUse && (run.sys.threads u).ssync && (run.sys.threads u).sync.isNone)) }
  | .guest step, some t =>
    { sys := run.sys.guestStep step
      executing := if run.sys.stops step then none else some t
      started := fun u =>
        if run.sys.allocated step = some u then false else run.started u || decide (u ∈ run.sys.released step) }
  | .wake slot time, _ =>
    match run.sys.table.recorded slot with
    | [] => run
    | u :: _ => { run with sys := (run.sys.forget slot).wake u time }
  | .forget slot, _ => { run with sys := run.sys.forget slot }
  | .raise res time, _ => { run with sys := run.sys.raiseEvent res time }
  | .work after, _ => { run with sys := after }
  | _, _ => run

section

variable {run : ThreadRun} {t : Nat}

lemma step_idle (idle : run.executing = none) {label : ThreadStep} (taken : label.ofThread = true) :
    run.step label = run := by
  unfold step
  rw [idle]
  cases label <;> first | rfl | cases taken

lemma step_dispatch_busy (running : run.executing = some t) (u : Nat) : run.step (.dispatch u) = run := by
  unfold step
  rw [running]

lemma step_dispatch (idle : run.executing = none) (u : Nat) : run.step (.dispatch u) =
    if (run.sys.threads u).wakeUpTime.isSome then
      { run with
        sys := { run.sys.updateThread u (fun th => { th with wakeUpTime := none }) with currentRunnable := some u }
        executing := some u }
    else run := by
  unfold step
  rw [idle]

section

variable (running : run.executing = some t)
include running

lemma step_yield : run.step .yield = run.stop (run.sys.schedule t) := by
  unfold step
  rw [running]

lemma step_pause (slot : WaitSlot) : run.step (.pause slot) =
    run.stop ((run.sys.record t slot).updateThread t fun th =>
      { th with pausedOn := some slot.resource, waiting := true }) := by
  unfold step
  rw [running]

lemma step_deschedule : run.step .deschedule =
    run.stop (run.sys.updateThread t fun th => { th with waiting := true }) := by
  unfold step
  rw [running]

lemma step_takeEvent :
    run.step .takeEvent = run.stop ((run.sys.takePendingEvent t).schedule t) := by
  unfold step
  rw [running]

lemma step_configure (res : ResourceRef) (evs : Eventable) :
    run.step (.configure res evs) = { run with sys := run.sys.configure evs res } := by
  unfold step
  rw [running]

lemma step_tstart (u cost : Nat) : run.step (.tstart u cost) =
    { run with
      sys := run.sys.tstart u t cost
      started := Function.update run.started u (run.started u ||
        ((run.sys.threads u).inUse && (run.sys.threads u).ssync && (run.sys.threads u).sync.isNone)) } := by
  unfold step
  rw [running]

lemma step_guest (step : GuestStep) : run.step (.guest step) =
    { sys := run.sys.guestStep step
      executing := if run.sys.stops step then none else some t
      started := fun u => if run.sys.allocated step = some u then false
        else run.started u || decide (u ∈ run.sys.released step) } := by
  unfold ThreadRun.step
  rw [running]

end

end

end ThreadRun

end Axe
