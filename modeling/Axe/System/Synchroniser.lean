import Axe.System.State
import Mathlib.Data.List.Nodup

/-! Synchronisers: the group of a master and its slaves, the barrier they meet at,
and the instructions that work on groups and on threads as resources. -/

namespace Axe

def numThreads : Nat := 8

def numSyncs : Nat := 8

inductive SyncResult where
  | proceed
  | deschedule
  | kill
  deriving DecidableEq, Repr

namespace System

def freeThread (sys : System) (t : Nat) : System :=
  sys.updateThread t fun th => { th with inUse := false }

def allocThread (sys : System) (t time : Nat) : System :=
  sys.updateThread t fun th =>
    { th with inUse := true, sync := none, ssync := true, time := time, pausedOn := none }

def allocSync (sys : System) (s master : Nat) : System :=
  sys.updateSync s fun _ => { inUse := true, threads := [master], numPaused := 0, join := false }

def freeSync (sys : System) (s : Nat) : System :=
  sys.updateSync s fun sync => { sync with inUse := false }

def addChild (sys : System) (s child : Nat) : System :=
  let sys := sys.updateSync s fun sync =>
    { sync with threads := sync.threads ++ [child], numPaused := (sync.numPaused + 1) % 2 ^ 32 }
  sys.updateThread child fun th => { th with sync := some s }

def maxThreadTime (sys : System) (threads : List Nat) : Nat :=
  threads.foldl (fun time u => max time (sys.threads u).time) 0

def releaseThread (newTime arriver : Nat) (slave : Bool) (sys : System) (u : Nat) : System :=
  let sys := sys.updateThread u fun th => { th with time := newTime }
  if u = arriver then sys
  else
    (sys.updateThread u fun th =>
      { th with ssync := !slave && th.ssync, pc := th.pc + 1 }).schedule u

def releaseThreads (sys : System) (newTime arriver : Nat) : List Nat → System
  | [] => sys
  | master :: slaves =>
    slaves.foldl (releaseThread newTime arriver true) (sys.releaseThread newTime arriver false master)

def freeThreads (sys : System) (threads : List Nat) : System := threads.foldl freeThread sys

def sync (sys : System) (s t : Nat) (isMaster : Bool) : System × SyncResult :=
  let group := sys.syncs s
  if (group.numPaused + 1) % 2 ^ 32 < group.threads.length then
    let sys := sys.updateSync s fun group => { group with numPaused := (group.numPaused + 1) % 2 ^ 32 }
    (if isMaster then sys else sys.updateThread t fun th => { th with ssync := true }, .deschedule)
  else
    let newTime := sys.maxThreadTime group.threads
    let sys := sys.updateSync s fun group => { group with numPaused := 0 }
    if !group.join then (sys.releaseThreads newTime t group.threads, .proceed)
    else
      match group.threads with
      | [] => (sys, .proceed)
      | master :: slaves =>
        let sys := sys.updateThread master fun th => { th with time := newTime }
        let done (sys : System) : System :=
          sys.updateSync s fun group => { group with join := false, threads := [master] }
        if isMaster then (done (sys.freeThreads slaves), .proceed)
        else (done ((sys.schedule master).freeThreads (slaves.filter (· ≠ t))), .kill)

def finishSync (sys : System) (s t cost : Nat) : SyncResult → System
  | .proceed => sys.updateThread t fun th => { th with time := th.time + cost, pc := th.pc + 1 }
  | .deschedule =>
    sys.updateThread t fun th =>
      { th with time := th.time + cost, pausedOn := some (.sync s), waiting := true }
  | .kill =>
    sys.updateThread t fun th =>
      { th with inUse := false, time := th.time + cost, waiting := true }

def raise (sys : System) (t : Nat) : System :=
  sys.updateThread t fun th => { th with eeble := false, ieble := false, pc := th.kep }

def msync (sys : System) (s t cost : Nat) : System :=
  if (sys.syncs s).inUse then
    let res := sys.sync s t true
    res.1.finishSync s t cost res.2
  else sys.raise t

def mjoin (sys : System) (s t cost : Nat) : System :=
  if (sys.syncs s).inUse then
    let res := (sys.updateSync s fun group => { group with join := true }).sync s t true
    res.1.finishSync s t cost res.2
  else sys.raise t

def ssync (sys : System) (t cost : Nat) : System :=
  match (sys.threads t).sync with
  | none => sys.updateThread t fun th => { th with time := th.time + cost, waiting := true }
  | some s =>
    let res := sys.sync s t false
    res.1.finishSync s t cost res.2

def unusedThread (sys : System) : Option Nat :=
  (List.range numThreads).find? fun u => !(sys.threads u).inUse

def unusedSync (sys : System) : Option Nat :=
  (List.range numSyncs).find? fun s => !(sys.syncs s).inUse

def advance (sys : System) (t cost : Nat) : System :=
  sys.updateThread t fun th => { th with time := th.time + cost, pc := th.pc + 1 }

def getst (sys : System) (s t cost : Nat) : System :=
  if (sys.syncs s).inUse then
    match sys.unusedThread with
    | some child => ((sys.allocThread child (sys.threads t).time).addChild s child).advance t cost
    | none => sys.advance t cost
  else sys.raise t

def getrThread (sys : System) (t cost : Nat) : System :=
  match sys.unusedThread with
  | some u => (sys.allocThread u (sys.threads t).time).advance t cost
  | none => sys.advance t cost

def getrSync (sys : System) (t cost : Nat) : System :=
  match sys.unusedSync with
  | some s => (sys.allocSync s t).advance t cost
  | none => sys.advance t cost

/-- `FREET`. In a slave it is an error that ends the simulation. -/
def freet (sys : System) (t cost : Nat) : System :=
  if (sys.threads t).sync.isSome then sys
  else
    (sys.freeThread t).updateThread t fun th => { th with time := th.time + cost, waiting := true }

def freerThread (sys : System) (u t cost : Nat) : System :=
  if (sys.threads u).inUse then (sys.freeThread u).advance t cost else sys.raise t

def freerSync (sys : System) (s t cost : Nat) : System :=
  if (sys.syncs s).inUse then (sys.freeSync s).advance t cost else sys.raise t

end System

end Axe
