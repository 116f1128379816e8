import Axe.Library.Barrier
import Axe.System.GroupMembers

/-! The barrier of one group. The master makes slaves and executes `MSYNC` and
`MJOIN`, the slaves execute `SSYNC`, and members that wait are called away by
interrupts and come back to the instruction they waited in. -/

namespace Axe

open Function List

open Barrier (OthersWait)

def Thread.released (th : Thread) (newTime : Nat) (slave : Bool) : Thread :=
  { th with
    time := newTime, ssync := !slave && th.ssync, pc := th.pc + 1, waiting := false, pausedOn := none
    wakeUpTime := some newTime }

namespace System

variable (sys : System)

section

variable (newTime arriver : Nat)

lemma releaseThread_threads (slave : Bool) (u : Nat) :
    (sys.releaseThread newTime arriver slave u).threads = update sys.threads u
        (if u = arriver then { sys.threads u with time := newTime }
        else (sys.threads u).released newTime slave) := by
  simp only [releaseThread]
  split
  · rfl
  · simp [schedule, updateThread, Thread.released]

@[simp] lemma releaseThread_syncs (slave : Bool) (u : Nat) :
    (sys.releaseThread newTime arriver slave u).syncs = sys.syncs := by
  simp only [releaseThread]
  split <;> rfl

lemma releaseSlaves_threads {slaves : List Nat} (nodup : slaves.Nodup) (u : Nat) :
    (slaves.foldl (releaseThread newTime arriver true) sys).threads u =
      if u ∈ slaves then
        if u = arriver then { sys.threads u with time := newTime } else (sys.threads u).released newTime true
      else sys.threads u := by
  induction slaves generalizing sys with
  | nil => simp
  | cons fst rest ih =>
    obtain ⟨new, nodup⟩ := nodup_cons.mp nodup
    rw [foldl_cons, ih _ nodup, releaseThread_threads]
    by_cases here : u = fst
    · subst here
      simp [new]
    · simp [here]

lemma releaseSlaves_syncs (slaves : List Nat) :
    (slaves.foldl (releaseThread newTime arriver true) sys).syncs = sys.syncs := by
  induction slaves generalizing sys with
  | nil => rfl
  | cons fst rest ih => rw [foldl_cons, ih, releaseThread_syncs]

lemma releaseThreads_threads {master : Nat} {slaves : List Nat}
    (nodup : (master :: slaves).Nodup) (u : Nat) : (sys.releaseThreads newTime arriver (master :: slaves)).threads u =
      if u ∈ master :: slaves then
        if u = arriver then { sys.threads u with time := newTime }
        else (sys.threads u).released newTime (u ≠ master)
      else sys.threads u := by
  obtain ⟨new, slavesNodup⟩ := nodup_cons.mp nodup
  rw [releaseThreads, releaseSlaves_threads _ _ _ slavesNodup, releaseThread_threads]
  by_cases isMaster : u = master
  · subst isMaster
    simp [new]
  · simp [isMaster]

@[simp] lemma releaseThreads_syncs (ts : List Nat) :
    (sys.releaseThreads newTime arriver ts).syncs = sys.syncs := by
  cases ts with
  | nil => rfl
  | cons master slaves => rw [releaseThreads, releaseSlaves_syncs, releaseThread_syncs]

end

lemma freeThreads_threads (ts : List Nat) (u : Nat) : (sys.freeThreads ts).threads u =
      if u ∈ ts then { sys.threads u with inUse := false } else sys.threads u := by
  induction ts generalizing sys with
  | nil => rfl
  | cons fst rest ih =>
    have step := ih (sys.freeThread fst)
    simp only [freeThreads, foldl_cons] at step ⊢
    rw [step]
    by_cases here : u = fst
    · subst here
      by_cases again : u ∈ rest <;> simp [freeThread, updateThread, again]
    · by_cases later : u ∈ rest <;> simp [freeThread, updateThread, here, later]

@[simp] lemma freeThreads_syncs (ts : List Nat) : (sys.freeThreads ts).syncs = sys.syncs := by
  induction ts generalizing sys with
  | nil => rfl
  | cons fst rest ih => exact ih (sys.freeThread fst)

structure IsMaxTime (threads : List Nat) (newTime : Nat) : Prop where
  bound : ∀ u ∈ threads, (sys.threads u).time ≤ newTime
  reached : ∃ u ∈ threads, (sys.threads u).time = newTime

lemma foldl_max_time (ts : List Nat) (start : Nat) :
    start ≤ ts.foldl (fun time u => max time (sys.threads u).time) start ∧
      (∀ u ∈ ts, (sys.threads u).time ≤ ts.foldl (fun time u => max time (sys.threads u).time) start) ∧
      (ts.foldl (fun time u => max time (sys.threads u).time) start = start ∨
        ∃ u ∈ ts, (sys.threads u).time = ts.foldl (fun time u => max time (sys.threads u).time) start) := by
  induction ts generalizing start with
  | nil => simp
  | cons fst rest ih =>
    obtain ⟨above, bound, reach⟩ := ih (max start (sys.threads fst).time)
    simp only [foldl_cons]
    refine ⟨by omega, ?_, ?_⟩
    · intro u mem
      rcases mem_cons.mp mem with rfl | inRest
      · omega
      · exact bound u inRest
    · rcases reach with same | ⟨u, inRest, same⟩
      · rcases Nat.le_total start (sys.threads fst).time with later | earlier
        · exact .inr ⟨fst, mem_cons_self .., by omega⟩
        · exact .inl (by omega)
      · exact .inr ⟨u, mem_cons_of_mem _ inRest, same⟩

lemma isMaxTime_maxThreadTime {ts : List Nat} (ne : ts ≠ []) :
    sys.IsMaxTime ts (sys.maxThreadTime ts) := by
  obtain ⟨-, bound, reach⟩ := sys.foldl_max_time ts 0
  refine ⟨bound, ?_⟩
  rcases reach with zero | reach
  · obtain ⟨fst, rest, rfl⟩ := exists_cons_of_ne_nil ne
    have below := bound fst (mem_cons_self ..)
    exact ⟨fst, mem_cons_self .., by unfold maxThreadTime; omega⟩
  · exact reach

def arrive (s t cost : Nat) (isMaster : Bool) : System :=
  (sys.sync s t isMaster).1.finishSync s t cost (sys.sync s t isMaster).2

variable {sys : System} {s t : Nat}

section

variable (cost : Nat) (isMaster : Bool)

lemma membership_arrive (apart : (sys.lastToArrive s && (sys.syncs s).join) = false) :
    (sys.arrive s t cost isMaster).membership = sys.membership := by
  rw [arrive, membership_sync, apart]
  split <;> rfl

lemma arrive_early (early : sys.lastToArrive s = false) : (sys.arrive s t cost isMaster).threads =
        update sys.threads t
          { sys.threads t with
            ssync := !isMaster || (sys.threads t).ssync, time := (sys.threads t).time + cost
            pausedOn := some (.sync s), waiting := true } ∧
      (sys.arrive s t cost isMaster).syncs s =
        { sys.syncs s with numPaused := ((sys.syncs s).numPaused + 1) % 2 ^ 32 } := by
  have waits : ((sys.syncs s).numPaused + 1) % 2 ^ 32 < (sys.syncs s).threads.length := by
    simpa [lastToArrive] using early
  simp only [arrive, sync, waits, if_true]
  cases isMaster <;> simp [finishSync, updateThread, updateSync]

variable {master : Nat} {slaves : List Nat}

section

variable (last : sys.lastToArrive s = true)
include last

lemma arrive_last (join : (sys.syncs s).join = false)
    (listed : (sys.syncs s).threads = master :: slaves) (nodup : (master :: slaves).Nodup)
    (mem : t ∈ master :: slaves) : (∀ u, (sys.arrive s t cost isMaster).threads u =
        if u = t then
          { sys.threads t with
            time := sys.maxThreadTime (master :: slaves) + cost, pc := (sys.threads t).pc + 1 }
        else if u ∈ master :: slaves then
          (sys.threads u).released (sys.maxThreadTime (master :: slaves)) (u ≠ master)
        else sys.threads u) ∧
      (sys.arrive s t cost isMaster).syncs s = { sys.syncs s with numPaused := 0 } := by
  have full : ¬((sys.syncs s).numPaused + 1) % 2 ^ 32 < (sys.syncs s).threads.length := by
    simpa [lastToArrive] using last
  simp only [arrive, sync, full, if_false, join, Bool.not_false, if_true, finishSync]
  constructor
  · intro u
    by_cases here : u = t
    · subst here
      simp [updateThread, listed, releaseThreads_threads _ _ _ nodup, mem, updateSync]
    · simp [updateThread, listed, releaseThreads_threads _ _ _ nodup, updateSync, here]
  · simp [updateThread, updateSync, join]

lemma arrive_join_master (join : (sys.syncs s).join = true)
    (listed : (sys.syncs s).threads = master :: slaves) (nodup : (master :: slaves).Nodup) :
    (∀ u, (sys.arrive s master cost true).threads u =
        if u = master then
          { sys.threads master with
            time := sys.maxThreadTime (master :: slaves) + cost, pc := (sys.threads master).pc + 1 }
        else if u ∈ slaves then { sys.threads u with inUse := false }
        else sys.threads u) ∧
      (sys.arrive s master cost true).syncs s =
        { sys.syncs s with numPaused := 0, join := false, threads := [master] } := by
  have full : ¬((sys.syncs s).numPaused + 1) % 2 ^ 32 < (master :: slaves).length := by
    simpa [lastToArrive, listed] using last
  have notSlave : master ∉ slaves := (nodup_cons.mp nodup).1
  simp only [arrive, sync, listed, full, if_false, join, Bool.not_true, Bool.false_eq_true, if_true, finishSync]
  constructor
  · intro u
    by_cases here : u = master
    · subst here
      simp [updateThread, updateSync, freeThreads_threads, notSlave]
    · simp [updateThread, updateSync, freeThreads_threads, here]
  · simp [updateThread, updateSync]

lemma arrive_join_slave (join : (sys.syncs s).join = true)
    (listed : (sys.syncs s).threads = master :: slaves) (nodup : (master :: slaves).Nodup) (slave : t ∈ slaves) :
    (∀ u, (sys.arrive s t cost false).threads u =
        if u = master then
          { sys.threads master with
            time := sys.maxThreadTime (master :: slaves), waiting := false, pausedOn := none
            wakeUpTime := some (sys.maxThreadTime (master :: slaves)) }
        else if u = t then
          { sys.threads t with inUse := false, time := (sys.threads t).time + cost, waiting := true }
        else if u ∈ slaves then { sys.threads u with inUse := false }
        else sys.threads u) ∧
      (sys.arrive s t cost false).syncs s =
        { sys.syncs s with numPaused := 0, join := false, threads := [master] } := by
  have full : ¬((sys.syncs s).numPaused + 1) % 2 ^ 32 < (master :: slaves).length := by
    simpa [lastToArrive, listed] using last
  have notSlave : master ∉ slaves := (nodup_cons.mp nodup).1
  have apart : t ≠ master := fun same => notSlave (same ▸ slave)
  simp only [arrive, sync, listed, full, if_false, join, Bool.not_true, Bool.false_eq_true, finishSync]
  constructor
  · intro u
    by_cases isMaster : u = master
    · subst isMaster
      simp [updateThread, updateSync, schedule, freeThreads_threads, notSlave, Ne.symm apart]
    · by_cases here : u = t
      · subst here
        simp [updateThread, updateSync, schedule, freeThreads_threads, isMaster]
      · simp [updateThread, updateSync, schedule, freeThreads_threads, isMaster, here]
  · simp [updateThread, updateSync, schedule]

end

end

lemma event_at_barrier {res : ResourceRef} (time : Nat) (owner : (sys.eventable res).owner = some t)
    (idle : sys.currentRunnable ≠ some t) (wait : (sys.threads t).waiting = true)
    (paused : (sys.threads t).pausedOn = some (.sync s)) : (sys.event res time).syncs s =
        { sys.syncs s with numPaused := ((sys.syncs s).numPaused + 2 ^ 32 - 1) % 2 ^ 32 } ∧
      (∀ u, u ≠ t → (sys.event res time).threads u = sys.threads u) ∧
      ∃ ieble, (sys.event res time).threads t =
        { sys.threads t with
          time := time, waiting := false, pausedOn := none, wakeUpTime := some time, eeble := false
          ieble := ieble, pc := (sys.eventable res).vector } := by
  have result : sys.event res time =
      (((sys.updateThread t fun th => { th with time := time }).cancel (.sync s)).schedule t).completeEvent t
        res (sys.eventable res).interruptMode := by
    simp [event, owner, idle, takeEvent, updateThread, wait, paused]
  have sameOwner : ((((sys.updateThread t fun th => { th with time := time }).cancel (.sync s)).schedule
      t).updateThread t fun th =>
        { th with eeble := false, ieble := !(sys.eventable res).interruptMode && th.ieble }).eventable res =
      sys.eventable res := by
    cases res <;> rfl
  rw [result]
  simp only [completeEvent, sameOwner, owner]
  refine ⟨?_, ?_, !(sys.eventable res).interruptMode && (sys.threads t).ieble, ?_⟩
  · simp only [updateThread, updateSync, schedule, cancel, update_self]
  · intro u other
    simp only [updateThread, updateSync, schedule, cancel, update_of_ne other]
  · simp only [updateThread, updateSync, schedule, cancel, update_self]

end System

end Axe
