import Axe.System.Clocks
import Axe.Thread.Kernel

/-! Locks, with the threads that take them. An `in` that finds the lock free is completed by the
instruction itself, and one that has to wait is completed by the `out` of the thread before. -/

namespace Axe

open List

structure LockThread where
  context : ThreadContext
  time : Nat := 0
  pausedOn : Option ResourceRef := none
  wakeUpTime : Option Nat := none

def ThreadContext.getNextPC (core : CodeSpace) (th : ThreadContext) : ThreadContext :=
  if th.pc = core.getInterpretOneAddr ∨ th.pc = core.getRunJitAddr then
    { th with pc := th.pendingPc + 1 }
  else { th with pc := th.pc + 1 }

namespace LockThread

variable (th : LockThread)

def inContinue (dest : Register) (value : BitVec 32) (cost : Nat) : LockThread :=
  let context := th.context.regWritePending .short
  { th with
    context := { context.regWriteBack .short dest value with pc := context.pc + 1 }
    time := th.time + cost }

def inDeschedule (res : ResourceRef) (cost : Nat) : LockThread :=
  let context := th.context.regWritePending .short
  { th with
    context := { context with sr := context.sr.set .waiting }
    time := th.time + cost
    pausedOn := some res }

def outContinue (cost : Nat) : LockThread :=
  let context := th.context.regWritePending .short
  { th with context := { context with pc := context.pc + 1 }, time := th.time + cost }

def schedule : LockThread :=
  { th with
    context := { th.context with sr := th.context.sr.clear .waiting }
    pausedOn := none
    wakeUpTime := some th.time }

def unpause (core : CodeSpace) (time : Nat) : LockThread :=
  let th := if th.time < time then { th with time := time } else th
  { th with context := th.context.getNextPC core }.schedule

end LockThread

namespace Lock

def lockIn (lock : Lock) (t : Nat) : Lock × Bool :=
  if lock.held then ({ lock with threads := lock.threads ++ [t] }, false)
  else ({ lock with held := true }, true)

def lockOut (lock : Lock) : Lock × Option Nat :=
  match lock.threads with
  | [] => ({ lock with held := false }, none)
  | next :: rest => ({ lock with threads := rest }, some next)

end Lock

/-- An `in` that has to wait, and the thread as it was before. -/
structure LockIssue where
  thread : LockThread
  dest : Register
  cost : Nat

/-- How such an `in` was completed: by an `out` at a time, with what the thread became. -/
structure LockCompletion where
  issue : LockIssue
  release : Nat
  result : LockThread

structure LockRun where
  lock : Lock
  threads : Nat → LockThread
  /-- The threads in the order of their `in` instructions. -/
  requests : List Nat
  /-- The threads in the order in which their `in` was completed. -/
  acquired : List Nat
  /-- The threads whose `in` was completed and that have not done an `out` since. -/
  holders : List Nat
  issued : Nat → LockIssue
  completions : List LockCompletion

inductive LockStep where
  | lockIn (t : Nat) (dest : Register) (cost : Nat)
  | lockOut (t cost : Nat)
  /-- A thread executes anything else, or another resource lets it go on. -/
  | other (t : Nat) (th : LockThread)

namespace LockRun

variable (core : CodeSpace) (num : Nat) (id : BitVec 32)

def step (run : LockRun) : LockStep → LockRun
  | .lockIn t dest cost =>
    let th := run.threads t
    match run.lock.lockIn t with
    | (lock, true) =>
      { run with
        lock := lock
        threads := Function.update run.threads t (th.inContinue dest id cost)
        requests := run.requests ++ [t]
        acquired := run.acquired ++ [t]
        holders := run.holders ++ [t] }
    | (lock, false) =>
      { run with
        lock := lock
        threads := Function.update run.threads t (th.inDeschedule (.lock num) cost)
        requests := run.requests ++ [t]
        issued := Function.update run.issued t ⟨th, dest, cost⟩ }
  | .lockOut t cost =>
    let time := (run.threads t).time
    let threads := Function.update run.threads t ((run.threads t).outContinue cost)
    match run.lock.lockOut with
    | (lock, none) => { run with lock := lock, threads := threads, holders := run.holders.erase t }
    | (lock, some next) =>
      let woken := (run.threads next).unpause core time
      { run with
        lock := lock
        threads := Function.update threads next woken
        acquired := run.acquired ++ [next]
        holders := run.holders.erase t ++ [next]
        completions := run.completions ++ [⟨run.issued next, time, woken⟩] }
  | .other t th => { run with threads := Function.update run.threads t th }

/-- A thread that is paused executes nothing, an `out` is made by a thread that holds the lock, and nothing else makes
or ends a pause on it. -/
def Allowed (run : LockRun) : LockStep → Prop
  | .lockIn t _ _ => (run.threads t).pausedOn = none
  | .lockOut t _ => (run.threads t).pausedOn = none ∧ t ∈ run.holders
  | .other t th => (run.threads t).pausedOn ≠ some (.lock num) ∧ th.pausedOn ≠ some (.lock num)

structure Fresh (run : LockRun) : Prop where
  held : run.lock.held = false
  threads : run.lock.threads = []
  requests : run.requests = []
  acquired : run.acquired = []
  holders : run.holders = []
  completions : run.completions = []
  pausedOn : ∀ t, (run.threads t).pausedOn ≠ some (.lock num)

end LockRun

/-- The thread is as if its `in` had succeeded at once, but for its time, and is scheduled. -/
structure LockCompletion.Right (id : BitVec 32) (completion : LockCompletion) : Prop where
  context : completion.result.context =
    (completion.issue.thread.inContinue completion.issue.dest id completion.issue.cost).context
  pausedOn : completion.result.pausedOn = completion.issue.thread.pausedOn
  scheduled : completion.result.wakeUpTime = some completion.result.time
  issue : completion.issue.thread.time ≤ completion.result.time
  release : completion.release ≤ completion.result.time

/-- At most one thread holds the lock, the threads get it in the order in which they asked for it, those that wait are
known to it and wait for a thread that holds it, and a wait ends as it should. -/
structure LockRun.Right (num : Nat) (id : BitVec 32) (run : LockRun) : Prop where
  exclusive : run.holders.length ≤ 1
  order : run.requests = run.acquired ++ run.lock.threads
  remembered : ∀ t, (run.threads t).pausedOn = some (.lock num) ↔ t ∈ run.lock.threads
  owed : run.lock.threads ≠ [] → run.holders ≠ []
  completed : ∀ completion ∈ run.completions, completion.Right id

/-- The `in` would write nothing that is not there: the ID is in the destination register, or, in dual issue mode, is
to be written to it already. The thread was not marked as waiting, and its pc is not that of a pseudo instruction. -/
def LockIssue.NothingToWrite (core : CodeSpace) (id : BitVec 32) (issue : LockIssue) : Prop :=
  let context := issue.thread.context.regWritePending .short
  (if context.dualIssue then context.bufferInitialized = true ∧ context.regsBuffer issue.dest = id
    else context.regs issue.dest = id) ∧
    context.sr.clear .waiting = context.sr ∧
    (context.pc = core.getInterpretOneAddr ∨ context.pc = core.getRunJitAddr → context.pendingPc = context.pc)

def LockRun.Careful (core : CodeSpace) (id : BitVec 32) (run : LockRun) : LockStep → Prop
  | .lockOut _ _ => ∀ next ∈ run.lock.threads.head?, (run.issued next).NothingToWrite core id
  | _ => True

lemma Status.clear_set (sr : Status) (bit : SRBit) : (sr.set bit).clear bit = sr.clear bit := by
  simp only [Status.set, Status.clear]
  ext i below
  simp only [BitVec.getElem_and, BitVec.getElem_or, BitVec.getElem_not]
  cases (Status.mask bit)[i] <;> simp

lemma ThreadContext.getNextPC_eq (core : CodeSpace) (th : ThreadContext) : th.getNextPC core = { th with
        pc := (if th.pc = core.getInterpretOneAddr ∨ th.pc = core.getRunJitAddr then th.pendingPc
          else th.pc) + 1 } := by
  unfold ThreadContext.getNextPC
  split <;> rfl

lemma ThreadContext.eq_writeRegister_iff (th : ThreadContext) (dest : Register) (value pc pc' : BitVec 32)
    (sr : Status) : { th with pc := pc, sr := sr } = { th.writeRegister dest value with pc := pc' } ↔
      (if th.dualIssue then th.bufferInitialized = true ∧ th.regsBuffer dest = value
        else th.regs dest = value) ∧ sr = th.sr ∧ pc = pc' := by
  unfold ThreadContext.writeRegister
  cases th.dualIssue with
  | false => simp [ThreadContext.mk.injEq, Function.eq_update_self_iff, and_comm]
  | true =>
    cases th.bufferInitialized with
    | false => simp [ThreadContext.mk.injEq]
    | true => simp [ThreadContext.mk.injEq, Function.eq_update_self_iff, and_comm]

lemma LockThread.unpause_time (core : CodeSpace) (th : LockThread) (time : Nat) :
    (th.unpause core time).time = max th.time time := by
  unfold LockThread.unpause
  split
  · exact (Nat.max_eq_right (Nat.le_of_lt ‹_›)).symm
  · exact (Nat.max_eq_left (Nat.le_of_not_lt ‹_›)).symm

/-- An `out` does for the thread what the `in` would have done exactly if there is nothing to write. -/
lemma LockCompletion.right_iff (core : CodeSpace) (num : Nat) (id : BitVec 32) (issue : LockIssue) (time : Nat)
    (run : issue.thread.pausedOn = none) :
    LockCompletion.Right id ⟨issue, time, (issue.thread.inDeschedule (.lock num) issue.cost).unpause core time⟩ ↔
      issue.NothingToWrite core id := by
  let context := issue.thread.context.regWritePending .short
  let th := issue.thread.inDeschedule (.lock num) issue.cost
  have res : (th.unpause core time).context =
      { context with
        pc := (if context.pc = core.getInterpretOneAddr ∨ context.pc = core.getRunJitAddr then context.pendingPc
          else context.pc) + 1
        sr := context.sr.clear .waiting } := by
    unfold LockThread.unpause
    split <;>
      simp [LockThread.schedule, ThreadContext.getNextPC_eq, th, LockThread.inDeschedule, Status.clear_set, context]
  have iff : (th.unpause core time).context = (issue.thread.inContinue issue.dest id issue.cost).context ↔
      issue.NothingToWrite core id := by
    rw [res]
    refine (ThreadContext.eq_writeRegister_iff context issue.dest id _ _ _).trans ?_
    refine and_congr Iff.rfl (and_congr Iff.rfl ?_)
    rw [BitVec.add_left_inj]
    split <;> simp_all [context]
  have later := LockThread.unpause_time core th time
  refine ⟨fun right => iff.mp right.context, fun nil => ⟨iff.mpr nil, run.symm, rfl, ?_, ?_⟩⟩
  · exact later ▸ Nat.le_trans (Nat.le_add_right _ issue.cost) (Nat.le_max_left ..)
  · exact later ▸ Nat.le_max_right ..

open ThreadContext (smallCore)

namespace LockRun

variable {core : CodeSpace} {num : Nat} {id : BitVec 32}

/-- Who waits is paused since an `in` of its own, and somebody holds a lock that is held. -/
structure Inv (num : Nat) (run : LockRun) : Prop where
  order : run.requests = run.acquired ++ run.lock.threads
  free : run.lock.held = false → run.lock.threads = [] ∧ run.holders = []
  taken : run.lock.held = true → ∃ holder, run.holders = [holder]
  distinct : run.lock.threads.Nodup
  remembered : ∀ t, (run.threads t).pausedOn = some (.lock num) ↔ t ∈ run.lock.threads
  waiting : ∀ t ∈ run.lock.threads, (run.issued t).thread.pausedOn = none ∧
    run.threads t = (run.issued t).thread.inDeschedule (.lock num) (run.issued t).cost

variable {run : LockRun}

lemma Fresh.inv (fresh : run.Fresh num) : run.Inv num where
  order := by rw [fresh.requests, fresh.acquired, fresh.threads]; rfl
  free _ := ⟨fresh.threads, fresh.holders⟩
  taken held := by simp [fresh.held] at held
  distinct := fresh.threads ▸ nodup_nil
  remembered t := by simp [fresh.threads, fresh.pausedOn t]
  waiting t waits := by simp [fresh.threads] at waits

section

variable (inv : run.Inv num)
include inv

lemma Inv.right_iff : run.Right num id ↔ ∀ completion ∈ run.completions, completion.Right id := by
  refine ⟨fun right => right.completed, fun done => ⟨?_, inv.order, inv.remembered, ?_, done⟩⟩
  · cases held : run.lock.held with
    | false => simp [(inv.free held).2]
    | true =>
      obtain ⟨holder, alone⟩ := inv.taken held
      simp [alone]
  · intro waited
    cases held : run.lock.held with
    | false => exact absurd (inv.free held).1 waited
    | true =>
      obtain ⟨holder, alone⟩ := inv.taken held
      simp [alone]

variable {t : Nat} {label : LockStep}

lemma Inv.lockIn (runs : (run.threads t).pausedOn = none) (dest : Register)
    (cost : Nat) : (step core num id run (.lockIn t dest cost)).Inv num := by
  have absent : t ∉ run.lock.threads := fun waits => by simp [(inv.remembered t).mpr waits] at runs
  cases held : run.lock.held with
  | false =>
    obtain ⟨nobody, unheld⟩ := inv.free held
    simp only [step, Lock.lockIn, held]
    refine ⟨?_, nofun, fun _ => ⟨t, by simp [unheld]⟩, inv.distinct, fun u => ?_, fun u waits => ?_⟩
    · simp [inv.order, nobody]
    · by_cases same : u = t
      · subst same
        simp [LockThread.inContinue, runs, absent]
      · simpa [same] using inv.remembered u
    · simp [nobody] at waits
  | true =>
    simp only [step, Lock.lockIn, held, if_true]
    refine ⟨?_, fun free => ?_, fun _ => inv.taken held, ?_, fun u => ?_, fun u waits => ?_⟩
    · simp [inv.order]
    · simp at free
    · simpa [nodup_append] using ⟨inv.distinct, fun u waits same => absent (same ▸ waits)⟩
    · by_cases same : u = t
      · subst same
        simp [LockThread.inDeschedule]
      · simpa [same] using inv.remembered u
    · by_cases same : u = t
      · subst same
        simp [runs]
      · simpa [same] using inv.waiting u (by simpa [same] using waits)

lemma Inv.holder (holds : t ∈ run.holders) : run.lock.held = true ∧ run.holders = [t] := by
  cases held : run.lock.held with
  | false => simp [(inv.free held).2] at holds
  | true =>
    obtain ⟨holder, alone⟩ := inv.taken held
    rw [alone, mem_singleton] at holds
    exact ⟨rfl, holds ▸ alone⟩

lemma Inv.lockOut (runs : (run.threads t).pausedOn = none) (holds : t ∈ run.holders)
    (cost : Nat) : (step core num id run (.lockOut t cost)).Inv num := by
  obtain ⟨held, alone⟩ := inv.holder holds
  have absent : t ∉ run.lock.threads := fun waits => by simp [(inv.remembered t).mpr waits] at runs
  cases q : run.lock.threads with
  | nil =>
    simp only [step, Lock.lockOut, q]
    refine ⟨by simp [inv.order, q], fun _ => ⟨rfl, by simp [alone]⟩, nofun, nodup_nil, fun u => ?_, nofun⟩
    by_cases same : u = t
    · subst same
      simp [LockThread.outContinue, runs]
    · simpa [same, q] using inv.remembered u
  | cons next rest =>
    have others := inv.distinct
    rw [q, nodup_cons] at others
    have remembered : ∀ u, (run.threads u).pausedOn = some (.lock num) ↔ u = next ∨ u ∈ rest := fun u => by
      rw [inv.remembered u, q, mem_cons]
    simp only [step, Lock.lockOut, q]
    refine ⟨by simp [inv.order, q], fun free => ?_, fun _ => ⟨next, by simp [alone]⟩, others.2, fun u => ?_,
      fun u waits => ?_⟩
    · simp [held] at free
    · by_cases woken : u = next
      · subst woken
        simp [LockThread.unpause, LockThread.schedule, others.1]
      · by_cases same : u = t
        · subst same
          simpa [woken, runs, LockThread.outContinue] using remembered u
        · simpa [woken, same] using remembered u
    · have notNext : u ≠ next := fun same => others.1 (same ▸ waits)
      have notSelf : u ≠ t := fun same => absent (q ▸ mem_cons_of_mem _ (same ▸ waits))
      simpa [notNext, notSelf] using inv.waiting u (q ▸ mem_cons_of_mem _ waits)

lemma Inv.other {th : LockThread} (pre : (run.threads t).pausedOn ≠ some (.lock num))
    (after : th.pausedOn ≠ some (.lock num)) : (step core num id run (.other t th)).Inv num := by
  have absent : t ∉ run.lock.threads := fun waits => pre ((inv.remembered t).mpr waits)
  refine ⟨inv.order, inv.free, inv.taken, inv.distinct, fun u => ?_, fun u waits => ?_⟩
  · by_cases same : u = t
    · subst same
      simp [step, after, absent]
    · simpa [step, same] using inv.remembered u
  · have ne : u ≠ t := fun same => absent (same ▸ waits)
    simpa [step, ne] using inv.waiting u waits

lemma Inv.step (may : run.Allowed num label) : (LockRun.step core num id run label).Inv num := by
  cases label with
  | lockIn t dest cost => exact inv.lockIn may dest cost
  | lockOut t cost => exact inv.lockOut may.1 may.2 cost
  | other t th => exact inv.other may.1 may.2

lemma Inv.completed_iff (pre : ∀ completion ∈ run.completions, completion.Right id) :
    (∀ completion ∈ (LockRun.step core num id run label).completions, completion.Right id) ↔
      run.Careful core id label := by
  cases label with
  | lockIn t dest cost =>
    have same : (LockRun.step core num id run (.lockIn t dest cost)).completions = run.completions := by
      cases held : run.lock.held <;> simp [LockRun.step, Lock.lockIn, held]
    simpa [same, Careful] using pre
  | other t th => simpa [LockRun.step, Careful] using pre
  | lockOut t cost =>
    cases q : run.lock.threads with
    | nil => simpa [LockRun.step, Lock.lockOut, q, Careful] using pre
    | cons next rest =>
      obtain ⟨runs, paused⟩ := inv.waiting next (q ▸ mem_cons_self)
      have done := LockCompletion.right_iff core num id (run.issued next) (run.threads t).time runs
      rw [← paused] at done
      simp only [LockRun.step, Lock.lockOut, q, Careful, head?_cons, Option.mem_def, Option.some.injEq,
        forall_eq', mem_append, mem_singleton, or_imp, forall_and, forall_eq, done]
      exact and_iff_right pre

end

/-- A lock behaves as it should in every state of a run exactly if no `out` lets a thread go on whose `in` would have
changed more than the pc. -/
theorem right_iff_careful (core : CodeSpace) (num : Nat) (id : BitVec 32) (run : LockRun) (fresh : run.Fresh num)
    (steps : List LockStep) (may : Runs.Meets (step core num id) (Allowed num) run steps) :
    (∀ passed, passed <+: steps → (passed.foldl (step core num id) run).Right num id) ↔
      Runs.Meets (step core num id) (Careful core id) run steps := by
  refine Runs.always_iff_meets (fun _ _ inv may _ => inv.step may) (fun run label inv may right => ?_) run
    steps may fresh.inv (fresh.inv.right_iff.mpr fun completion completed => ?_)
  · rw [(inv.step may).right_iff]
    exact inv.completed_iff right.completed
  · simp [fresh.completions] at completed

/-- All threads have the same value in every register, and nothing has happened to the lock. -/
def lockStart (value : BitVec 32) : LockRun where
  lock := { inUse := true }
  threads _ :=
    { context :=
        { inUse := true, regs := fun _ => value, bufferInitialized := false, decodeCache := smallCore.ramDecodeCache } }
  requests := []
  acquired := []
  holders := []
  issued _ := ⟨{ context := { decodeCache := smallCore.ramDecodeCache } }, .r0, 0⟩
  completions := []

def handOver : List LockStep := [.lockIn 0 .r0 4, .lockIn 1 .r0 4, .lockOut 0 4]

lemma lockStart_fresh (value : BitVec 32) : (lockStart value).Fresh 0 :=
  ⟨rfl, rfl, rfl, rfl, rfl, rfl, fun _ => nofun⟩

lemma handOver_allowed (value : BitVec 32) : Runs.Meets (step smallCore 0 5) (Allowed 0) (lockStart value) handOver :=
  ⟨rfl, rfl, ⟨rfl, mem_singleton.mpr rfl⟩, trivial⟩

/-- The ID is in the destination register already. -/
theorem right_when_known : (handOver.foldl (step smallCore 0 5) (lockStart 5)).Right 0 5 ∧
      (handOver.foldl (step smallCore 0 5) (lockStart 5)).acquired = [0, 1] :=
  ⟨(right_iff_careful smallCore 0 5 (lockStart 5) (lockStart_fresh 5) handOver (handOver_allowed 5)).mpr
    ⟨trivial, trivial, fun next first => by cases first; exact ⟨rfl, rfl, by decide⟩, trivial⟩ handOver
      List.prefix_rfl, rfl⟩

/-- Thread 1 goes on after its `in`, but the register is not written. -/
theorem lock_id_not_written :
    (lockStart 0).Fresh 0 ∧ Runs.Meets (step smallCore 0 5) (Allowed 0) (lockStart 0) handOver ∧
      ((handOver.foldl (step smallCore 0 5) (lockStart 0)).threads 1).context.pc = 1 ∧
      ((handOver.foldl (step smallCore 0 5) (lockStart 0)).threads 1).context.regs .r0 = 0 ∧
      ¬(handOver.foldl (step smallCore 0 5) (lockStart 0)).Right 0 5 := by
  refine ⟨lockStart_fresh 0, handOver_allowed 0, rfl, rfl, fun right => ?_⟩
  have written := (right.completed _ (List.mem_singleton.mpr rfl)).context
  exact absurd (congrArg (fun context => context.regs .r0) written) (by decide)

end LockRun

end Axe
