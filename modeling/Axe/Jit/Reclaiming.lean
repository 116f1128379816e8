import Axe.Jit.Chaining

/-! Which functions are handed to LLVM for deletion. A record outlives its functions, and an
invalidation queues it whether or not it has any. -/

namespace Axe

open Function List

namespace JITFunctionInfo

/-- The fields of a record belong to one compiled function, or the record has none. -/
def Holds (info : JITFunctionInfo) (comp : Option CompiledFunction) : Prop :=
  info.fastFunc = comp ∧ info.func = comp ∧ info.fastFuncValue = comp.map .fast ∧
    info.funcValue = comp.map .thunk

lemma Holds.withPointer {info : JITFunctionInfo} {comp : Option CompiledFunction} (holds : info.Holds comp) :
    info.withPointer.Holds comp := by
  unfold JITFunctionInfo.withPointer
  split
  · exact holds
  · exact holds

lemma Holds.isSome {info : JITFunctionInfo} {comp : Option CompiledFunction} (holds : info.Holds comp) :
    info.fastFuncValue.isSome = comp.isSome := by
  rw [holds.2.2.1]
  exact Option.isSome_map

end JITFunctionInfo

namespace JITCoreInfo

def holder (jit : JITCoreInfo) (pc : Nat) : Option CompiledFunction := (jit.functionMap pc).bind (·.fastFunc)

def Consistent (jit : JITCoreInfo) (unfinished : Nat → Prop) : Prop :=
  ∀ pc info, jit.functionMap pc = some info → ¬unfinished pc → info.Holds info.fastFunc

structure Ledger (jit : JITCoreInfo) : Prop where
  consistent : jit.Consistent fun _ => False
  known : ∀ pc comp, jit.holder pc = some comp → comp.pc = pc ∧ comp.serial < jit.compiledCount
  deleted : ∀ function ∈ jit.deleted, ∃ comp,
    (function = some (.fast comp) ∨ function = some (.thunk comp)) ∧
      comp.serial < jit.compiledCount ∧ ∀ pc, jit.holder pc ≠ some comp
  once : jit.deleted.Nodup

variable {jit : JITCoreInfo} {unfinished : Nat → Prop}

lemma holder_reclaim (jit : JITCoreInfo) (pc : Nat) : (jit.reclaim pc).holder = update jit.holder pc none := by
  funext q
  unfold holder
  rw [reclaim_functionMap]
  by_cases here : q = pc
  · subst here
    rw [if_pos rfl, update_self]
    cases jit.functionMap q <;> rfl
  · rw [if_neg here, update_of_ne here]

lemma compiledCount_reclaim (jit : JITCoreInfo) (pc : Nat) : (jit.reclaim pc).compiledCount = jit.compiledCount := by
  unfold reclaim
  split <;> rfl

lemma Consistent.reclaim (cons : jit.Consistent unfinished) (pc : Nat) :
    (jit.reclaim pc).Consistent unfinished := by
  intro q info found done
  rw [reclaim_functionMap] at found
  by_cases here : q = pc
  · rw [if_pos here] at found
    obtain ⟨old, -, rfl⟩ := Option.map_eq_some_iff.mp found
    exact ⟨rfl, rfl, rfl, rfl⟩
  · rw [if_neg here] at found
    exact cons q info found done

variable {comp : CompiledFunction} {pc : Nat} {info : JITFunctionInfo} {pre : JITCoreInfo}

lemma Ledger.deleted_reclaim (ledger : jit.Ledger) (has : jit.holder pc = some comp) :
    (jit.reclaim pc).deleted = jit.deleted ++ [some (.thunk comp), some (.fast comp)] := by
  obtain ⟨info, found, isFast⟩ := Option.bind_eq_some_iff.mp has
  have holds := ledger.consistent pc info found not_false
  rw [isFast] at holds
  unfold reclaim
  rw [found]
  simp only [holds.2.2.1, holds.2.2.2, Option.map_some]

lemma Ledger.deleted_reclaim_none (ledger : jit.Ledger) (found : jit.functionMap pc = some info)
    (empty : jit.holder pc = none) : none ∈ (jit.reclaim pc).deleted := by
  have holds := ledger.consistent pc info found not_false
  have isFast : info.fastFunc = none := by simpa [holder, found] using empty
  rw [isFast] at holds
  unfold reclaim
  rw [found]
  simp only [holds.2.2.1, holds.2.2.2, Option.map_none]
  simp

lemma recorded_reclaims (jit : JITCoreInfo) (queue : List Nat) (pc : Nat) :
    ((queue.foldl reclaim jit).functionMap pc).isSome = (jit.functionMap pc).isSome := by
  induction queue generalizing jit with
  | nil => rfl
  | cons first queue ih =>
    rw [foldl_cons, ih, reclaim_functionMap]
    by_cases here : pc = first
    · rw [if_pos here, here, Option.isSome_map]
    · rw [if_neg here]

lemma Ledger.reclaim (ledger : jit.Ledger) (has : jit.holder pc = some comp) : (jit.reclaim pc).Ledger := by
  obtain ⟨own, old⟩ := ledger.known pc comp has
  have fresh (fn : Option LLVMFunction) (isOwn : fn = some (.thunk comp) ∨ fn = some (.fast comp)) :
      fn ∉ jit.deleted := by
    intro mem
    obtain ⟨other, which, -, gone⟩ := ledger.deleted fn mem
    have same : other = comp := by
      rcases isOwn with rfl | rfl <;> rcases which with is | is <;> simp_all
    exact gone pc (same ▸ has)
  have away {q : Nat} {other : CompiledFunction} (held : (jit.reclaim pc).holder q = some other) :
      q ≠ pc ∧ jit.holder q = some other := by
    rw [holder_reclaim] at held
    by_cases here : q = pc
    · subst here
      rw [update_self] at held
      cases held
    · rw [update_of_ne here] at held
      exact ⟨here, held⟩
  constructor
  case consistent => exact ledger.consistent.reclaim pc
  case known =>
    intro q other held
    rw [compiledCount_reclaim]
    exact ledger.known q other (away held).2
  case deleted =>
    intro fn mem
    rw [ledger.deleted_reclaim has] at mem
    rw [compiledCount_reclaim]
    rcases mem_append.mp mem with pre | now
    · obtain ⟨other, which, small, gone⟩ := ledger.deleted fn pre
      exact ⟨other, which, small, fun q held => gone q (away held).2⟩
    · have isOwn : fn = some (.thunk comp) ∨ fn = some (.fast comp) := by simpa using now
      refine ⟨comp, isOwn.symm, old, fun q held => ?_⟩
      obtain ⟨here, pre⟩ := away held
      exact here ((ledger.known q comp pre).1.symm.trans own)
  case once =>
    rw [ledger.deleted_reclaim has]
    apply nodup_append.mpr
    refine ⟨ledger.once, by simp, fun fn pre own now same => ?_⟩
    exact fresh fn (by simpa [same] using now) pre

lemma Ledger.reclaims (ledger : jit.Ledger) {queue : List Nat} (distinct : queue.Nodup)
    (comp : ∀ pc ∈ queue, (jit.holder pc).isSome = true) : (queue.foldl JITCoreInfo.reclaim jit).Ledger ∧
      ∀ pc, (queue.foldl JITCoreInfo.reclaim jit).holder pc = if pc ∈ queue then none else jit.holder pc := by
  induction queue generalizing jit with
  | nil => exact ⟨ledger, fun pc => by simp⟩
  | cons first queue ih =>
    obtain ⟨ne, distinct⟩ := nodup_cons.mp distinct
    obtain ⟨fn, has⟩ := Option.isSome_iff_exists.mp (comp first (by simp))
    have others : ∀ pc ∈ queue, ((jit.reclaim first).holder pc).isSome = true := by
      intro pc mem
      have apart : pc ≠ first := fun same => ne (same ▸ mem)
      rw [holder_reclaim, update_of_ne apart]
      exact comp pc (mem_cons_of_mem _ mem)
    obtain ⟨after, holders⟩ := ih (ledger.reclaim has) distinct others
    refine ⟨after, fun pc => ?_⟩
    rw [foldl_cons, holders, holder_reclaim]
    by_cases here : pc = first
    · subst here
      simp [ne]
    · rw [update_of_ne here]
      simp [here]

/-! ### Compiling -/

lemma Consistent.update (cons : jit.Consistent unfinished) {next : JITCoreInfo}
    (map : next.functionMap = update jit.functionMap pc (some info))
    (holds : ¬unfinished pc → info.Holds info.fastFunc) : next.Consistent unfinished := by
  intro q other found done
  rw [map] at found
  by_cases here : q = pc
  · subst here
    rw [update_self] at found
    cases found
    exact holds done
  · rw [update_of_ne here] at found
    exact cons q other found done

lemma Consistent.getD (cons : jit.Consistent unfinished) (done : ¬unfinished pc) :
    ((jit.functionMap pc).getD {}).Holds ((jit.functionMap pc).getD {}).fastFunc := by
  cases found : jit.functionMap pc with
  | none => exact ⟨rfl, rfl, rfl, rfl⟩
  | some info => exact cons pc info found done

lemma holder_eq (jit : JITCoreInfo) (pc : Nat) : jit.holder pc = ((jit.functionMap pc).getD {}).fastFunc := by
  unfold holder
  cases jit.functionMap pc <;> rfl

/-- What is known of the tables while the code for a pc is made: the record of the pc has its first function. -/
structure Building (jit : JITCoreInfo) (comp : CompiledFunction) (pre : JITCoreInfo) : Prop where
  consistent : jit.Consistent (· = comp.pc)
  started : ((jit.functionMap comp.pc).getD {}).fastFuncValue = some (.fast comp)
  holders : ∀ pc, pc ≠ comp.pc → jit.holder pc = pre.holder pc
  deleted : jit.deleted = pre.deleted
  count : jit.compiledCount = pre.compiledCount + 1
  queue : jit.unreachableFunctions = pre.unreachableFunctions

lemma Ledger.beginFunction (ledger : jit.Ledger) (comp : CompiledFunction) :
    (jit.beginFunction comp).Building comp jit where
  consistent := by
    have weaker : jit.Consistent (· = comp.pc) := fun pc info found _ => ledger.consistent pc info found not_false
    exact weaker.update rfl fun done => absurd rfl done
  started := by simp [JITCoreInfo.beginFunction]
  holders pc apart := by
    unfold holder JITCoreInfo.beginFunction
    dsimp only
    rw [update_of_ne apart]
  deleted := rfl
  count := rfl
  queue := rfl

section

variable (building : jit.Building comp pre)
include building

lemma Building.getNextFragmentPointer
    (pc : Nat) : (jit.getNextFragmentPointer pc).Building comp pre where
  consistent := by
    apply building.consistent.update rfl
    intro done
    rw [JITFunctionInfo.withPointer_fastFunc]
    exact (building.consistent.getD done).withPointer
  started := by
    unfold JITCoreInfo.getNextFragmentPointer
    dsimp only
    by_cases here : comp.pc = pc
    · subst here
      rw [update_self, Option.getD_some]
      unfold JITFunctionInfo.withPointer
      split
      · exact building.started
      · exact building.started
    · rw [update_of_ne here]
      exact building.started
  holders q apart := by
    rw [← building.holders q apart, holder_eq, holder_eq]
    unfold JITCoreInfo.getNextFragmentPointer
    dsimp only
    by_cases here : q = pc
    · subst here
      rw [update_self, Option.getD_some, JITFunctionInfo.withPointer_fastFunc]
    · rw [update_of_ne here]
  deleted := building.deleted
  count := building.count
  queue := building.queue

lemma Building.chain
    (succs : List Nat) : (succs.foldl JITCoreInfo.getNextFragmentPointer jit).Building comp pre := by
  induction succs generalizing jit with
  | nil => exact building
  | cons pc succs ih => exact ih (building.getNextFragmentPointer pc)

lemma Building.finishFunction (ledger : pre.Ledger)
    (new : comp.serial = pre.compiledCount) : (jit.finishFunction comp).Ledger ∧
      (jit.finishFunction comp).holder = update pre.holder comp.pc (some comp) ∧
      (jit.finishFunction comp).unreachableFunctions = pre.unreachableFunctions := by
  have holders : (jit.finishFunction comp).holder = update pre.holder comp.pc (some comp) := by
    funext q
    unfold holder JITCoreInfo.finishFunction
    dsimp only
    by_cases here : q = comp.pc
    · subst here
      rw [update_self, update_self]
      rfl
    · rw [update_of_ne here, update_of_ne here]
      exact building.holders q here
  refine ⟨?_, holders, building.queue⟩
  constructor
  case consistent =>
    intro q info found _
    by_cases here : q = comp.pc
    · subst here
      unfold JITCoreInfo.finishFunction at found
      dsimp only at found
      rw [update_self] at found
      cases found
      exact ⟨rfl, rfl, building.started, rfl⟩
    · have kept : jit.functionMap q = some info := by
        unfold JITCoreInfo.finishFunction at found
        dsimp only at found
        rwa [update_of_ne here] at found
      exact building.consistent q info kept here
  case known =>
    intro q other held
    have count : (jit.finishFunction comp).compiledCount = pre.compiledCount + 1 := building.count
    rw [holders] at held
    rw [count]
    by_cases here : q = comp.pc
    · subst here
      rw [update_self] at held
      cases held
      exact ⟨rfl, by omega⟩
    · rw [update_of_ne here] at held
      obtain ⟨own, old⟩ := ledger.known q other held
      exact ⟨own, by omega⟩
  case deleted =>
    intro fn mem
    have count : (jit.finishFunction comp).compiledCount = pre.compiledCount + 1 := building.count
    have earlier : fn ∈ pre.deleted := building.deleted ▸ mem
    obtain ⟨other, which, small, gone⟩ := ledger.deleted fn earlier
    refine ⟨other, which, by omega, fun q held => ?_⟩
    rw [holders] at held
    by_cases here : q = comp.pc
    · subst here
      rw [update_self] at held
      cases held
      omega
    · rw [update_of_ne here] at held
      exact gone q held
  case once =>
    have same : (jit.finishFunction comp).deleted = pre.deleted := building.deleted
    rw [same]
    exact ledger.once

end

end JITCoreInfo

namespace JITState

variable {Inst : Type} {st : JITState Inst} {core : Core Inst}

/-- Nothing has been compiled or deleted, and the decode cache holds no compiled code. -/
def Fresh (st : JITState Inst) : Prop :=
  st.Initial ∧ st.core.jit.deleted = [] ∧
    ∀ pc comp, st.core.ramDecodeCache.opcode pc ≠ .function comp

/-- What is to be said of a reclaim in a state: it hands over functions, each of them once, and neither the decode
cache nor a chaining pointer leads to one of them afterwards. -/
structure ReclaimsRight (st : JITState Inst) : Prop where
  functions : none ∉ st.core.jit.reclaimUnreachableFunctions.deleted
  once : st.core.jit.reclaimUnreachableFunctions.deleted.Nodup
  cells : ∀ pc comp, st.core.ramDecodeCache.opcode pc = .function comp →
    some (.thunk comp) ∉ st.core.jit.reclaimUnreachableFunctions.deleted ∧
      some (.fast comp) ∉ st.core.jit.reclaimUnreachableFunctions.deleted
  pointers : ∀ pc info comp, st.core.jit.reclaimUnreachableFunctions.functionMap pc = some info →
    info.ptr = some (.code comp) → some (.fast comp) ∉ st.core.jit.reclaimUnreachableFunctions.deleted

/-- A pc that the JIT has a record of is invalidated only while it has code and is not queued already. -/
def QueuesOnce (st : JITState Inst) : JITCall → Prop
  | .compileBlock _ _ => True
  | .invalidate pc => ∀ info, st.core.jit.functionMap pc = some info →
    info.fastFuncValue.isSome = true ∧ pc ∉ st.core.jit.unreachableFunctions

/-- What holds between the calls of a run that queues once: what is queued and what the decode cache leads to has
code, and nothing is both. -/
structure Owned (st : JITState Inst) : Prop where
  tables : st.Tables
  ledger : st.core.jit.Ledger
  distinct : st.core.jit.unreachableFunctions.Nodup
  queued : ∀ pc ∈ st.core.jit.unreachableFunctions, (st.core.jit.holder pc).isSome = true
  cells : ∀ pc comp, st.core.ramDecodeCache.opcode pc = .function comp →
    st.core.jit.holder pc = some comp ∧ pc ∉ st.core.jit.unreachableFunctions

lemma Fresh.owned (fresh : st.Fresh) : st.Owned := by
  obtain ⟨init, deleted, cells⟩ := fresh
  have none (pc : Nat) : st.core.jit.holder pc = none := by simp [JITCoreInfo.holder, init.1 pc]
  constructor
  case tables => exact init.tables
  case ledger =>
    constructor
    · intro pc info found
      rw [init.1 pc] at found
      cases found
    · intro pc comp held
      rw [none pc] at held
      cases held
    · intro fn mem
      rw [deleted] at mem
      cases mem
    · rw [deleted]
      exact nodup_nil
  case distinct =>
    rw [init.2.1]
    exact nodup_nil
  case queued =>
    intro pc mem
    rw [init.2.1] at mem
    cases mem
  case cells => exact fun pc comp cell => absurd cell (cells pc comp)

lemma ledger_live {jit : JITCoreInfo} (ledger : jit.Ledger) {pc : Nat} {comp : CompiledFunction}
    (held : jit.holder pc = some comp) :
    some (.thunk comp) ∉ jit.deleted ∧ some (.fast comp) ∉ jit.deleted := by
  constructor
  · intro mem
    obtain ⟨other, which, -, gone⟩ := ledger.deleted _ mem
    have same : other = comp := by rcases which with is | is <;> simp_all
    exact gone pc (same ▸ held)
  · intro mem
    obtain ⟨other, which, -, gone⟩ := ledger.deleted _ mem
    have same : other = comp := by rcases which with is | is <;> simp_all
    exact gone pc (same ▸ held)

lemma Owned.reclaimed (owned : st.Owned) : st.core.jit.reclaimUnreachableFunctions.Ledger ∧
      (∀ pc comp, st.core.ramDecodeCache.opcode pc = .function comp →
        st.core.jit.reclaimUnreachableFunctions.holder pc = some comp) := by
  obtain ⟨ledger, holders⟩ := owned.ledger.reclaims owned.distinct owned.queued
  refine ⟨⟨ledger.consistent, ledger.known, ledger.deleted, ledger.once⟩, fun pc comp cell => ?_⟩
  obtain ⟨held, unqueued⟩ := owned.cells pc comp cell
  have kept := holders pc
  rw [if_neg unqueued, held] at kept
  exact kept

lemma Owned.reclaimsRight (owned : st.Owned) : st.ReclaimsRight := by
  obtain ⟨ledger, cells⟩ := owned.reclaimed
  constructor
  case functions =>
    intro mem
    obtain ⟨comp, is | is, -⟩ := ledger.deleted _ mem
    · cases is
    · cases is
  case once => exact ledger.once
  case cells => exact fun pc comp cell => ledger_live ledger (cells pc comp cell)
  case pointers =>
    intro pc info comp found ptr
    have ps := owned.tables.reclaim.linked.pointer pc info found
    have code : info.fastFunc = some comp := by
      rcases ps with missing | target
      · rw [missing] at ptr
        cases ptr
      · rw [target] at ptr
        unfold JITFunctionInfo.chainTarget at ptr
        cases fast : info.fastFunc with
        | none => simp [fast] at ptr
        | some other => simpa [fast] using ptr
    have held : st.core.jit.reclaimUnreachableFunctions.holder pc = some comp := by
      simp [JITCoreInfo.holder, found, code]
    exact (ledger_live ledger held).2

/-- What holds inside `compileBlock`, when nothing is queued. -/
structure Compiling (core : Core Inst) : Prop where
  ledger : core.jit.Ledger
  empty : core.jit.unreachableFunctions = []
  cells : ∀ pc comp, core.ramDecodeCache.opcode pc = .function comp → core.jit.holder pc = some comp

lemma Compiling.compileFragment (compiling : Compiling core) (startPc : Nat) (frag : Fragment) :
    Compiling (core.compileFragment startPc frag) := by
  obtain ⟨ledger, holders, queue⟩ :=
    ((compiling.ledger.beginFunction ⟨startPc, core.jit.compiledCount, frag.size⟩).chain
      frag.successors).finishFunction compiling.ledger rfl
  constructor
  case ledger => exact ledger
  case empty => exact queue.trans compiling.empty
  case cells =>
    intro pc comp cell
    have holder : (core.compileFragment startPc frag).jit.holder =
        update core.jit.holder startPc (some ⟨startPc, core.jit.compiledCount, frag.size⟩) := holders
    have cells : (core.compileFragment startPc frag).ramDecodeCache.opcode =
        update core.ramDecodeCache.opcode startPc
          (.function ⟨startPc, core.jit.compiledCount, frag.size⟩) := rfl
    rw [cells] at cell
    rw [holder]
    by_cases here : pc = startPc
    · subst here
      rw [update_self] at cell ⊢
      cases cell
      rfl
    · rw [update_of_ne here] at cell ⊢
      exact compiling.cells pc comp cell

lemma Compiling.compileFragments (frag : Nat → Fragment) (n : Nat) (compiling : Compiling core)
    (pc : Nat) : Compiling (core.compileFragments frag n pc).1 := by
  induction n generalizing core pc with
  | zero => exact compiling
  | succ n ih =>
    have next : Compiling (core.compileOneFragment pc (frag pc)).core := by
      unfold Core.compileOneFragment
      split
      · exact compiling
      · split
        · exact compiling.compileFragment pc (frag pc)
        · exact compiling
    unfold Core.compileFragments
    dsimp only
    split
    · exact next
    · exact ih next _

section

variable (owned : st.Owned)
include owned

lemma Owned.compileBlock (pc : Nat) (frag : Nat → Fragment) :
    (st.step (.compileBlock pc frag)).Owned := by
  obtain ⟨ledger, cells⟩ := owned.reclaimed
  have ready : Compiling { st.core with jit := st.core.jit.reclaimUnreachableFunctions } := ⟨ledger, rfl, cells⟩
  have comp := ready.compileFragments frag (st.core.ramDecodeCache.size + 1) pc
  have empty : (st.step (.compileBlock pc frag)).core.jit.unreachableFunctions = [] := comp.empty
  constructor
  case tables => exact owned.tables.step _
  case ledger => exact comp.ledger
  case distinct =>
    rw [empty]
    exact nodup_nil
  case queued =>
    intro q mem
    rw [empty] at mem
    cases mem
  case cells =>
    intro q fn cell
    rw [empty]
    exact ⟨comp.cells q fn cell, not_mem_nil⟩

lemma Owned.invalidate {pc : Nat} (queuesOnce : st.QueuesOnce (.invalidate pc)) :
    (st.step (.invalidate pc)).Owned := by
  cases found : st.core.jit.functionMap pc with
  | none => rwa [step_invalidate_unknown found]
  | some rec =>
    obtain ⟨comp, unqueued⟩ := queuesOnce rec found
    have tables := owned.tables.step (.invalidate pc)
    have holds := owned.ledger.consistent pc rec found not_false
    have held : (st.core.jit.holder pc).isSome = true := by
      rw [holds.isSome] at comp
      simpa [JITCoreInfo.holder, found] using comp
    rw [step_invalidate_known found] at tables ⊢
    constructor
    case tables => exact tables
    case ledger => exact ⟨owned.ledger.consistent, owned.ledger.known, owned.ledger.deleted, owned.ledger.once⟩
    case distinct =>
      apply nodup_append.mpr
      refine ⟨owned.distinct, by simp, fun q mem other isPc same => ?_⟩
      rw [same, mem_singleton.mp isPc] at mem
      exact unqueued mem
    case queued =>
      intro q mem
      rcases mem_append.mp mem with pre | isPc
      · exact owned.queued q pre
      · rw [mem_singleton.mp isPc]
        exact held
    case cells =>
      intro q fn cell
      have cells : (st.core.clearOpcode pc).ramDecodeCache.opcode =
          update st.core.ramDecodeCache.opcode pc (.decode st.core.ramDecodeCache.tracingEnabled) := rfl
      rw [cells] at cell
      by_cases here : q = pc
      · subst here
        rw [update_self] at cell
        cases cell
      · rw [update_of_ne here] at cell
        obtain ⟨has, free⟩ := owned.cells q fn cell
        exact ⟨has, by simpa [here] using free⟩

lemma Owned.step {call : JITCall} (queuesOnce : st.QueuesOnce call) : (st.step call).Owned := by
  cases call with
  | compileBlock pc frag => exact owned.compileBlock pc frag
  | invalidate pc => exact owned.invalidate queuesOnce

/-- What is queued last is reclaimed after the rest: if it has no code by then, null is handed over. -/
lemma Owned.reclaims_null {pc : Nat} {rec : JITFunctionInfo} (found : st.core.jit.functionMap pc = some rec)
    (bad : rec.fastFuncValue.isSome = false ∨ pc ∈ st.core.jit.unreachableFunctions) :
    none ∈ (st.step (.invalidate pc)).core.jit.reclaimUnreachableFunctions.deleted := by
  have holds := owned.ledger.consistent pc rec found not_false
  rw [step_invalidate_known found]
  unfold JITCoreInfo.reclaimUnreachableFunctions
  rw [foldl_append, foldl_cons, foldl_nil]
  generalize queued : ({ st.core.jit with
    unreachableFunctions := st.core.jit.unreachableFunctions ++ [pc] } : JITCoreInfo) = jit
  have ledger : jit.Ledger := by
    subst queued
    exact ⟨owned.ledger.consistent, owned.ledger.known, owned.ledger.deleted, owned.ledger.once⟩
  have same : jit.holder = st.core.jit.holder := by
    subst queued
    rfl
  have noted : jit.functionMap pc = some rec := by
    subst queued
    exact found
  obtain ⟨after, holders⟩ := ledger.reclaims owned.distinct fun q mem => by rw [same]; exact owned.queued q mem
  have empty : (st.core.jit.unreachableFunctions.foldl JITCoreInfo.reclaim jit).holder pc = none := by
    rw [holders, same]
    rcases bad with uncompiled | isQueued
    · rw [holds.isSome] at uncompiled
      have without : st.core.jit.holder pc = none := by
        simpa [JITCoreInfo.holder, found] using uncompiled
      rw [without, ite_self]
    · rw [if_pos isQueued]
  have kept := JITCoreInfo.recorded_reclaims jit st.core.jit.unreachableFunctions pc
  rw [noted, Option.isSome_some] at kept
  obtain ⟨left, isLeft⟩ := Option.isSome_iff_exists.mp kept
  exact after.deleted_reclaim_none isLeft empty

lemma Owned.reclaimsRight_step_iff (call : JITCall) : (st.step call).ReclaimsRight ↔ st.QueuesOnce call := by
  constructor
  · intro right
    cases call with
    | compileBlock pc frag => trivial
    | invalidate pc =>
      intro rec found
      by_contra bad
      apply right.functions
      apply owned.reclaims_null found
      rw [not_and_or, Bool.not_eq_true, not_not] at bad
      exact bad
  · intro queuesOnce
    exact (owned.step queuesOnce).reclaimsRight

end

/-- In every state of a run a reclaim hands only functions to LLVM that are there and are not reachable afterwards,
exactly when the run invalidates a pc that the JIT has a record of only while it has code and is not queued. -/
theorem reclaims_right_iff (st : JITState Inst) (fresh : st.Fresh) (calls : List JITCall) :
    (∀ passed, passed <+: calls → (passed.foldl step st).ReclaimsRight) ↔ Runs.Meets step QueuesOnce st calls :=
  Runs.always_iff_meets (fun _ _ owned _ queuesOnce => Owned.step owned queuesOnce)
    (fun _ call owned _ _ => owned.reclaimsRight_step_iff call)
    st calls (Runs.meets_true st calls) fresh.owned fresh.owned.reclaimsRight

lemma blank_fresh : blank.Fresh := ⟨blank_initial, rfl, fun _ _ cell => by cases cell⟩

/-- A compiled block is invalidated and compiled again. -/
theorem reclaims_right_recompiled :
    blank.Fresh ∧ ∀ passed, passed <+: [.compileBlock 0 twoBlocks, .invalidate 0, .compileBlock 0 twoBlocks] →
      (passed.foldl step blank).ReclaimsRight := by
  refine ⟨blank_fresh, (reclaims_right_iff blank blank_fresh _).mpr ⟨trivial, ?_, trivial, trivial⟩⟩
  intro info recorded
  cases recorded
  exact ⟨rfl, List.not_mem_nil⟩

/-- The first block chains to a pc that has not been compiled; invalidating that pc queues a record without code. -/
theorem null_reclaimed : ¬([.compileBlock 0 twoBlocks, .invalidate 4].foldl step blank).ReclaimsRight := by
  intro right
  apply right.functions
  decide

end JITState

end Axe
