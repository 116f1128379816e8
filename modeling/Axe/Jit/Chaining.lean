import Axe.Jit.Fragments

/-! A fragment can be reached through its decode-cache cell and through the
pointer that other fragments chain by. An invalidation resets the first at once
and the second only at the next compilation. -/

namespace Axe

open Function

namespace JITFunctionInfo

/-- A chaining pointer holds the fragment's code, or the stub when there is none. -/
def PointsToCode (info : JITFunctionInfo) : Prop :=
  info.ptr = none ∨ info.ptr = some info.chainTarget

@[simp] lemma withPointer_fastFunc (info : JITFunctionInfo) : info.withPointer.fastFunc = info.fastFunc := by
  unfold withPointer
  split <;> rfl

lemma PointsToCode.withPointer {info : JITFunctionInfo} (ps : info.PointsToCode) :
    info.withPointer.PointsToCode := by
  unfold JITFunctionInfo.withPointer
  split
  · exact ps
  · exact .inr rfl

end JITFunctionInfo

namespace JITCoreInfo

structure Linked (stale : Nat → Bool) (jit : JITCoreInfo) : Prop where
  pointer : ∀ pc info, jit.functionMap pc = some info → info.PointsToCode
  fresh : ∀ pc info, stale pc → jit.functionMap pc = some info → info.fastFunc = none

variable {stale : Nat → Bool} {jit : JITCoreInfo}

section

variable (linked : Linked stale jit)
include linked

lemma Linked.update {next : JITCoreInfo} {pc : Nat} {info : JITFunctionInfo}
    (map : next.functionMap = update jit.functionMap pc (some info))
    (ps : info.PointsToCode) (fresh : stale pc → info.fastFunc = none) : Linked stale next where
  pointer := by
    intro q other found
    rw [map] at found
    by_cases same : q = pc
    · subst same
      rw [update_self] at found
      cases found
      exact ps
    · rw [update_of_ne same] at found
      exact linked.pointer q other found
  fresh := by
    intro q other mark found
    rw [map] at found
    by_cases same : q = pc
    · subst same
      rw [update_self] at found
      cases found
      exact fresh mark
    · rw [update_of_ne same] at found
      exact linked.fresh q other mark found

lemma Linked.getD (pc : Nat) : ((jit.functionMap pc).getD {}).PointsToCode ∧
      (stale pc → ((jit.functionMap pc).getD {}).fastFunc = none) := by
  cases found : jit.functionMap pc with
  | none => exact ⟨.inl rfl, fun _ => rfl⟩
  | some info => exact ⟨linked.pointer pc info found, fun mark => linked.fresh pc info mark found⟩

lemma Linked.getNextFragmentPointer (pc : Nat) : Linked stale (jit.getNextFragmentPointer pc) := by
  obtain ⟨ps, fresh⟩ := linked.getD pc
  exact linked.update rfl ps.withPointer (by simpa using fresh)

lemma Linked.chain (succs : List Nat) :
    Linked stale (succs.foldl JITCoreInfo.getNextFragmentPointer jit) := by
  induction succs generalizing jit with
  | nil => exact linked
  | cons pc succs ih => exact ih (linked.getNextFragmentPointer pc)

lemma Linked.beginFunction (comp : CompiledFunction) : Linked stale (jit.beginFunction comp) :=
  linked.update rfl (linked.getD comp.pc).1 (linked.getD comp.pc).2

lemma Linked.finishFunction {comp : CompiledFunction}
    (current : stale comp.pc = false) : Linked stale (jit.finishFunction comp) := by
  refine linked.update rfl ?_ (by simp [current])
  cases ptr : ((jit.functionMap comp.pc).getD {}).ptr with
  | none => exact .inl (by simp)
  | some target => exact .inr (by simp [JITFunctionInfo.chainTarget])

lemma Linked.mono {fewer : Nat → Bool} (included : ∀ pc, fewer pc → stale pc) : Linked fewer jit :=
  ⟨linked.pointer, fun pc info mark => linked.fresh pc info (included pc mark)⟩

end

/-- What `reclaim` of a list of pcs does to a record: one of a listed pc loses its code
and its pointer goes back to the stub. -/
def Reclaimed (pcs : List Nat) (pre after : JITCoreInfo) : Prop :=
  ∀ pc info, after.functionMap pc = some info →
    (info.fastFunc = none ∧ info.PointsToCode) ∨ (pc ∉ pcs ∧ pre.functionMap pc = some info)

lemma reclaim_functionMap (jit : JITCoreInfo) (first pc : Nat) : (jit.reclaim first).functionMap pc =
      if pc = first then (jit.functionMap first).map fun info => { ptr := info.ptr.map fun _ => .stub }
      else jit.functionMap pc := by
  unfold reclaim
  cases found : jit.functionMap first with
  | none => by_cases same : pc = first <;> simp [same, found]
  | some info => simp [update_apply]

lemma foldl_reclaim (pcs : List Nat) (jit : JITCoreInfo) : Reclaimed pcs jit (pcs.foldl reclaim jit) := by
  induction pcs generalizing jit with
  | nil => exact fun pc info found => .inr ⟨by simp, found⟩
  | cons first pcs ih =>
    intro pc info found
    rcases ih (jit.reclaim first) pc info found with clr | ⟨absent, kept⟩
    · exact .inl clr
    · rw [reclaim_functionMap] at kept
      split_ifs at kept with same
      · obtain ⟨old, -, rfl⟩ := Option.map_eq_some_iff.mp kept
        refine .inl ⟨rfl, ?_⟩
        cases ptr : old.ptr with
        | none => exact .inl rfl
        | some target => exact .inr rfl
      · exact .inr ⟨by simp [same, absent], kept⟩

end JITCoreInfo

/-- A core, and the pcs whose bytes were overwritten since they were last compiled:
those for which `invalidate` has returned true. -/
structure JITState (Inst : Type) where
  core : Core Inst
  overwritten : Nat → Bool

inductive JITCall where
  | compileBlock (pc : Nat) (frag : Nat → Fragment)
  | invalidate (pc : Nat)

namespace JITState

variable {Inst : Type}

def stillOverwritten (stale : Nat → Bool) (comp : List Nat) (pc : Nat) : Bool :=
  stale pc && !comp.contains pc

@[simp] lemma stillOverwritten_nil (stale : Nat → Bool) : stillOverwritten stale [] = stale := by
  funext pc
  simp [stillOverwritten]

lemma stillOverwritten_append (stale : Nat → Bool) (first snd : List Nat) :
    stillOverwritten stale (first ++ snd) = stillOverwritten (stillOverwritten stale first) snd := by
  funext pc
  simp [stillOverwritten, Bool.and_assoc]

def step (st : JITState Inst) : JITCall → JITState Inst
  | .compileBlock pc frag =>
    let result := st.core.compileBlock pc frag
    ⟨result.1, stillOverwritten st.overwritten result.2⟩
  | .invalidate pc =>
    let result := st.core.jitInvalidate pc
    ⟨result.1, fun q => result.2 && q == pc || st.overwritten q⟩

def Initial (st : JITState Inst) : Prop :=
  (∀ pc, st.core.jit.functionMap pc = none) ∧ st.core.jit.unreachableFunctions = [] ∧
    ∀ pc, st.overwritten pc = false

/-- Neither way to an overwritten pc leads to compiled code. All code that was made for
such a pc was made from the overwritten bytes. -/
def NoStaleCode (st : JITState Inst) : Prop :=
  ∀ pc, st.overwritten pc →
    (∀ comp, st.core.ramDecodeCache.opcode pc ≠ .function comp) ∧
    ∀ info, st.core.jit.functionMap pc = some info → ∀ comp, info.ptr ≠ some (.code comp)

/-- A pc is invalidated only while it has no chaining pointer or is not compiled. -/
def Unchained (st : JITState Inst) : JITCall → Prop
  | .compileBlock _ _ => True
  | .invalidate pc =>
    ∀ info, st.core.jit.functionMap pc = some info → info.ptr = none ∨ info.fastFunc = none

structure Tables (st : JITState Inst) : Prop where
  pointer : ∀ pc info, st.core.jit.functionMap pc = some info → info.PointsToCode
  cleared : ∀ pc, st.overwritten pc → ∀ comp, st.core.ramDecodeCache.opcode pc ≠ .function comp
  queued : ∀ pc info, st.overwritten pc → st.core.jit.functionMap pc = some info →
    info.fastFunc = none ∨ pc ∈ st.core.jit.unreachableFunctions

structure Settled (st : JITState Inst) : Prop where
  linked : st.core.jit.Linked st.overwritten
  cleared : ∀ pc, st.overwritten pc → ∀ comp, st.core.ramDecodeCache.opcode pc ≠ .function comp

variable {st : JITState Inst}

lemma Settled.tables (calm : Settled st) : Tables st :=
  ⟨calm.linked.pointer, calm.cleared, fun pc info mark found => .inl (calm.linked.fresh pc info mark found)⟩

lemma Settled.noStaleCode (calm : Settled st) : NoStaleCode st := by
  intro pc mark
  refine ⟨calm.cleared pc mark, fun info found comp ps => ?_⟩
  have empty := calm.linked.fresh pc info mark found
  rcases calm.linked.pointer pc info found with missing | target
  · simp [missing] at ps
  · simp [target, JITFunctionInfo.chainTarget, empty] at ps

variable {stale : Nat → Bool} {core : Core Inst} {pc : Nat}

lemma Settled.compileFragment (calm : Settled ⟨core, stale⟩) (startPc : Nat) (frag : Fragment) :
    Settled ⟨core.compileFragment startPc frag, stillOverwritten stale [startPc]⟩ := by
  constructor
  · have linked : core.jit.Linked (stillOverwritten stale [startPc]) :=
      calm.linked.mono fun pc mark => by simp_all [stillOverwritten]
    exact ((linked.beginFunction _).chain frag.successors).finishFunction (by simp [stillOverwritten])
  · intro pc mark comp
    simp only [stillOverwritten, Bool.and_eq_true] at mark
    have away : pc ≠ startPc := by
      rintro rfl
      simp at mark
    simp only [Core.compileFragment, Core.setOpcode, DecodeCache.setOpcode, update_of_ne away]
    exact calm.cleared pc mark.1 comp

lemma Settled.compileOneFragment (calm : Settled ⟨core, stale⟩) (pc : Nat) (frag : Fragment) :
    Settled ⟨(core.compileOneFragment pc frag).core,
      stillOverwritten stale (if (core.compileOneFragment pc frag).compiled then [pc] else [])⟩ := by
  unfold Core.compileOneFragment
  by_cases present : (core.jit.functionMap pc).any (·.fastFuncValue.isSome)
  · simpa [present] using calm
  · by_cases found : frag.found
    · simpa [present, found] using calm.compileFragment pc frag
    · simpa [present, found] using calm

lemma Settled.compileFragments (frag : Nat → Fragment) (n : Nat) (calm : Settled ⟨core, stale⟩)
    (pc : Nat) : Settled ⟨(core.compileFragments frag n pc).1,
      stillOverwritten stale (core.compileFragments frag n pc).2⟩ := by
  induction n generalizing core stale pc with
  | zero => simpa [Core.compileFragments] using calm
  | succ n ih =>
    have next := calm.compileOneFragment pc (frag pc)
    unfold Core.compileFragments
    by_cases ends : (core.compileOneFragment pc (frag pc)).endOfBlock
    · rw [if_pos ends]
      exact next
    · rw [if_neg ends, stillOverwritten_append]
      exact ih next (core.compileOneFragment pc (frag pc)).pcAfterFragment

lemma Tables.reclaim (tbls : Tables st) :
    Settled ⟨{ st.core with jit := st.core.jit.reclaimUnreachableFunctions }, st.overwritten⟩ := by
  have reclaimed := JITCoreInfo.foldl_reclaim st.core.jit.unreachableFunctions st.core.jit
  refine ⟨⟨fun pc info found => ?_, fun pc info mark found => ?_⟩, tbls.cleared⟩
  · rcases reclaimed pc info found with ⟨-, ps⟩ | ⟨-, kept⟩
    · exact ps
    · exact tbls.pointer pc info kept
  · rcases reclaimed pc info found with ⟨empty, -⟩ | ⟨absent, kept⟩
    · exact empty
    · exact (tbls.queued pc info mark kept).resolve_right absent

lemma Tables.compileBlock (tbls : Tables st) (pc : Nat) (frag : Nat → Fragment) :
    Settled (st.step (.compileBlock pc frag)) :=
  tbls.reclaim.compileFragments frag _ pc

lemma step_invalidate_unknown (found : st.core.jit.functionMap pc = none) :
    st.step (.invalidate pc) = st := by
  simp [step, Core.jitInvalidate, found]

lemma step_invalidate_known {info : JITFunctionInfo} (found : st.core.jit.functionMap pc = some info) :
    st.step (.invalidate pc) = ⟨{ st.core.clearOpcode pc with
          jit := { st.core.jit with
            unreachableFunctions := st.core.jit.unreachableFunctions ++ [pc] } },
        fun q => q == pc || st.overwritten q⟩ := by
  simp [step, Core.jitInvalidate, found]

lemma Tables.invalidate (tbls : Tables st) (pc : Nat) : Tables (st.step (.invalidate pc)) := by
  cases found : st.core.jit.functionMap pc with
  | none => rwa [step_invalidate_unknown found]
  | some rec =>
    rw [step_invalidate_known found]
    refine ⟨tbls.pointer, fun q mark comp => ?_, fun q info mark noted => ?_⟩
    · simp only [Core.clearOpcode, DecodeCache.clearOpcode]
      by_cases same : q = pc
      · simp [same]
      · rw [update_of_ne same]
        exact tbls.cleared q (by simpa [same] using mark) comp
    · by_cases same : q = pc
      · exact .inr (by simp [same])
      · exact (tbls.queued q info (by simpa [same] using mark) noted).imp_right fun inQ =>
          List.mem_append_left _ inQ

lemma Tables.step (call : JITCall) (tbls : Tables st) : Tables (st.step call) := by
  cases call with
  | compileBlock pc frag => exact (tbls.compileBlock pc frag).tables
  | invalidate pc => exact tbls.invalidate pc

/-- An invalidation of a recorded pc keeps stale code out of reach exactly when the
pointer of the pc is missing or there is no code: otherwise it still holds the old code. -/
lemma Tables.noStaleCode_invalidate_iff {rec : JITFunctionInfo} (tbls : Tables st)
    (noStale : NoStaleCode st) (found : st.core.jit.functionMap pc = some rec) :
    NoStaleCode (st.step (.invalidate pc)) ↔ rec.ptr = none ∨ rec.fastFunc = none := by
  have ps := tbls.pointer pc rec found
  constructor
  · intro safe
    rw [step_invalidate_known found] at safe
    rcases ps with missing | target
    · exact .inl missing
    · cases code : rec.fastFunc with
      | none => exact .inr rfl
      | some comp =>
        have ptr := (safe pc (by simp)).2 rec found comp
        exact absurd (by simp [target, JITFunctionInfo.chainTarget, code]) ptr
  · intro unchained q mark
    refine ⟨(tbls.invalidate pc).cleared q mark, ?_⟩
    rw [step_invalidate_known found] at mark ⊢
    intro info noted comp ptr
    by_cases same : q = pc
    · subst same
      obtain rfl : rec = info := by simpa [found] using noted
      rcases unchained with missing | empty
      · simp [missing] at ptr
      · rcases ps with missing | target
        · simp [missing] at ptr
        · simp [target, JITFunctionInfo.chainTarget, empty] at ptr
    · exact (noStale q (by simpa [same] using mark)).2 info noted comp ptr

lemma Tables.noStaleCode_step_iff (call : JITCall) (tbls : Tables st)
    (noStale : NoStaleCode st) : NoStaleCode (st.step call) ↔ Unchained st call := by
  cases call with
  | compileBlock pc frag =>
    exact ⟨fun _ => trivial, fun _ => (tbls.compileBlock pc frag).noStaleCode⟩
  | invalidate pc =>
    cases found : st.core.jit.functionMap pc with
    | none => simpa [step_invalidate_unknown found, Unchained, found] using noStale
    | some rec => simpa [Unchained, found] using tbls.noStaleCode_invalidate_iff noStale found

lemma Initial.tables (init : Initial st) : Tables st :=
  ⟨fun pc info found => by simp [init.1 pc] at found, fun pc mark => by simp [init.2.2 pc] at mark,
    fun pc info mark => by simp [init.2.2 pc] at mark⟩

/-- From the moment a pc is invalidated until it is compiled again no way leads to its
old code, in every state of a run, exactly when the run never invalidates a compiled
fragment that has a chaining pointer. -/
theorem chained_code_fresh_iff (st : JITState Inst) (initial : Initial st) (calls : List JITCall) :
    (∀ passed, passed <+: calls → NoStaleCode (passed.foldl step st)) ↔ Runs.Meets step Unchained st calls :=
  Runs.always_iff_meets (fun _ call tables _ _ => Tables.step call tables)
    (fun _ call tables _ noStale => tables.noStaleCode_step_iff call noStale)
    st calls (Runs.meets_true st calls) initial.tables (fun pc marked => by simp [initial.2.2 pc] at marked)

def blank : JITState Unit where
  core :=
    { ramSizeLog2 := 4
      ramBaseMultiple := 1
      memory := fun _ => 0
      ramDecodeCache := .initCache Unit 8 false
      jit := ⟨[], fun _ => none, 0, []⟩ }
  overwritten := fun _ => false

def twoBlocks (pc : Nat) : Fragment :=
  if pc = 0 then ⟨true, true, 2, 4, [4]⟩ else ⟨true, true, 6, 4, [0]⟩

lemma blank_initial : Initial blank := ⟨fun _ => rfl, rfl, fun _ => rfl⟩

/-- Invalidating the first block before the second is compiled is harmless. -/
theorem chained_code_fresh_unlinked :
    Initial blank ∧ ∀ passed, passed <+: [.compileBlock 0 twoBlocks, .invalidate 0, .compileBlock 4 twoBlocks] →
      NoStaleCode (passed.foldl step blank) := by
  refine ⟨blank_initial, (chained_code_fresh_iff blank blank_initial _).mpr ⟨trivial, ?_, trivial, trivial⟩⟩
  intro info recorded
  cases recorded
  exact .inl rfl

/-- After the second block is overwritten the first still jumps to its old code. -/
theorem stale_chained_code : ¬ NoStaleCode
      ([.compileBlock 0 twoBlocks, .compileBlock 4 twoBlocks, .invalidate 4].foldl step blank) := by
  intro fresh
  exact (fresh 4 rfl).2 _ rfl ⟨4, 1, 4⟩ rfl

end JITState

end Axe
