import Axe.Core.Watchpoints

/-! What a core keeps while watchpoints come and go. The entries of the decode cache are
recorded and lie in RAM, so `resetCaches` reaches all of them; what it does not reach are
the cells that hold no entry, and these keep the mode they were cleared in. -/

namespace Axe

open List

variable {Inst : Type}

namespace Core

section

variable {isa : InstructionSet Inst} {core post : Core Inst}

lemma Sound.runJIT (sound : core.Sound isa.size) (pc : Nat) : (core.runJIT isa pc).1.Sound isa.size := by
  simp only [Core.runJIT]
  split_ifs with valid
  · have cnt : (core.setExecutionFrequency pc (-2 ^ 31)).Sound isa.size := sound.of_same rfl rfl rfl rfl
    rw [compileBlock]
    refine Sound.compileFragments _ (fun q found => ?_) ?_ pc
    · exact ⟨isa.fragment_size _ q found, isa.fragment_ram (core.setExecutionFrequency pc (-2 ^ 31)) q found⟩
    · exact cnt.of_same rfl rfl rfl rfl
  · exact sound

lemma SameMemory.admissible {acc : MemoryAccess} (same : core.SameMemory post)
    (legal : (acc.invalidation Inst).Admissible isa.size core) :
    (acc.invalidation Inst).Admissible isa.size post := by
  cases width : acc.width with
  | word =>
    simp only [MemoryAccess.invalidation, width, CacheCall.Admissible] at legal ⊢
    exact ⟨legal.1, same.holds legal.2.1, same.holds legal.2.2⟩
  | short =>
    simp only [MemoryAccess.invalidation, width, CacheCall.Admissible] at legal ⊢
    exact ⟨legal.1, same.holds legal.2⟩
  | byte =>
    simp only [MemoryAccess.invalidation, width, CacheCall.Admissible] at legal ⊢
    exact same.holds legal

lemma MemoryAccess.invalidation_isInvalidation (acc : MemoryAccess) :
    (acc.invalidation Inst).isInvalidation = true := by
  cases width : acc.width <;> simp [MemoryAccess.invalidation, width, CacheCall.isInvalidation]

lemma invalidateStores_spec (sound : core.Sound isa.size) {accesses : List MemoryAccess}
    (legal : ∀ acc ∈ accesses, acc.type = .write → (acc.invalidation Inst).Admissible isa.size core) :
    ∃ post, core.invalidateStores isa accesses = some post ∧ post.Sound isa.size ∧
      (∀ pc, core.KeptOrCleared post pc) ∧ core.SameMemory post := by
  have stores : ∀ acc ∈ accesses.filter (·.type = .write),
      (acc.invalidation Inst).Admissible isa.size core := by
    intro acc mem
    obtain ⟨mem, write⟩ := mem_filter.mp mem
    exact legal acc mem (of_decide_eq_true write)
  clear legal
  rw [invalidateStores]
  generalize accesses.filter (·.type = .write) = writes at stores
  induction writes generalizing core with
  | nil => exact ⟨core, rfl, sound, KeptOrCleared.refl core, ⟨rfl, rfl, rfl, rfl, rfl⟩⟩
  | cons acc writes ih =>
    obtain ⟨reach, call, stale⟩ := invalidation_spec (Nat.le_of_succ_le sound.ram) sound.tracked
      (acc.invalidation Inst) (MemoryAccess.invalidation_isInvalidation acc) (stores acc mem_cons_self)
    obtain ⟨post, rest, soundAfter, es, same⟩ := ih (sound.invalidated stale)
      fun later mem => stale.sameMemory.admissible (stores later (mem_cons_of_mem _ mem))
    refine ⟨post, ?_, soundAfter, fun pc => ?_, stale.sameMemory.trans same⟩
    · simp only [foldlM_cons, call]
      exact rest
    · exact (stale.entries pc).trans stale.sameMemory (es pc)

end

end Core

def OpcodeCell.traced : OpcodeCell Inst → Bool
  | .decode tracing | .instruction tracing _ => tracing
  | .function _ => false

namespace WatchState

variable {isa : InstructionSet Inst} {st : WatchState Inst}

structure Inv (isa : InstructionSet Inst) (st : WatchState Inst) : Prop where
  sound : st.core.Sound isa.size
  enabled : st.jitEnabled = (!st.tracer && st.watchpoints.isEmpty)
  quiet : st.jitEnabled = false → ∀ pc, (st.core.ramDecodeCache.opcode pc).isFunction = false
  mode : st.tracer = true → st.core.ramDecodeCache.tracingEnabled = true
  cells : st.tracer = true → ∀ pc, (st.core.ramDecodeCache.opcode pc).traced = true
  threads : st.tracer = true → ∀ t, (st.threads t).tracingEnabled = true

section

variable (inv : st.Inv isa)
include inv

lemma Inv.disabled (watched : st.watchpoints ≠ []) : st.jitEnabled = false := by
  rw [inv.enabled, isEmpty_eq_false_iff.mpr watched, Bool.and_false]

lemma Inv.tracer_disabled (tr : st.tracer = true) : st.jitEnabled = false := by
  rw [inv.enabled, tr, Bool.not_true, Bool.false_and]

lemma Inv.cleared {core : Core Inst} (sound : core.Sound isa.size)
    (es : ∀ pc, st.core.KeptOrCleared core pc) (same : st.core.SameMemory core) :
    { st with core := core }.Inv isa where
  sound := sound
  enabled := inv.enabled
  quiet := by
    intro off pc
    rcases es pc with ⟨kept, -⟩ | ⟨clr, -⟩
    · simpa only [kept] using inv.quiet off pc
    · simp only [clr, OpcodeCell.isFunction]
  mode := fun tr => same.tracingEnabled.trans (inv.mode tr)
  cells := by
    intro tr pc
    rcases es pc with ⟨kept, -⟩ | ⟨clr, -⟩
    · simpa only [kept] using inv.cells tr pc
    · simpa only [clr, OpcodeCell.traced] using inv.mode tr
  threads := inv.threads

lemma Inv.leave (t : Nat) (out : WatchOutcome) : (st.leave t out).Inv isa where
  sound := inv.sound
  enabled := inv.enabled
  quiet := inv.quiet
  mode := inv.mode
  cells := inv.cells
  threads := by
    intro tr u
    have tr : st.tracer = true := tr
    by_cases here : u = t
    · subst here
      simp only [WatchState.leave, Function.update_self]
      split_ifs
      · exact inv.threads tr u
      · exact inv.mode tr
      · exact tr
    · simpa only [WatchState.leave, Function.update_of_ne here] using inv.threads tr u

lemma Inv.counted (pc : Nat) (count : Int) :
    { st with core := st.core.setExecutionFrequency pc count }.Inv isa :=
  ⟨inv.sound.of_same rfl rfl rfl rfl, inv.enabled, inv.quiet, inv.mode, inv.cells, inv.threads⟩

end

/-- The branch takes a thread in single issue to a place in RAM that was gone to often enough. -/
def Hot (st : WatchState Inst) (out : WatchOutcome) : Prop :=
  out.inRam = true ∧ out.dualIssue = false ∧ 128 < st.core.ramDecodeCache.executionFrequency out.pc + 1
  deriving Decidable

lemma Inv.updateExecutionFrequency (inv : st.Inv isa) (t pc : Nat) (fromStub : Bool)
    (cool : st.jitEnabled = false → (st.threads t).inRam = true →
      128 < st.core.ramDecodeCache.executionFrequency pc + 1 →
        ¬(fromStub = true ∨ (st.threads t).dualIssue = false)) :
    (st.updateExecutionFrequency isa t pc fromStub).1.Inv isa ∧
      (st.jitEnabled = false → (st.updateExecutionFrequency isa t pc fromStub).2 = []) := by
  simp only [WatchState.updateExecutionFrequency]
  split_ifs with inRam hot
  · -- The JIT is on, so nothing is claimed of the cells, and there is no tracer.
    have on : st.jitEnabled = true := by
      by_contra off
      exact cool (Bool.eq_false_iff.mpr off) inRam hot.1 hot.2
    have noTr : ¬st.tracer = true := by
      intro tr
      rw [inv.tracer_disabled tr] at on
      cases on
    have cnt : (st.core.setExecutionFrequency pc
        (st.core.ramDecodeCache.executionFrequency pc + 1)).Sound isa.size := inv.sound.of_same rfl rfl rfl rfl
    refine ⟨⟨cnt.runJIT pc, inv.enabled, fun off => ?_, fun tr => absurd tr noTr,
      fun tr => absurd tr noTr, fun tr => absurd tr noTr⟩, fun off => ?_⟩
    · rw [on] at off
      cases off
    · rw [on] at off
      cases off
  · exact ⟨inv.counted pc _, fun _ => rfl⟩
  · exact ⟨inv, fun _ => rfl⟩

/-- Every access is checked, no fragment is entered and none is compiled. -/
structure Seen (evs : List WatchEvent) : Prop where
  checked : ∀ access : MemoryAccess, .access access ∈ evs →
    .hitWatchpoint access.type access.address (getLoadStoreSize access.width) ∈ evs
  interpreted : ∀ comp, .dispatched comp ∉ evs
  uncompiled : ∀ pc, .compiled pc ∉ evs

lemma seen_nil : Seen [] := ⟨by simp, by simp, by simp⟩

lemma seen_accesses (accesses : List MemoryAccess) : Seen (accesses.flatMap (·.events false)) where
  checked := by
    intro acc mem
    obtain ⟨made, isIn, event⟩ := mem_flatMap.mp mem
    refine mem_flatMap.mpr ⟨made, isIn, ?_⟩
    obtain rfl : acc = made := by simpa [MemoryAccess.events, shouldEmitMemoryChecks] using event
    simp [MemoryAccess.events, shouldEmitMemoryChecks]
  interpreted := by
    intro comp mem
    obtain ⟨made, -, event⟩ := mem_flatMap.mp mem
    simp [MemoryAccess.events, shouldEmitMemoryChecks] at event
  uncompiled := by
    intro pc mem
    obtain ⟨made, -, event⟩ := mem_flatMap.mp mem
    simp [MemoryAccess.events, shouldEmitMemoryChecks] at event

def StoresAdmissible (isa : InstructionSet Inst) (st : WatchState Inst) (out : WatchOutcome) : Prop :=
  ∀ access ∈ out.accesses, access.type = .write → (access.invalidation Inst).Admissible isa.size st.core

variable {out : WatchOutcome}

lemma Inv.stored (inv : st.Inv isa) (accesses : List MemoryAccess)
    (legal : st.StoresAdmissible isa out) (some_of : ∀ acc ∈ accesses, acc ∈ out.accesses) :
    ∃ core, st.core.invalidateStores isa accesses = some core ∧ { st with core := core }.Inv isa ∧
      ∀ pc, st.core.KeptOrCleared core pc := by
  obtain ⟨core, put, sound, es, same⟩ :=
    Core.invalidateStores_spec inv.sound fun acc mem => legal acc (some_of acc mem)
  exact ⟨core, put, inv.cleared sound es same, es⟩

lemma not_hot_of_cleared {core : Core Inst} (es : ∀ pc, st.core.KeptOrCleared core pc)
    (cool : ¬st.Hot out) : ¬{ st with core := core }.Hot out := by
  rintro ⟨inRam, one, hot⟩
  rcases es out.pc with ⟨-, kept⟩ | ⟨-, clr⟩
  · exact cool ⟨inRam, one, by simpa only [kept] using hot⟩
  · simp only [clr] at hot
    omega

variable {tracing : Bool} {inst : Inst}

section

variable (inv : st.Inv isa)
include inv

lemma Inv.runInstruction {t : Nat} (legal : st.StoresAdmissible isa out)
    (alive : ¬(tracing && isa.format inst && !st.tracer) = true)
    (cool : st.jitEnabled = false → (!tracing && isa.mayBranch inst && out.completes) = true →
      ¬st.Hot out) :
    ∃ post evs, st.runInstruction isa t tracing inst out = some (post, evs) ∧ post.Inv isa ∧
      (st.jitEnabled = false → Seen evs) := by
  obtain ⟨core, put, invStored, es⟩ := inv.stored out.accesses legal fun _ mem => mem
  have left := invStored.leave t out
  simp only [WatchState.runInstruction, if_neg alive, put, Option.bind_eq_bind, Option.bind_some, Option.pure_def]
  split_ifs with counts
  · obtain ⟨cnt, none⟩ := left.updateExecutionFrequency t out.pc false (by
      intro off inRam hot one
      refine not_hot_of_cleared es (cool off counts) ⟨?_, ?_, hot⟩
      · simpa [WatchState.leave] using inRam
      · simpa [WatchState.leave] using one)
    refine ⟨_, _, rfl, cnt, fun off => ?_⟩
    rw [none off, append_nil]
    exact seen_accesses _
  · exact ⟨_, _, rfl, left, fun _ => seen_accesses _⟩

lemma Inv.runFragment (on : st.jitEnabled = true) (t : Nat) (comp : CompiledFunction)
    (legal : st.StoresAdmissible isa out) :
    ∃ post evs, st.runFragment isa t comp out = some (post, evs) ∧ post.Inv isa := by
  obtain ⟨core, put, invStored, -⟩ := inv.stored
    (out.accesses.filter fun acc => shouldEmitMemoryChecks true acc.enableMemCheckOpt) legal
    fun _ mem => mem_of_mem_filter mem
  have left := invStored.leave t out
  simp only [WatchState.runFragment, put, Option.bind_eq_bind, Option.bind_some, Option.pure_def]
  split_ifs with cnt
  · refine ⟨_, _, rfl, (left.updateExecutionFrequency t out.pc out.stub fun off => ?_).1⟩
    have off : st.jitEnabled = false := off
    rw [on] at off
    cases off
  · exact ⟨_, _, rfl, left⟩

lemma Inv.decoded {pc : Nat} (isIn : pc < st.core.getRamSize / 2)
    (cell : st.core.ramDecodeCache.opcode pc = .decode tracing) (inst : Inst) :
    { st with core := st.core.setOpcode pc (.instruction tracing inst) (isa.size inst) }.Inv isa where
  sound := inv.sound.setOpcode (.instruction tracing inst) isIn (isa.size_ge inst)
  enabled := inv.enabled
  quiet := by
    intro off q
    by_cases here : q = pc
    · subst here
      simp [Core.setOpcode, DecodeCache.setOpcode, OpcodeCell.isFunction]
    · simpa only [Core.setOpcode, DecodeCache.setOpcode, Function.update_of_ne here] using inv.quiet off q
  mode := inv.mode
  cells := by
    intro tr q
    by_cases here : q = pc
    · subst here
      have log := inv.cells tr q
      rw [cell] at log
      simpa [Core.setOpcode, DecodeCache.setOpcode, OpcodeCell.traced] using log
    · simpa only [Core.setOpcode, DecodeCache.setOpcode, Function.update_of_ne here] using inv.cells tr q
  threads := inv.threads

lemma Inv.reset (tracing : Bool) :
    ∃ core, (st.core.setTracing tracing).resetCaches = some core ∧ core.Sound isa.size ∧
      ∀ pc, (core.ramDecodeCache.opcode pc).live = false := by
  have switched : (st.core.setTracing tracing).Sound isa.size := inv.sound.of_same rfl rfl rfl rfl
  obtain ⟨core, call, sound, -, -, clr⟩ := Core.resetCaches_spec switched
  exact ⟨core, call, sound, clr⟩

end

lemma not_function_of_not_live {cell : OpcodeCell Inst} (dead : cell.live = false) : cell.isFunction = false := by
  cases cell with
  | decode _ => rfl
  | instruction _ _ => rfl
  | function _ => cases dead

section

variable (inv : st.Inv isa)
include inv

lemma Inv.setWatchpoint (wp : Watchpoint) :
    ∃ post, st.setWatchpoint wp = some post ∧ post.Inv isa := by
  simp only [WatchState.setWatchpoint]
  split_ifs with invalid on
  · exact ⟨st, rfl, inv⟩
  · obtain ⟨core, call, sound, clr⟩ := inv.reset true
    have noTr : ¬st.tracer = true := by
      intro tr
      rw [inv.tracer_disabled tr] at on
      cases on
    have ne : (st.watchpoints.insert wp).isEmpty = false := by
      rw [isEmpty_eq_false_iff]
      exact ne_nil_of_mem mem_insert_self
    refine ⟨{ st with core := core, jitEnabled := false, watchpoints := st.watchpoints.insert wp }, ?_,
      sound, ?_, fun _ pc => not_function_of_not_live (clr pc), fun tr => absurd tr noTr,
      fun tr => absurd tr noTr, fun tr => absurd tr noTr⟩
    · simp only [disableJIT, call, Option.map_some]
    · simp only [ne, Bool.and_false]
  · have off : st.jitEnabled = false := Bool.eq_false_iff.mpr on
    have ne : (st.watchpoints.insert wp).isEmpty = false := by
      rw [isEmpty_eq_false_iff]
      exact ne_nil_of_mem mem_insert_self
    exact ⟨{ st with watchpoints := st.watchpoints.insert wp }, rfl, inv.sound,
      by simp only [off, ne, Bool.and_false], inv.quiet, inv.mode, inv.cells, inv.threads⟩

lemma Inv.unsetWatchpoint (wp : Watchpoint) :
    ∃ post, st.unsetWatchpoint wp = some post ∧ post.Inv isa := by
  simp only [WatchState.unsetWatchpoint]
  split_ifs with last
  · obtain ⟨core, call, sound, -⟩ := inv.reset false
    obtain ⟨empty, noTr⟩ := Bool.and_eq_true_iff.mp last
    have noTr : ¬st.tracer = true := by simpa using noTr
    refine ⟨{ st with core := core, jitEnabled := true, watchpoints := st.watchpoints.filter (· ≠ wp) },
      ?_, sound, ?_, fun off => ?_, fun tr => absurd tr noTr, fun tr => absurd tr noTr,
      fun tr => absurd tr noTr⟩
    · simp only [enableJIT, call, Option.map_some]
    · rw [Bool.and_comm] at last
      exact last.symm
    · cases off
  · refine ⟨_, rfl, inv.sound, ?_, inv.quiet, inv.mode, inv.cells, inv.threads⟩
    -- With another watchpoint left, or with a tracer, the JIT was off before.
    have off : st.jitEnabled = false := by
      rw [inv.enabled]
      cases tr : st.tracer with
      | true => rfl
      | false =>
        cases watchpoints : st.watchpoints with
        | nil => simp [watchpoints, tr] at last
        | cons first rest => rfl
    rw [Bool.and_comm] at last
    rw [off, Bool.eq_false_iff.mpr last]

/-- What the labels stand for: a pc is one of RAM, and stores are to RAM. -/
def Admissible (isa : InstructionSet Inst) (st : WatchState Inst) : WatchStep Inst → Prop
  | .setWatchpoint _ | .unsetWatchpoint _ => True
  | .dispatch _ pc out => pc < st.core.getRamSize / 2 ∧ st.StoresAdmissible isa out
  | .interpretOne _ _ out | .dispatchRom _ _ out => st.StoresAdmissible isa out

/-- Without a tracer, the version of an instruction that a step runs is the one that does
not trace, and if it is a branch it is not hot. -/
def Plain (isa : InstructionSet Inst) (st : WatchState Inst) (tracing : Bool) (inst : Inst) (out : WatchOutcome) :
    Prop :=
  (isa.format inst = true → tracing = false) ∧
    (isa.mayBranch inst = true → tracing = false → out.completes = true → ¬st.Hot out)

/-- The condition under which watchpoints work: there is a tracer, or the step runs plain code. -/
def Careful (isa : InstructionSet Inst) (st : WatchState Inst) (lbl : WatchStep Inst) : Prop :=
  st.watchpoints ≠ [] → st.tracer = false →
    match lbl with
    | .dispatch _ pc out =>
      ∀ tracing inst, st.core.ramDecodeCache.opcode pc = .instruction tracing inst →
        st.Plain isa tracing inst out
    | .interpretOne t inst out => st.Plain isa (st.threads t).tracingEnabled inst out
    | .dispatchRom _ inst out => st.Plain isa false inst out
    | _ => True

def Watched (isa : InstructionSet Inst) (st : WatchState Inst) (lbl : WatchStep Inst) : Prop :=
  st.watchpoints ≠ [] → ∃ post evs, st.act isa lbl = some (post, evs) ∧ Seen evs

lemma Inv.ran {t : Nat} (legal : st.StoresAdmissible isa out)
    (log : st.tracer = true → tracing = true)
    (safe : st.watchpoints ≠ [] → st.tracer = false → st.Plain isa tracing inst out) :
    (∀ post evs, st.runInstruction isa t tracing inst out = some (post, evs) → post.Inv isa) ∧
      (st.watchpoints ≠ [] → ∃ post evs,
        st.runInstruction isa t tracing inst out = some (post, evs) ∧ Seen evs) := by
  have plain (off : st.jitEnabled = false) (noTr : st.tracer = false) :
      st.Plain isa tracing inst out := by
    refine safe (fun empty => ?_) noTr
    rw [inv.enabled, noTr, empty] at off
    cases off
  have cool (off : st.jitEnabled = false)
      (cnt : (!tracing && isa.mayBranch inst && out.completes) = true) : ¬st.Hot out := by
    simp only [Bool.and_eq_true, Bool.not_eq_true'] at cnt
    cases tr : st.tracer with
    | true =>
      rw [log tr] at cnt
      cases cnt.1.1
    | false => exact (plain off tr).2 cnt.1.2 cnt.1.1 cnt.2
  constructor
  · intro post evs ran
    by_cases crashes : (tracing && isa.format inst && !st.tracer) = true
    · rw [WatchState.runInstruction, if_pos crashes] at ran
      cases ran
    · obtain ⟨post', evs', ran', kept, -⟩ := inv.runInstruction (t := t) legal crashes cool
      rw [ran'] at ran
      cases ran
      exact kept
  · intro watched
    have off := inv.disabled watched
    have alive : ¬(tracing && isa.format inst && !st.tracer) = true := by
      intro crashes
      simp only [Bool.and_eq_true, Bool.not_eq_true'] at crashes
      rw [(plain off crashes.2).1 crashes.1.2] at crashes
      cases crashes.1.1
    obtain ⟨post, evs, ran, -, seen⟩ := inv.runInstruction (t := t) legal alive cool
    exact ⟨post, evs, ran, seen off⟩

/-- One step: the invariant is kept, and while a watchpoint is set everything is seen. -/
lemma Inv.act {lbl : WatchStep Inst} (legal : st.Admissible isa lbl) (safe : st.Careful isa lbl) :
    (∀ post evs, st.act isa lbl = some (post, evs) → post.Inv isa) ∧ st.Watched isa lbl := by
  cases lbl with
  | setWatchpoint wp =>
    obtain ⟨post, call, kept⟩ := inv.setWatchpoint wp
    simp only [Watched, WatchState.act, call, Option.map_some]
    exact ⟨fun _ _ same => by cases same; exact kept, fun _ => ⟨post, [], rfl, seen_nil⟩⟩
  | unsetWatchpoint wp =>
    obtain ⟨post, call, kept⟩ := inv.unsetWatchpoint wp
    simp only [Watched, WatchState.act, call, Option.map_some]
    exact ⟨fun _ _ same => by cases same; exact kept, fun _ => ⟨post, [], rfl, seen_nil⟩⟩
  | interpretOne t inst out => exact inv.ran legal (fun tr => inv.threads tr t) safe
  | dispatchRom t inst out =>
    refine inv.ran legal id fun watched noTr => ?_
    rw [noTr]
    exact safe watched noTr
  | dispatch t pc out =>
    obtain ⟨isIn, stores⟩ := legal
    simp only [Watched, WatchState.act, WatchState.dispatch]
    cases cell : st.core.ramDecodeCache.opcode pc with
    | decode tracing =>
      exact ⟨fun _ _ same => by cases same; exact inv.decoded isIn cell _, fun _ => ⟨_, _, rfl, seen_nil⟩⟩
    | instruction tracing inst =>
      refine inv.ran stores (fun tr => ?_) fun watched noTr => safe watched noTr tracing inst cell
      have log := inv.cells tr pc
      rwa [cell] at log
    | function comp =>
      have on : st.jitEnabled = true := by
        by_contra off
        have interpreted := inv.quiet (Bool.eq_false_iff.mpr off) pc
        rw [cell] at interpreted
        cases interpreted
      obtain ⟨post, evs, ran, kept⟩ := inv.runFragment on t comp stores
      refine ⟨fun _ _ same => ?_, fun watched => ?_⟩
      · cases ran.symm.trans same
        exact kept
      · rw [inv.disabled watched] at on
        cases on

end

def step (isa : InstructionSet Inst) (st : Option (WatchState Inst)) (lbl : WatchStep Inst) :
    Option (WatchState Inst) :=
  st.bind fun st => (st.act isa lbl).map Prod.fst

def boot (core : Core Inst) (romBase romSize : Nat) (tracer : Bool) : WatchState Inst where
  core := { core with ramDecodeCache := .initCache Inst core.ramDecodeCache.size tracer }
  romBase := romBase
  romSize := romSize
  jitEnabled := !tracer
  watchpoints := []
  tracer := tracer
  threads := fun _ => ⟨false, true, tracer⟩

lemma inv_boot {core : Core Inst} (ram : 2 ≤ core.ramSizeLog2) (fits : core.getRamBase + core.getRamSize < 2 ^ 32)
    (romBase romSize : Nat) (tr : Bool) : (boot core romBase romSize tr).Inv isa where
  sound := ⟨ram, fits, DecodeCache.tracked_initCache isa.size _ _, fun _ live => by cases live⟩
  enabled := by simp [boot]
  quiet := fun _ _ => rfl
  mode := id
  cells := fun tr _ => tr
  threads := fun tr _ => tr

/-- In every run of careful steps, whatever was decoded or compiled before, a step taken
while a watchpoint is set checks every access and neither enters nor compiles a fragment. -/
theorem watched_runs {core : Core Inst} (ram : 2 ≤ core.ramSizeLog2)
    (fits : core.getRamBase + core.getRamSize < 2 ^ 32) (romBase romSize : Nat) (tracer : Bool)
    {labels : List (WatchStep Inst)} (safe : Runs.Meets (step isa)
      (fun st lbl => ∀ now ∈ st, now.Admissible isa lbl ∧ now.Careful isa lbl)
      (some (boot core romBase romSize tracer)) labels) :
    ∀ now ∈ labels.foldl (step isa) (some (boot core romBase romSize tracer)),
      ∀ next, now.Admissible isa next → now.Careful isa next → now.Watched isa next := by
  have inv : ∀ now ∈ labels.foldl (step isa) (some (boot core romBase romSize tracer)), now.Inv isa := by
    have preserved : ∀ (st : Option (WatchState Inst)) (lbl : WatchStep Inst), (∀ now ∈ st, now.Inv isa) →
        (∀ now ∈ st, now.Admissible isa lbl ∧ now.Careful isa lbl) →
        ∀ now ∈ step isa st lbl, now.Inv isa := by
      intro st lbl inv guard post reach
      obtain ⟨pre, same, called⟩ := Option.bind_eq_some_iff.mp reach
      obtain ⟨⟨post', evs⟩, acted, rfl⟩ := Option.map_eq_some_iff.mp called
      obtain ⟨legal, safe⟩ := guard pre same
      exact ((inv pre same).act legal safe).1 post' evs acted
    refine safe.invariant preserved ?_
    rintro now ⟨⟩
    exact inv_boot ram fits romBase romSize tracer
  intro now reach next legal safe
  exact ((inv now reach).act legal safe).2

def storeLoop : InstructionSet Bool where
  size := fun _ => 2
  mayBranch := id
  format := fun _ => true
  decodeAt := fun _ pc => pc == 1
  fragmentAt := fun core pc => ⟨decide (pc < core.getRamSize / 2), true, pc + 2, 4, [0]⟩
  size_ge := fun _ => Nat.le_refl 2
  fragment_size := fun _ _ _ => Nat.le_add_left 2 2
  fragment_ram := fun _ _ found => of_decide_eq_true found

def ram16 : Core Bool where
  ramSizeLog2 := 4
  ramBaseMultiple := 1
  memory := fun _ => 0
  ramDecodeCache := .initCache Bool 8 false
  jit := ⟨[], fun _ => none, 0, []⟩

def stored : WatchOutcome := ⟨[⟨.write, 28, .word, true⟩], 1, false, true, true, false⟩

def branched : WatchOutcome := ⟨[], 0, false, true, true, false⟩

def onLastWord : Watchpoint := ⟨.write, 28, 30⟩

def freshStore : List (WatchStep Bool) := [.setWatchpoint onLastWord, .dispatch 0 0 stored]

theorem freshStore_watched : ∃ now, freshStore.foldl (step storeLoop) (some (boot ram16 0 0 false)) = some now ∧
      now.watchpoints = [onLastWord] ∧ now.Watched storeLoop (.dispatch 0 0 stored) := by
  have stores (now : WatchState Bool) (log : now.core.ramSizeLog2 = 4) (base : now.core.ramBaseMultiple = 1)
      (size : now.core.ramDecodeCache.size = 8) : now.StoresAdmissible storeLoop stored := by
    intro access mem _
    obtain rfl : access = ⟨.write, 28, .word, true⟩ := by simpa [stored] using mem
    simp [MemoryAccess.invalidation, CacheCall.Admissible, CacheCall.Holds, Core.isValidRamAddress, Core.toRamPc,
      Core.getRamBase, Core.getRamSize, log, base, size]
  have safe : Runs.Meets (step storeLoop)
      (fun st lbl => ∀ now ∈ st, now.Admissible storeLoop lbl ∧ now.Careful storeLoop lbl)
      (some (boot ram16 0 0 false)) freshStore := by
    refine ⟨?_, ?_, trivial⟩
    · rintro now ⟨⟩
      exact ⟨trivial, fun watched => absurd rfl watched⟩
    · rintro now ⟨⟩
      exact ⟨⟨by decide, stores _ rfl rfl rfl⟩, fun _ _ tracing inst cell => by cases cell⟩
  have ram : 2 ≤ ram16.ramSizeLog2 := by decide
  have fits : ram16.getRamBase + ram16.getRamSize < 2 ^ 32 := by decide
  refine ⟨_, rfl, rfl, watched_runs ram fits 0 0 false safe _ rfl _ ⟨by decide, stores _ rfl rfl rfl⟩ ?_⟩
  intro _ _ tracing inst cell
  cases cell
  exact ⟨fun _ => rfl, fun branch => by cases branch⟩

def loopRound : List (WatchStep Bool) := [.dispatch 0 0 stored, .dispatch 0 1 branched]

def hotLoop : List (WatchStep Bool) :=
  .setWatchpoint onLastWord :: loopRound ++ (List.replicate 129 loopRound).flatten

/-- A watchpoint set before anything ran. The branch is counted in code that does not trace,
and once it is hot the loop is compiled: the store of the fragment is not checked. -/
theorem hotLoop_unwatched : ∃ now, hotLoop.foldl (step storeLoop) (some (boot ram16 0 0 false)) = some now ∧
      now.watchpoints = [onLastWord] ∧ (now.act storeLoop (.dispatch 0 0 stored)).map Prod.snd =
        some [.dispatched ⟨0, 0, 4⟩, .access ⟨.write, 28, .word, true⟩] ∧
      ¬now.Watched storeLoop (.dispatch 0 0 stored) := by
  have watchpoints : (hotLoop.foldl (step storeLoop) (some (boot ram16 0 0 false))).map (·.watchpoints) =
      some [onLastWord] := by decide +kernel
  have evs : (hotLoop.foldl (step storeLoop) (some (boot ram16 0 0 false))).bind
      (fun now => (now.act storeLoop (.dispatch 0 0 stored)).map Prod.snd) =
        some [.dispatched ⟨0, 0, 4⟩, .access ⟨.write, 28, .word, true⟩] := by decide +kernel
  obtain ⟨now, reach, watched⟩ := Option.map_eq_some_iff.mp watchpoints
  rw [reach, Option.bind_some] at evs
  refine ⟨now, reach, watched, evs, fun seen => ?_⟩
  have nonempty : now.watchpoints ≠ [] := by
    rw [watched]
    exact List.cons_ne_nil _ _
  obtain ⟨post, made, acted, seen⟩ := seen nonempty
  rw [acted, Option.map_some, Option.some.injEq] at evs
  have evs : made = [.dispatched ⟨0, 0, 4⟩, .access ⟨.write, 28, .word, true⟩] := evs
  have first : .dispatched ⟨0, 0, 4⟩ ∈ made := by
    rw [evs]
    exact List.mem_cons_self
  exact seen.interpreted ⟨0, 0, 4⟩ first

end WatchState

end Axe
