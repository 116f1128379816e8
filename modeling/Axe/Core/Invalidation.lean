import Axe.Core.State
import Axe.Library.Runs

/-! The invalidation table summarises which halfwords live entries occupy. An
entry's first halfword is marked, and every later one tells the backward walk to
go on; this is enough for an invalidation to reach each entry over the bytes it
names. -/

namespace Axe

open Function

variable {Inst : Type}

def OpcodeCell.size (size : Inst → Nat) : OpcodeCell Inst → Nat
  | .decode _ => 0
  | .instruction _ inst => size inst
  | .function compiled => compiled.size

def DecodeCache.Covers (size : Inst → Nat) (cache : DecodeCache Inst) (pc i : Nat) : Prop :=
  (cache.opcode pc).live = true ∧ pc ≤ i ∧ i < pc + (cache.opcode pc).size size / 2

structure DecodeCache.Tracked (size : Inst → Nat) (cache : DecodeCache Inst) : Prop where
  head : ∀ pc, (cache.opcode pc).live = true → cache.invalidationInfo pc ≠ .none
  tail : ∀ pc i, cache.Covers size pc i → pc < i → cache.invalidationInfo i = .currentAndPrevious
  first : cache.invalidationInfo 0 ≠ .currentAndPrevious

lemma DecodeCache.tracked_initCache (size : Inst → Nat) (n : Nat) (tracing : Bool) :
    (DecodeCache.initCache Inst n tracing).Tracked size where
  head := fun _ live => absurd live Bool.false_ne_true
  tail := fun _ _ cov _ => absurd cov.1 Bool.false_ne_true
  first := by simp [DecodeCache.initCache]

variable {cache : DecodeCache Inst}

lemma DecodeCache.Tracked.setOpcode {size : Inst → Nat}
    (tracked : cache.Tracked size) (pc : Nat) (opc : OpcodeCell Inst) :
    (cache.setOpcode pc opc (opc.size size)).Tracked size where
  head := by
    intro q live
    simp only [DecodeCache.setOpcode, DecodeCache.setInvalidationInfo] at live ⊢
    by_cases same : q = pc
    · subst same
      split_ifs with unmarked <;> simp_all
    · rw [update_of_ne same] at live
      have mark := tracked.head q live
      split_ifs <;> simp_all
  tail := by
    rintro q i ⟨live, low, high⟩ later
    simp only [DecodeCache.setOpcode, DecodeCache.setInvalidationInfo] at live high ⊢
    by_cases same : q = pc
    · subst same
      rw [update_self] at high
      rw [if_neg (by omega), if_pos ⟨later, high⟩]
    · rw [update_of_ne same] at live high
      have mark := tracked.tail q i ⟨live, low, high⟩ later
      split_ifs with at_pc
      · subst at_pc; simp_all
      · subst at_pc; exact mark
      · rfl
      · exact mark
  first := by
    simp only [DecodeCache.setOpcode, DecodeCache.setInvalidationInfo]
    have first := tracked.first
    split_ifs with at_zero unmarked isIn
    · simp
    · subst at_zero; exact first
    · omega
    · exact first

lemma DecodeCache.Tracked.unmarked {size : Inst → Nat}
    (tracked : cache.Tracked size) {i : Nat} (none : cache.invalidationInfo i = .none) (pc : Nat) :
    ¬ cache.Covers size pc i := by
  intro cov
  rcases Nat.lt_or_eq_of_le cov.2.1 with later | rfl
  · simp [tracked.tail pc i cov later] at none
  · exact tracked.head pc cov.1 none

lemma DecodeCache.Tracked.mark {size : Inst → Nat} (tracked : cache.Tracked size) (pc : Nat) :
    DecodeCache.Tracked size { cache with
      invalidationInfo := update cache.invalidationInfo (pc + 1) .currentAndPrevious } where
  head := by
    intro q live
    by_cases same : q = pc + 1
    · simp [same]
    · simpa [update_of_ne same] using tracked.head q live
  tail := by
    intro q i cov later
    by_cases same : i = pc + 1
    · simp [same]
    · simpa [update_of_ne same] using tracked.tail q i cov later
  first := by simpa [update_of_ne (Nat.succ_ne_zero pc).symm] using tracked.first

namespace Core

@[simp] lemma invalidateEntry_opcode (core : Core Inst) (pc : Nat) : (core.invalidateEntry pc).ramDecodeCache.opcode =
      update core.ramDecodeCache.opcode pc (.decode core.ramDecodeCache.tracingEnabled) := by
  unfold invalidateEntry jitInvalidate
  cases core.jit.functionMap pc <;> rfl

@[simp] lemma invalidateEntry_invalidationInfo (core : Core Inst) (pc : Nat) :
    (core.invalidateEntry pc).ramDecodeCache.invalidationInfo =
      update core.ramDecodeCache.invalidationInfo pc .none := by
  unfold invalidateEntry jitInvalidate
  cases core.jit.functionMap pc <;> rfl

@[simp] lemma invalidateEntry_executionFrequency (core : Core Inst) (pc : Nat) :
    (core.invalidateEntry pc).ramDecodeCache.executionFrequency =
      update core.ramDecodeCache.executionFrequency pc 0 := by
  unfold invalidateEntry jitInvalidate
  cases core.jit.functionMap pc <;> rfl

structure SameMemory (pre post : Core Inst) : Prop where
  ramSizeLog2 : post.ramSizeLog2 = pre.ramSizeLog2
  ramBaseMultiple : post.ramBaseMultiple = pre.ramBaseMultiple
  memory : post.memory = pre.memory
  size : post.ramDecodeCache.size = pre.ramDecodeCache.size
  tracingEnabled : post.ramDecodeCache.tracingEnabled = pre.ramDecodeCache.tracingEnabled

lemma invalidateEntry_sameMemory (core : Core Inst) (pc : Nat) : core.SameMemory (core.invalidateEntry pc) := by
  unfold invalidateEntry jitInvalidate
  cases core.jit.functionMap pc <;> exact ⟨rfl, rfl, rfl, rfl, rfl⟩

def KeptOrCleared (pre post : Core Inst) (pc : Nat) : Prop :=
  post.ramDecodeCache.opcode pc = pre.ramDecodeCache.opcode pc ∧
      post.ramDecodeCache.executionFrequency pc = pre.ramDecodeCache.executionFrequency pc ∨
    post.ramDecodeCache.opcode pc = .decode pre.ramDecodeCache.tracingEnabled ∧
      post.ramDecodeCache.executionFrequency pc = 0

/-- What an invalidation of the halfwords in `named` does: the table still
records the live entries, each of them was there before, and none of them
occupies a named halfword. -/
structure Invalidated (size : Inst → Nat) (named : Nat → Prop) (pre post : Core Inst) : Prop where
  sameMemory : pre.SameMemory post
  tracked : post.ramDecodeCache.Tracked size
  entries : ∀ pc, pre.KeptOrCleared post pc
  clears : ∀ pc i, named i → ¬ post.ramDecodeCache.Covers size pc i

/-- The invariant of the backward walk when it has reached index `pc`: only
entries that begin at or before `pc` may have lost marks, and only above it. -/
structure Walking (size : Inst → Nat) (pc : Nat) (core : Core Inst) : Prop where
  head : ∀ q, (core.ramDecodeCache.opcode q).live = true → core.ramDecodeCache.invalidationInfo q ≠ .none
  tail : ∀ q i, core.ramDecodeCache.Covers size q i → q < i → i ≤ pc ∨ pc < q →
    core.ramDecodeCache.invalidationInfo i = .currentAndPrevious
  first : core.ramDecodeCache.invalidationInfo 0 ≠ .currentAndPrevious

variable {first snd third pre post : Core Inst}

lemma SameMemory.trans (left : first.SameMemory snd)
    (right : snd.SameMemory third) : first.SameMemory third where
  ramSizeLog2 := right.ramSizeLog2.trans left.ramSizeLog2
  ramBaseMultiple := right.ramBaseMultiple.trans left.ramBaseMultiple
  memory := right.memory.trans left.memory
  size := right.size.trans left.size
  tracingEnabled := right.tracingEnabled.trans left.tracingEnabled

variable {size : Inst → Nat} {named : Nat → Prop}

lemma Invalidated.survives (stale : Invalidated size named pre post) (pc : Nat)
    (live : (post.ramDecodeCache.opcode pc).live = true) :
    post.ramDecodeCache.opcode pc = pre.ramDecodeCache.opcode pc := by
  rcases stale.entries pc with ⟨kept, -⟩ | ⟨clr, -⟩
  · exact kept
  · simp [clr, OpcodeCell.live] at live

lemma KeptOrCleared.refl (core : Core Inst) (pc : Nat) : core.KeptOrCleared core pc := .inl ⟨rfl, rfl⟩

variable {pc : Nat}

lemma KeptOrCleared.trans (same : first.SameMemory snd) (left : first.KeptOrCleared snd pc)
    (right : snd.KeptOrCleared third pc) : first.KeptOrCleared third pc := by
  rcases right with ⟨kept, cnt⟩ | ⟨clr, cnt⟩
  · rw [KeptOrCleared, kept, cnt]
    exact left
  · exact .inr ⟨by rw [clr, same.tracingEnabled], cnt⟩

lemma invalidateEntry_keptOrCleared (core : Core Inst) (pc q : Nat) :
    core.KeptOrCleared (core.invalidateEntry pc) q := by
  by_cases here : q = pc
  · subst here
    exact .inr ⟨by simp, by simp⟩
  · exact .inl ⟨by simp [here], by simp [here]⟩

lemma Invalidated.trans {other : Nat → Prop} (left : Invalidated size named first snd)
    (right : Invalidated size other snd third) : Invalidated size (fun i => named i ∨ other i) first third where
  sameMemory := left.sameMemory.trans right.sameMemory
  tracked := right.tracked
  entries := fun pc => (left.entries pc).trans left.sameMemory (right.entries pc)
  clears := by
    rintro pc i (inFirst | inSecond) cov
    · have kept := right.survives pc cov.1
      refine left.clears pc i inFirst ?_
      simpa only [DecodeCache.Covers, kept] using cov
    · exact right.clears pc i inSecond cov

variable {core : Core Inst}

lemma Invalidated.unchanged (tracked : core.ramDecodeCache.Tracked size)
    (unmarked : ∀ i, named i → core.ramDecodeCache.invalidationInfo i = .none) : Invalidated size named core core :=
  ⟨⟨rfl, rfl, rfl, rfl, rfl⟩, tracked, KeptOrCleared.refl core, fun pc i mem => tracked.unmarked (unmarked i mem) pc⟩

lemma Invalidated.mono {smaller : Nat → Prop} (stale : Invalidated size named pre post)
    (included : ∀ i, smaller i → named i) : Invalidated size smaller pre post :=
  ⟨stale.sameMemory, stale.tracked, stale.entries,
    fun pc i mem => stale.clears pc i (included i mem)⟩

lemma Walking.of_tracked (tracked : core.ramDecodeCache.Tracked size) (pc : Nat) : Walking size pc core :=
  ⟨tracked.head, fun q i cov later _ => tracked.tail q i cov later, tracked.first⟩

lemma invalidateEntry_covers {q i : Nat} (cov : (core.invalidateEntry pc).ramDecodeCache.Covers size q i) :
    q ≠ pc ∧ core.ramDecodeCache.Covers size q i := by
  have away : q ≠ pc := by
    rintro rfl
    simpa [OpcodeCell.live] using cov.1
  refine ⟨away, ?_⟩
  simpa only [DecodeCache.Covers, invalidateEntry_opcode, update_of_ne away] using cov

lemma invalidateEntry_survives {q : Nat} (live : ((core.invalidateEntry pc).ramDecodeCache.opcode q).live = true) :
    q ≠ pc ∧ (core.invalidateEntry pc).ramDecodeCache.opcode q = core.ramDecodeCache.opcode q := by
  have away : q ≠ pc := by
    rintro rfl
    simp [OpcodeCell.live] at live
  exact ⟨away, by simp [update_of_ne away]⟩

lemma Walking.invalidateEntry_head (walking : Walking size pc core) (q : Nat)
    (live : ((core.invalidateEntry pc).ramDecodeCache.opcode q).live = true) :
    (core.invalidateEntry pc).ramDecodeCache.invalidationInfo q ≠ .none := by
  obtain ⟨away, kept⟩ := invalidateEntry_survives live
  rw [invalidateEntry_invalidationInfo, update_of_ne away]
  exact walking.head q (kept ▸ live)

lemma Walking.invalidateEntry_first (walking : Walking size pc core) :
    (core.invalidateEntry pc).ramDecodeCache.invalidationInfo 0 ≠ .currentAndPrevious := by
  rw [invalidateEntry_invalidationInfo]
  by_cases zero : 0 = pc
  · simp [← zero]
  · rw [update_of_ne zero]
    exact walking.first

lemma Walking.next (walking : Walking size (pc + 1) core) : Walking size pc (core.invalidateEntry (pc + 1)) where
  head := walking.invalidateEntry_head
  first := walking.invalidateEntry_first
  tail := by
    intro q i cov later reach
    obtain ⟨away, pre⟩ := invalidateEntry_covers cov
    rw [invalidateEntry_invalidationInfo, update_of_ne (by omega)]
    exact walking.tail q i pre later (by omega)

/-- The walk stops where the information does not ask for the previous halfword:
no entry from further down reaches this index. -/
lemma Walking.stop (walking : Walking size pc core)
    (stops : core.ramDecodeCache.invalidationInfo pc ≠ .currentAndPrevious) :
    Invalidated size (· = pc) core (core.invalidateEntry pc) := by
  have unreached : ∀ q, core.ramDecodeCache.Covers size q pc → ¬ q < pc :=
    fun q cov prior => stops (walking.tail q pc cov prior (.inl (Nat.le_refl pc)))
  refine ⟨invalidateEntry_sameMemory core pc, ⟨walking.invalidateEntry_head, ?_, walking.invalidateEntry_first⟩,
    invalidateEntry_keptOrCleared core pc, ?_⟩
  · intro q i cov later
    obtain ⟨away, live, low, high⟩ := invalidateEntry_covers cov
    have separate : i < pc ∨ pc < q := by
      by_contra between
      exact unreached q ⟨live, by omega, by omega⟩ (by omega)
    rw [invalidateEntry_invalidationInfo, update_of_ne (by omega)]
    exact walking.tail q i ⟨live, low, high⟩ later (by omega)
  · rintro q i rfl cov
    obtain ⟨away, pre⟩ := invalidateEntry_covers cov
    have := pre.2.1
    exact unreached q pre (by omega)

/-- The walk from `pc` ends inside the table and clears every entry over `pc`,
and over the halfword before it when it goes on. -/
lemma invalidateSlowPath_walk (core : Core Inst) (pc : Nat) (walking : Walking size pc core) :
    ∃ post, core.invalidateSlowPath pc = some post ∧ Invalidated size
        (fun i => i = pc ∨ i + 1 = pc ∧ core.ramDecodeCache.invalidationInfo pc = .currentAndPrevious) core post := by
  induction pc generalizing core with
  | zero =>
    unfold invalidateSlowPath
    simp only [if_neg walking.first]
    exact ⟨_, rfl, (walking.stop walking.first).mono (by simp)⟩
  | succ pc ih =>
    unfold invalidateSlowPath
    dsimp only
    split_ifs with goes
    · obtain ⟨post, found, below⟩ := ih _ walking.next
      refine ⟨post, found, (invalidateEntry_sameMemory core _).trans below.sameMemory, below.tracked, ?_, ?_⟩
      · intro q
        exact (invalidateEntry_keptOrCleared core (pc + 1) q).trans (invalidateEntry_sameMemory core _)
          (below.entries q)
      · -- An entry over `pc + 1` that is left does not begin there, so it lies over `pc` as well.
        intro q i mem cov
        have kept := below.survives q cov.1
        have away := (invalidateEntry_survives (kept ▸ cov.1)).1
        obtain ⟨live, low, high⟩ := cov
        exact below.clears q pc (.inl rfl) ⟨live, by omega, by omega⟩
    · exact ⟨_, rfl, (walking.stop goes).mono (by simp [goes])⟩

section

variable {size : Inst → Nat} {core : Core Inst}

section

variable (tracked : core.ramDecodeCache.Tracked size)
include tracked

lemma invalidateByte_spec (addr : Nat) : ∃ post hit, core.invalidateByte addr = some (post, hit) ∧
      Invalidated size (· = core.toRamPc addr) core post := by
  unfold invalidateByte invalidateByteCheck
  split_ifs with mark
  · obtain ⟨post, found, stale⟩ := invalidateSlowPath_walk core (core.toRamPc addr) (.of_tracked tracked _)
    exact ⟨post, true, by simp [found], stale.mono fun _ => .inl⟩
  · refine ⟨core, false, rfl, .unchanged tracked ?_⟩
    rintro i rfl
    simpa using mark

lemma invalidateShort_spec (addr : Nat) : ∃ post hit, core.invalidateShort addr = some (post, hit) ∧
      Invalidated size (· = core.toRamPc addr) core post :=
  invalidateByte_spec tracked addr

lemma invalidateWordSlowPath_spec (pc : Nat) : ∃ post, core.invalidateWordSlowPath pc = some post ∧
      Invalidated size (fun i => i = pc ∨ i = pc + 1) core post := by
  unfold invalidateWordSlowPath
  split_ifs with unmarked
  · obtain ⟨post, found, stale⟩ := invalidateSlowPath_walk core pc (.of_tracked tracked pc)
    refine ⟨post, found, stale.sameMemory, stale.tracked, stale.entries, ?_⟩
    rintro q i (rfl | rfl) cov
    · exact stale.clears q i (.inl rfl) cov
    · have kept := stale.survives q cov.1
      exact tracked.unmarked unmarked q (by simpa only [DecodeCache.Covers, kept] using cov)
  · obtain ⟨post, found, stale⟩ :=
      invalidateSlowPath_walk { core with ramDecodeCache := _ } (pc + 1) (.of_tracked (tracked.mark pc) _)
    obtain ⟨sameMemory, stillTracked, es, clears⟩ := stale
    refine ⟨post, found, ⟨sameMemory.1, sameMemory.2, sameMemory.3, sameMemory.4, sameMemory.5⟩, stillTracked, es, ?_⟩
    intro q i mem
    exact clears q i (by simpa [or_comm] using mem)

lemma invalidateWord_spec (addr : Nat) : ∃ post hit, core.invalidateWord addr = some (post, hit) ∧
      Invalidated size (fun i => i = core.toRamPc addr ∨ i = core.toRamPc addr + 1) core post := by
  unfold invalidateWord invalidateWordCheck
  split_ifs with mark
  · obtain ⟨post, found, stale⟩ := invalidateWordSlowPath_spec tracked (core.toRamPc addr)
    exact ⟨post, true, by simp [found], stale⟩
  · refine ⟨core, false, rfl, .unchanged tracked ?_⟩
    simp only [decide_eq_true_eq, not_or, not_not] at mark
    rintro i (rfl | rfl)
    · exact mark.1
    · exact mark.2

end

/-- A loop of `invalidateRange` that stays below `limit` ends, in a state that
keeps its invariant and at an address where the loop's test fails. -/
lemma invalidateWhile_spec (continues : Nat → Bool) (width limit : Nat)
    (invalidate : Core Inst → Nat → Option (Core Inst × Bool)) (inv : Nat → Core Inst → Prop)
    (step : ∀ addr core, inv addr core → continues addr → ∃ post hit,
      invalidate core addr = some (post, hit) ∧ addr < (addr + width) % 2 ^ 32 ∧
        addr < limit ∧ inv ((addr + width) % 2 ^ 32) post)
    (n addr : Nat) (core : Core Inst) (stale : Bool) (enough : limit - addr ≤ n)
    (init : inv addr core) : ∃ post last hit,
      invalidateWhile continues width invalidate n core addr stale = some (post, last, hit) ∧
        inv last post ∧ continues last = false := by
  induction n generalizing addr core stale with
  | zero =>
    cases goes : continues addr with
    | false => exact ⟨core, addr, stale, by simp [invalidateWhile, goes], init, goes⟩
    | true =>
      obtain ⟨_, _, _, _, below, _⟩ := step addr core init goes
      omega
  | succ n ih =>
    cases goes : continues addr with
    | false => exact ⟨core, addr, stale, by simp [invalidateWhile, goes], init, goes⟩
    | true =>
      obtain ⟨post, hit, call, forward, below, next⟩ := step addr core init goes
      obtain ⟨final, last, any, looped, kept, stopped⟩ := ih _ post (stale || hit) (by omega) next
      refine ⟨final, last, any, ?_, kept, stopped⟩
      simp only [invalidateWhile, goes, call, if_true]
      exact looped

/-- The halfwords of the bytes from `start` up to `limit`. -/
def halfwordsOf (core : Core Inst) (start limit i : Nat) : Prop :=
  ∃ addr, start ≤ addr ∧ addr < limit ∧ core.toRamPc addr = i

lemma SameMemory.toRamPc {pre post : Core Inst} (same : pre.SameMemory post) (addr : Nat) :
    post.toRamPc addr = pre.toRamPc addr := by
  unfold Core.toRamPc getRamBase getRamSize
  rw [same.ramSizeLog2, same.ramBaseMultiple]

def InvalidatedUpTo (size : Inst → Nat) (core : Core Inst) (start addr : Nat) (post : Core Inst) : Prop :=
  Invalidated size (core.halfwordsOf start addr) core post

variable {start addr : Nat} {reach : Core Inst}

lemma InvalidatedUpTo.byte (upTo : InvalidatedUpTo size core start addr reach) :
    ∃ post hit, reach.invalidateByte addr = some (post, hit) ∧
      InvalidatedUpTo size core start (addr + 1) post := by
  obtain ⟨post, hit, call, stale⟩ := invalidateByte_spec upTo.tracked addr
  refine ⟨post, hit, call, (upTo.trans stale).mono ?_⟩
  rintro i ⟨b, low, high, rfl⟩
  rcases Nat.lt_or_eq_of_le (Nat.le_of_lt_succ high) with prior | rfl
  · exact .inl ⟨b, low, prior, rfl⟩
  · exact .inr (upTo.sameMemory.toRamPc b).symm

lemma getRamBase_even (n : 1 ≤ core.ramSizeLog2) : core.getRamBase % 2 = 0 := by
  obtain ⟨log, large⟩ := Nat.exists_eq_add_of_le n
  simp [getRamBase, getRamSize, large, Nat.pow_add, Nat.mul_assoc]

lemma toRamPc_word (n : 1 ≤ core.ramSizeLog2) {b : Nat} (isIn : core.getRamBase ≤ addr)
    (al : addr % 4 = 0) (low : addr ≤ b) (high : b < addr + 4) :
    core.toRamPc b = core.toRamPc addr ∨ core.toRamPc b = core.toRamPc addr + 1 := by
  have even := getRamBase_even n
  unfold toRamPc
  omega

lemma InvalidatedUpTo.word (upTo : InvalidatedUpTo size core start addr reach) (n : 1 ≤ core.ramSizeLog2)
    (isIn : core.getRamBase ≤ addr) (al : addr % 4 = 0) :
    ∃ post hit, reach.invalidateWord addr = some (post, hit) ∧
      InvalidatedUpTo size core start (addr + 4) post := by
  obtain ⟨post, hit, call, stale⟩ := invalidateWord_spec upTo.tracked addr
  refine ⟨post, hit, call, (upTo.trans stale).mono ?_⟩
  rintro i ⟨b, low, high, rfl⟩
  rcases Nat.lt_or_ge b addr with prior | later
  · exact .inl ⟨b, low, prior, rfl⟩
  · rw [upTo.sameMemory.toRamPc]
    exact .inr (toRamPc_word n isIn al later high)

lemma InvalidatedUpTo.refl (tracked : core.ramDecodeCache.Tracked size) (start : Nat) :
    InvalidatedUpTo size core start start core :=
  .unchanged tracked fun _ ⟨_, low, high, _⟩ => absurd low (Nat.not_le_of_lt high)

/-- The invariant of the three loops of `invalidateRange`; `room` says that the
test of the second loop does not wrap around. -/
structure RangeLoop (size : Inst → Nat) (core : Core Inst) (start limit : Nat) (room : Nat → Prop)
    (addr : Nat) (reach : Core Inst) : Prop where
  low : start ≤ addr
  high : addr ≤ limit
  upTo : InvalidatedUpTo size core start addr reach
  room : room addr

variable {limit : Nat}

lemma RangeLoop.byte {room : Nat → Prop}
    (loop : RangeLoop size core start limit room addr reach) (small : limit < 2 ^ 32) (below : addr < limit)
    (next : room (addr + 1)) :
    ∃ post hit, reach.invalidateByte addr = some (post, hit) ∧ addr < (addr + 1) % 2 ^ 32 ∧
      addr < limit ∧ RangeLoop size core start limit room ((addr + 1) % 2 ^ 32) post := by
  obtain ⟨post, hit, call, upTo⟩ := loop.upTo.byte
  have low := loop.low
  rw [Nat.mod_eq_of_lt (by omega)]
  exact ⟨post, hit, call, by omega, below, by omega, by omega, upTo, next⟩

lemma invalidateRange_head (small : limit < 2 ^ 32) (ordered : start ≤ limit)
    (fits : start + 3 < 2 ^ 32) (tracked : core.ramDecodeCache.Tracked size) : ∃ post addr hit,
      invalidateWhile (fun addr => addr % 4 ≠ 0 ∧ addr < limit) 1 invalidateByte (limit - start)
          core start false = some (post, addr, hit) ∧ RangeLoop size core start limit
          (fun addr => addr % 4 = 0 ∨ addr = limit ∧ limit + 3 < 2 ^ 32) addr post := by
  obtain ⟨post, addr, hit, looped, ⟨low, high, upTo, room⟩, stop⟩ :=
    invalidateWhile_spec (fun addr => addr % 4 ≠ 0 ∧ addr < limit) 1 limit invalidateByte
      (RangeLoop size core start limit fun addr => addr + 3 < 2 ^ 32)
      (by
        intro addr reach loop goes
        obtain ⟨unaligned, below⟩ := of_decide_eq_true goes
        have room := loop.room
        exact loop.byte small below (by omega))
      (limit - start) start core false (Nat.le_refl _) ⟨Nat.le_refl _, ordered, .refl tracked start, fits⟩
  refine ⟨post, addr, hit, looped, low, high, upTo, ?_⟩
  have ends := of_decide_eq_false stop
  omega

lemma invalidateRange_words (hit : Bool) (small : limit < 2 ^ 32)
    (n : 1 ≤ core.ramSizeLog2) (isIn : core.getRamBase ≤ start) (loop : RangeLoop size core start limit
      (fun addr => addr % 4 = 0 ∨ addr = limit ∧ limit + 3 < 2 ^ 32) addr reach) : ∃ post last any,
      invalidateWhile (fun addr => (addr + 3) % 2 ^ 32 < limit) 4 invalidateWord (limit - start)
          reach addr hit = some (post, last, any) ∧
        RangeLoop size core start limit (fun _ => True) last post := by
  have low := loop.low
  obtain ⟨post, last, any, looped, ⟨low, high, upTo, room⟩, stop⟩ :=
    invalidateWhile_spec (fun addr => (addr + 3) % 2 ^ 32 < limit) 4 limit invalidateWord
      (RangeLoop size core start limit fun addr => addr % 4 = 0 ∨ addr = limit ∧ limit + 3 < 2 ^ 32)
      (by
        intro addr reach loop goes
        have fits := of_decide_eq_true goes
        have low := loop.low
        have high := loop.high
        -- At the limit itself the test fails, so here the address is aligned and the sum does not wrap.
        have al : addr % 4 = 0 := by
          have room := loop.room
          omega
        obtain ⟨post, hit, call, upTo⟩ := loop.upTo.word n (by omega) al
        rw [Nat.mod_eq_of_lt (by omega)]
        exact ⟨post, hit, call, by omega, by omega, by omega, by omega, upTo, by omega⟩)
      (limit - start) addr reach hit (by omega) loop
  exact ⟨post, last, any, looped, low, high, upTo, trivial⟩

lemma invalidateRange_tail (hit : Bool) (small : limit < 2 ^ 32)
    (loop : RangeLoop size core start limit (fun _ => True) addr reach) : ∃ post any,
      invalidateWhile (fun addr => addr < limit) 1 invalidateByte (limit - start) reach addr hit =
          some (post, limit, any) ∧ InvalidatedUpTo size core start limit post := by
  have low := loop.low
  obtain ⟨post, last, any, looped, ⟨low, high, upTo, room⟩, stop⟩ :=
    invalidateWhile_spec (fun addr => addr < limit) 1 limit invalidateByte
      (RangeLoop size core start limit fun _ => True)
      (fun addr reach loop goes => loop.byte small (of_decide_eq_true goes) trivial)
      (limit - start) addr reach hit (by omega) loop
  obtain rfl : last = limit := by
    have ends := of_decide_eq_false stop
    omega
  exact ⟨post, any, looped, upTo⟩

/-- The three loops of `invalidateRange` together reach every byte of the range. A range
that begins inside the last word is left out: if it ends there, the sum in the second
loop's test wraps. -/
lemma invalidateRange_spec (tracked : core.ramDecodeCache.Tracked size) (n : 1 ≤ core.ramSizeLog2)
    (isIn : core.getRamBase ≤ start) (ordered : start ≤ limit) (small : limit < 2 ^ 32)
    (fits : start + 3 < 2 ^ 32) : ∃ post hit, core.invalidateRange start limit = some (post, hit) ∧
      InvalidatedUpTo size core start limit post := by
  obtain ⟨first, word, hit, head, loop⟩ := invalidateRange_head small ordered fits tracked
  obtain ⟨snd, last, any, words, rest⟩ := invalidateRange_words hit small n isIn loop
  obtain ⟨post, all, tail, upTo⟩ := invalidateRange_tail any small rest
  exact ⟨post, all, by simp only [invalidateRange, head, words, tail, Option.bind_eq_bind, Option.bind_some,
    Option.pure_def], upTo⟩

end

end Core

end Axe
