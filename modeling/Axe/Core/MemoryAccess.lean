import Axe.Core.Buffers

/-! The debugger and the loader read and write RAM by ranges. A write takes the instructions
decoded from the range out of the decode cache. -/

namespace Axe

namespace Core

variable {Inst : Type} (core : Core Inst) (addr : Nat)

/-- The test of `readMemory` and `writeMemory`. The end of RAM is a word; the sum is made in 64 bits, where it does not
wrap for an object that the host can have. -/
def rejects (size : Nat) : Bool :=
  addr < core.getRamBase || (core.getRamBase + core.getRamSize) % 2 ^ 32 ≤ addr + size

def readMemory (size : Nat) : Option (List (BitVec 8)) :=
  if size = 0 then some []
  else if core.rejects addr size then none
  else some ((List.range size).map fun i => core.memory (addr - core.getRamBase + i))

/-- `writeMemory` with the value it returns; `none` if the invalidation leaves the table. -/
def writeMemoryResult (bytes : List (BitVec 8)) : Option (Core Inst × Bool) :=
  if bytes = [] then some (core, true)
  else if core.rejects addr bytes.length then some (core, false)
  else
    ((core.storeBytes addr bytes).invalidateRange addr (addr + bytes.length)).map fun done => (done.1, true)

structure Written (size : Inst → Nat) (bytes : List (BitVec 8)) (post : Core Inst) : Prop where
  stored : ∀ i (inside : i < bytes.length), post.memory (addr - core.getRamBase + i) = bytes[i]
  others : ∀ j, (∀ i < bytes.length, j ≠ addr - core.getRamBase + i) → post.memory j = core.memory j
  read : post.readMemory addr bytes.length = some bytes
  clear : ∀ i < bytes.length, ∀ pc, ¬post.ramDecodeCache.Covers size pc (post.toRamPc (addr + i))

/-- A write is made exactly if the range lies in RAM and changes nothing otherwise, and a range that can be written
can be read. -/
structure AccessRight (size : Inst → Nat) (bytes : List (BitVec 8)) : Prop where
  write : ∃ post result, core.writeMemoryResult addr bytes = some (post, result) ∧
    (result = true ↔ core.LiesInRam addr bytes.length) ∧
    (result = true → core.Written addr size bytes post) ∧ (result = false → post = core)
  read : (core.readMemory addr bytes.length).isSome = true ↔ core.LiesInRam addr bytes.length

/-- A range of RAM that is not empty ends before RAM does, and RAM before the last address. -/
def RangeFits (len : Nat) : Prop :=
  len ≠ 0 → core.LiesInRam addr len →
    addr + len < core.getRamBase + core.getRamSize ∧ core.getRamBase + core.getRamSize < 2 ^ 32

end Core

namespace Core

variable {Inst : Type} {core : Core Inst} {addr len : Nat}

lemma liesInRam_iff_bounds (some : len ≠ 0) : core.LiesInRam addr len ↔
    core.getRamBase ≤ addr ∧ addr + len ≤ core.getRamBase + core.getRamSize := by
  constructor
  · intro lies
    have first := lies 0 (Nat.pos_of_ne_zero some)
    have last := lies (len - 1) (by omega)
    omega
  · intro bounds i isIn
    omega

lemma rejects_right_iff (ram : core.getRamBase + core.getRamSize ≤ 2 ^ 32) (some : len ≠ 0) :
    (core.rejects addr len = false ↔ core.LiesInRam addr len) ↔ core.RangeFits addr len := by
  simp only [rejects, RangeFits, liesInRam_iff_bounds some, Bool.or_eq_false_iff, decide_eq_false_iff_not, ne_eq,
    some, not_false_eq_true, true_implies]
  -- The end of RAM is either itself or, as a word, zero.
  rcases Nat.lt_or_eq_of_le ram with below | top
  · rw [Nat.mod_eq_of_lt below]
    omega
  · rw [top, Nat.mod_self]
    omega

lemma readMemory_isSome (some : len ≠ 0) :
    (core.readMemory addr len).isSome = true ↔ core.rejects addr len = false := by
  rw [readMemory, if_neg some]
  cases core.rejects addr len <;> simp

section

variable {size : Inst → Nat} {bytes : List (BitVec 8)}

lemma storeBytes_stored (i : Nat) (isIn : i < bytes.length) :
    (core.storeBytes addr bytes).memory (addr - core.getRamBase + i) = bytes[i] := by
  simp only [storeBytes]
  rw [if_pos ⟨Nat.le_add_right _ _, Nat.add_lt_add_left isIn _⟩, Nat.add_sub_cancel_left]
  simp [isIn]

lemma SameMemory.readMemory {post : Core Inst} (same : core.SameMemory post) (len : Nat) :
    post.readMemory addr len = core.readMemory addr len := by
  rw [Core.readMemory, Core.readMemory, rejects, rejects, same.getRamBase, same.getRamSize, same.memory]

lemma readMemory_storeBytes (some : bytes ≠ []) (ok : core.rejects addr bytes.length = false) :
    (core.storeBytes addr bytes).readMemory addr bytes.length = .some bytes := by
  have same : (core.storeBytes addr bytes).rejects addr bytes.length = core.rejects addr bytes.length := rfl
  rw [readMemory, if_neg (by simpa using some), same, ok, if_neg Bool.false_ne_true]
  congr 1
  apply List.ext_getElem
  · simp
  · intro i _ isIn
    rw [List.getElem_map, List.getElem_range]
    exact storeBytes_stored i isIn

lemma walkable (ram : core.getRamBase + core.getRamSize ≤ 2 ^ 32) (some : len ≠ 0)
    (ok : core.rejects addr len = false) :
    1 ≤ core.ramSizeLog2 ∧ core.getRamBase ≤ addr ∧ addr + len < 2 ^ 32 ∧
      (addr % 4 = 0 ∨ addr + len + 3 < 2 ^ 32) := by
  simp only [rejects, Bool.or_eq_false_iff, decide_eq_false_iff_not] at ok
  have below : core.getRamBase + core.getRamSize < 2 ^ 32 := by
    by_contra top
    rw [show core.getRamBase + core.getRamSize = 2 ^ 32 by omega, Nat.mod_self] at ok
    omega
  rw [Nat.mod_eq_of_lt below] at ok
  rw [getRamBase, getRamSize] at ok below ⊢
  rcases log : core.ramSizeLog2 with _ | _ | more
  · rw [log] at ok
    omega
  · rw [log] at ok below
    omega
  · -- Both ends of RAM are on word boundaries.
    rw [log] at ok below
    have size : 2 ^ (more + 2) = 4 * 2 ^ more := by rw [Nat.pow_add, Nat.mul_comm]
    rw [size, Nat.mul_assoc] at ok below
    rw [size, Nat.mul_assoc]
    omega

lemma write_of_accepted (seen : core.ramDecodeCache.Tracked size)
    (ram : core.getRamBase + core.getRamSize ≤ 2 ^ 32) (some : bytes ≠ [])
    (ok : core.rejects addr bytes.length = false) :
    ∃ post, core.writeMemoryResult addr bytes = .some (post, true) ∧ core.Written addr size bytes post := by
  obtain ⟨n, isIn, small, fits⟩ := walkable ram (by simpa using some) ok
  have put : (core.storeBytes addr bytes).ramDecodeCache.Tracked size := seen
  obtain ⟨post, hit, called, upTo⟩ :=
    invalidateRange_spec put n isIn (Nat.le_add_right addr bytes.length) small (by omega)
  refine ⟨post, ?_, ?_, ?_, ?_, ?_⟩
  · rw [writeMemoryResult, if_neg some, ok, if_neg Bool.false_ne_true, called]
    rfl
  · intro i bound
    rw [upTo.sameMemory.memory]
    exact storeBytes_stored i bound
  · intro j out
    rw [upTo.sameMemory.memory]
    exact storeBytes_memory core addr bytes out
  · rw [upTo.sameMemory.readMemory]
    exact readMemory_storeBytes some ok
  · intro i bound pc
    rw [upTo.sameMemory.toRamPc]
    exact upTo.clears pc _ ⟨addr + i, Nat.le_add_right _ _, Nat.add_lt_add_left bound _, rfl⟩

end

end Core

end Axe
