import Axe.Core.Geometry
import Axe.Instruction.Transform

/-! Relative branches and calls after the transformation. The check of a target is one of a 32-bit pc against the size
of the decode cache; what it is for is said of byte addresses that are integers. -/

namespace Axe

/-- Operands are numbered in `Fin 6`. -/
local instance operands : NeZero 6 := ⟨by decide⟩

/-- Whether a conditional branch is taken if its register is not zero, or if it is. -/
def Opcode.condition : Opcode → Option Bool
  | .brft_ru6 | .brbt_ru6 | .brft_illegal_ru6 | .brbt_illegal_ru6
  | .brft_lru6 | .brbt_lru6 | .brft_illegal_lru6 | .brbt_illegal_lru6 => some true
  | .brff_ru6 | .brbf_ru6 | .brff_illegal_ru6 | .brbf_illegal_ru6
  | .brff_lru6 | .brbf_lru6 | .brff_illegal_lru6 | .brbf_illegal_lru6 => some false
  | _ => none

/-- The operand that a variant for illegal targets has the pc in. -/
def Opcode.illegalOperand : Opcode → Option (Fin 6)
  | .brft_illegal_ru6 | .brbt_illegal_ru6 | .brff_illegal_ru6 | .brbf_illegal_ru6
  | .brft_illegal_lru6 | .brbt_illegal_lru6 | .brff_illegal_lru6 | .brbf_illegal_lru6 => some 1
  | .brfu_illegal_u6 | .brbu_illegal_u6 | .blrb_illegal_u10 | .blrf_illegal_u10
  | .brfu_illegal_lu6 | .brbu_illegal_lu6 | .blrb_illegal_lu10 | .blrf_illegal_lu10 => some 0
  | _ => none

/-- The register on which a branch depends, and how. -/
def Decoded.condition (decoded : Decoded) : Option (Nat × Bool) :=
  decoded.opcode.condition.map (decoded.operands.op0, ·)

/-- The data of the ILLEGAL_PC exception that the instruction raises, with the condition. -/
def Decoded.illegalPc (decoded : Decoded) (cache : CacheGeometry) : Option (Option (Nat × Bool) × BitVec 32) :=
  decoded.opcode.illegalOperand.map fun operand =>
    (decoded.condition, cache.fromPc (BitVec.ofNat 32 (decoded.operands.get operand)))

def SystemLayout.getDecodeCacheContaining (layout : SystemLayout) (address : BitVec 32) : Option CacheGeometry :=
  if layout.core.isValidRamAddress address then some layout.core.ramDecodeCache
  else if layout.core.isValidRomAddress address then some layout.romDecodeCache
  else none

/-- The address lies in the range of the cache. -/
def CacheGeometry.Covers (cache : CacheGeometry) (address : Int) : Prop :=
  cache.base.toNat ≤ address ∧ address < cache.base.toNat + 2 * cache.size.toNat

/-- An instruction that is transformed, with the data of its opcode; no encoding has more than twenty bits for the
immediate. -/
structure RelativeBranch where
  address : BitVec 32
  isDualIssue : Bool
  decoded : Decoded
  operand : Fin 6
  length : Nat
  forward : Bool
  illegal : Opcode
  branch : decoded.opcode.transformation = .branch operand length forward illegal
  immediate : decoded.operands.get operand < 2 ^ 20

def Transformation.Raises (opc : Opcode) : Transformation → Prop
  | .branch operand length _ illegal => length ≤ 2 ∧ illegal.illegalOperand = some operand ∧
    illegal.condition = opc.condition ∧ (opc.condition ≠ none → operand ≠ 0) ∧ illegal ≠ opc
  | _ => True

instance (opc : Opcode) : (transformation : Transformation) → Decidable (transformation.Raises opc)
  | .branch .. => instDecidableAnd
  | .keep | .scale _ | .scaleIssueWidth | .variant .. | .mask => instDecidableTrue

lemma Opcode.transformation_raises (opc : Opcode) : opc.transformation.Raises opc := by
  cases opc <;> decide

lemma Operands.get_set (ops : Operands) (value : Nat) (opd : Fin 6) :
    (ops.set value opd).get opd = value := by
  match opd with
  | 0 | 1 | 2 | 3 | 4 | 5 => rfl

namespace RelativeBranch

variable (branch : RelativeBranch) (cache : CacheGeometry)

def offset : Nat := branch.decoded.operands.get branch.operand * if branch.isDualIssue then 2 else 1

/-- The byte address of the target, in the integers. -/
def target : Int :=
  branch.address.toNat + 2 * branch.length + (if branch.forward then 1 else -1) * (2 * branch.offset)

def transformed : Decoded :=
  instructionTransform cache.size.toNat (cache.toPc branch.address).toNat branch.isDualIssue branch.decoded

/-- What is claimed: the plain opcode with the pc of the target, or the exception with its address. -/
def Right : Prop :=
  (cache.Covers branch.target → branch.transformed cache =
    ⟨branch.decoded.opcode,
      branch.decoded.operands.set ((branch.target - cache.base.toNat) / 2).toNat branch.operand⟩) ∧
  (¬cache.Covers branch.target → (branch.transformed cache).opcode = branch.illegal ∧
    (branch.transformed cache).illegalPc cache = some (branch.decoded.condition, BitVec.ofInt 32 branch.target))

/-- The base is even or the target lies in the cache, and no address does that is the same in 33 bits. An instruction
below the base is in a memory that goes on at address zero. -/
def Fits : Prop :=
  if cache.base.toNat ≤ branch.address.toNat then
    (cache.base.toNat % 2 = branch.address.toNat % 2 ∨ cache.Covers branch.target) ∧
      ¬cache.Covers (branch.target + 2 ^ 33)
  else cache.base.toNat % 2 = branch.address.toNat % 2 ∧ ¬cache.Covers branch.target ∧
    ¬cache.Covers (branch.target + 2 ^ 32) ∧ ¬cache.Covers (branch.target + 2 ^ 32 + 2 ^ 33)

def pc : Nat := branchTarget (cache.toPc branch.address).toNat branch.length branch.offset branch.forward

variable {branch cache}

lemma transformed_eq : branch.transformed cache =
    ⟨if branch.pc cache < cache.size.toNat then branch.decoded.opcode else branch.illegal,
      branch.decoded.operands.set (branch.pc cache) branch.operand⟩ := by
  rw [transformed, instructionTransform, branch.branch]
  rfl

lemma raises : (Transformation.branch branch.operand branch.length branch.forward branch.illegal).Raises
    branch.decoded.opcode := branch.branch ▸ branch.decoded.opcode.transformation_raises

lemma plain_iff (pc : Nat) :
    branch.transformed cache = ⟨branch.decoded.opcode, branch.decoded.operands.set pc branch.operand⟩ ↔
      branch.pc cache < cache.size.toNat ∧ branch.pc cache = pc := by
  rw [transformed_eq, Decoded.mk.injEq]
  constructor
  · rintro ⟨opcode, ops⟩
    have pc := congrArg (·.get branch.operand) ops
    simp only [Operands.get_set] at pc
    exact ⟨by_contra fun illegal => raises.2.2.2.2 (by rwa [if_neg illegal] at opcode), pc⟩
  · rintro ⟨plain, rfl⟩
    exact ⟨if_pos plain, rfl⟩

lemma illegal_iff (data : BitVec 32) : (branch.transformed cache).opcode = branch.illegal ∧
        (branch.transformed cache).illegalPc cache = some (branch.decoded.condition, data) ↔
      ¬branch.pc cache < cache.size.toNat ∧ cache.fromPc (.ofNat 32 (branch.pc cache)) = data := by
  obtain ⟨-, opd, condition, register, other⟩ := branch.raises
  rw [transformed_eq]
  split
  case isTrue plain => simp [plain, Ne.symm other]
  case isFalse illegal =>
    have same : (Decoded.mk branch.illegal (branch.decoded.operands.set (branch.pc cache) branch.operand)).condition =
        branch.decoded.condition := by
      simp only [Decoded.condition, condition]
      cases depends : branch.decoded.opcode.condition with
      | none => rfl
      | some nonzero =>
        generalize branch.operand = index at register
        match index, register (by simp [depends]) with
        | 1, _ | 2, _ | 3, _ | 4, _ | 5, _ => rfl
    simp [illegal, Decoded.illegalPc, same, opd, Operands.get_set]

theorem right_iff_fits (branch : RelativeBranch) (cache : CacheGeometry) : branch.Right cache ↔ branch.Fits cache := by
  have length : branch.length ≤ 2 := branch.raises.1
  have few : branch.offset < 2 ^ 21 := by
    have := branch.immediate
    rw [offset]
    split <;> omega
  have data (p : Nat) : cache.fromPc (.ofNat 32 p) = BitVec.ofInt 32 branch.target ↔
      (p * 2 + cache.base.toNat) % 2 ^ 32 = branch.target % 2 ^ 32 := by
    rw [← BitVec.toNat_inj, BitVec.toNat_ofInt]
    simp only [CacheGeometry.fromPc, BitVec.toNat_add, BitVec.toNat_shiftLeft, BitVec.toNat_ofNat, Nat.shiftLeft_eq]
    omega
  have pc : (cache.toPc branch.address).toNat = (2 ^ 32 - cache.base.toNat + branch.address.toNat) % 2 ^ 32 / 2 := by
    simp [CacheGeometry.toPc, BitVec.toNat_ushiftRight, Nat.shiftRight_eq_div_pow]
  have below := branch.address.isLt
  have base := cache.base.isLt
  have size := cache.size.isLt
  rw [Right, plain_iff, illegal_iff, data, Fits]
  simp only [CacheGeometry.Covers, target, RelativeBranch.pc, branchTarget, pc]
  generalize cache.base.toNat = b, branch.address.toNat = a, cache.size.toNat = s at *
  cases branch.forward <;> simp only [Bool.false_eq_true, if_false, if_true] <;> split <;> omega

def toNext (address : BitVec 32) : RelativeBranch :=
  ⟨address, false, ⟨.brfu_u6, ⟨0, 0, 0, 0, 0, 0⟩⟩, 0, 1, true, .brfu_illegal_u6, rfl, by decide⟩

/-- The ROM is two bytes longer than what is left of the address space after its base, and goes on at address zero. -/
theorem rom_goes_on :
    let layout : SystemLayout := ⟨⟨16, 1, ⟨0x8000, 0x10000⟩, 0xfff00000, 0x100002⟩, ⟨0x100002, 0xfff00000⟩⟩
    layout.getDecodeCacheContaining 0 = some layout.romDecodeCache ∧ ¬(toNext 0).Right layout.romDecodeCache := by
  refine ⟨by decide, fun right => ?_⟩
  exact absurd (right.2 fun covers => absurd covers.1 (by decide)).1 (by decide)

end RelativeBranch
end Axe
