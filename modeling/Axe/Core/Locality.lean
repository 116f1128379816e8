import Axe.Core.Code

/-! Which bytes a decoded instruction depends on. An entry of the RAM decode cache depends on the
halfwords it occupies and an entry of the ROM's on nothing that changes. -/

namespace Axe

variable {Inst : Type}

def Board.romEncoding (board : Board) (pc : Nat) : Assignment :=
  instructionDecode (board.loadRomShort (2 * pc + board.romBase))
    (if 2 * (pc + 1) < board.romSize then board.loadRomShort (2 * (pc + 1) + board.romBase) else 0)
    (2 * (pc + 1) < board.romSize) board.type

namespace Core

variable {board : Board} {core : Core Inst}

lemma isValidRamAddress_iff (core : Core Inst) (addr : Nat) : core.isValidRamAddress addr = true ↔
      core.getRamBase ≤ addr ∧ addr < core.getRamBase + core.getRamSize := by
  have pos : 0 < core.getRamSize := Nat.two_pow_pos _
  rw [isValidRamAddress, beq_iff_eq, getRamBase, ← getRamSize, Nat.mul_comm, ← Nat.succ_mul]
  constructor
  · intro same
    rw [← same]
    exact ⟨Nat.div_mul_le_self _ _, Nat.lt_mul_of_div_lt (Nat.lt_succ_self _) pos⟩
  · rintro ⟨low, high⟩
    have atMost := Nat.div_lt_of_lt_mul (Nat.mul_comm _ _ ▸ high)
    exact Nat.le_antisymm (Nat.le_of_lt_succ atMost) ((Nat.le_div_iff_mul_le pos).mpr low)

lemma isValidRomAddress_iff {board : Board} (fits : board.romBase + board.romSize ≤ 2 ^ 32) {addr : Nat}
    (small : addr < 2 ^ 32) : board.isValidRomAddress addr = true ↔
      board.romBase ≤ addr ∧ addr < board.romBase + board.romSize := by
  rw [Board.isValidRomAddress, decide_eq_true_iff]
  omega

namespace Geometry

lemma even (geom : core.Geometry board) : core.getRamSize % 2 = 0 := by
  obtain ⟨log, large⟩ := Nat.exists_eq_add_of_le geom.ram
  rw [getRamSize, large, Nat.pow_add]
  omega

lemma fromRamPc (geom : core.Geometry board) {pc : Nat} (isIn : pc < core.getRamSize / 2) :
    core.fromRamPc pc = 2 * pc + core.getRamBase := by
  have fits := geom.fits
  exact Nat.mod_eq_of_lt (by omega)

end Geometry

lemma storeBytes_memory (core : Core Inst) (addr : Nat) (bytes : List (BitVec 8)) {i : Nat}
    (out : ∀ j < bytes.length, i ≠ addr - core.getRamBase + j) :
    (core.storeBytes addr bytes).memory i = core.memory i := by
  refine if_neg fun ⟨low, high⟩ => ?_
  exact out (i - (addr - core.getRamBase)) (by omega) (by omega)

def halfword (core : Core Inst) (pc : Nat) : Nat := shortOf (core.memory (2 * pc)) (core.memory (2 * pc + 1))

lemma loadShort_ram (board : Board) {pc : Nat} (isIn : pc < core.getRamSize / 2) :
    core.loadShort board (2 * pc + core.getRamBase) = core.halfword pc := by
  have valid : core.isValidRamAddress (2 * pc + core.getRamBase) = true :=
    (core.isValidRamAddress_iff _).mpr (by omega)
  rw [loadShort, if_pos valid, loadRamShort, halfword, Nat.add_sub_cancel]

/-- The halfword after the last one of RAM is not looked at: nothing follows RAM directly. -/
lemma Geometry.decodeAt_ram (geom : core.Geometry board) {pc : Nat} (isIn : pc < core.getRamSize / 2) :
    core.decodeAt board (core.fromRamPc pc) =
      instructionDecode (core.halfword pc) (if pc + 1 < core.getRamSize / 2 then core.halfword (pc + 1) else 0)
        (pc + 1 < core.getRamSize / 2) board.type := by
  have fits := geom.fits
  have even := geom.even
  have addr : (2 * pc + core.getRamBase + 2) % 2 ^ 32 = 2 * (pc + 1) + core.getRamBase := by omega
  have valid : core.isValidAddress board (2 * (pc + 1) + core.getRamBase) = decide (pc + 1 < core.getRamSize / 2) := by
    have ram := core.isValidRamAddress_iff (2 * (pc + 1) + core.getRamBase)
    have small : 2 * (pc + 1) + core.getRamBase < 2 ^ 32 := by omega
    have rom := isValidRomAddress_iff geom.rom small
    have apart := geom.apart
    rw [isValidAddress, Bool.eq_iff_iff, Bool.or_eq_true, ram, rom, decide_eq_true_iff]
    omega
  simp only [decodeAt]
  rw [geom.fromRamPc isIn, addr, valid, loadShort_ram board isIn]
  by_cases next : pc + 1 < core.getRamSize / 2
  · rw [if_pos (decide_eq_true next), if_pos next, loadShort_ram board next]
  · rw [if_neg (by simpa using next), if_neg next]

lemma Geometry.decodeAt_rom (geom : core.Geometry board) {pc : Nat} (isIn : 2 * pc < board.romSize) :
    core.decodeAt board ((2 * pc + board.romBase) % 2 ^ 32) = board.romEncoding pc := by
  have fits := geom.fits
  have romFits := geom.rom
  have apart := geom.apart
  rw [Board.romEncoding]
  have here : (2 * pc + board.romBase) % 2 ^ 32 = 2 * pc + board.romBase := Nat.mod_eq_of_lt (by omega)
  have out : ∀ addr, board.romBase ≤ addr → addr ≤ board.romBase + board.romSize →
      core.isValidRamAddress addr = false := by
    intro addr low high
    rw [Bool.eq_false_iff, Ne, isValidRamAddress_iff]
    omega
  have load : core.loadShort board (2 * pc + board.romBase) = board.loadRomShort (2 * pc + board.romBase) := by
    rw [loadShort, out _ (by omega) (by omega), if_neg Bool.false_ne_true]
  simp only [decodeAt]
  rw [here, load]
  by_cases next : 2 * (pc + 1) < board.romSize
  · have addr : (2 * pc + board.romBase + 2) % 2 ^ 32 = 2 * (pc + 1) + board.romBase := by omega
    have rom : board.isValidRomAddress (2 * (pc + 1) + board.romBase) = true :=
      (isValidRomAddress_iff romFits (by omega)).mpr (by omega)
    rw [addr, isValidAddress, rom, Bool.or_true, if_pos rfl, if_pos next, decide_eq_true next, loadShort,
      out _ (by omega) (by omega), if_neg Bool.false_ne_true]
  · -- The ROM may end at the last address; what comes next is then address 0.
    have rom : board.isValidRomAddress ((2 * pc + board.romBase + 2) % 2 ^ 32) = false := by
      rw [Bool.eq_false_iff, Ne, isValidRomAddress_iff romFits (Nat.mod_lt _ (by omega))]
      omega
    have ram : core.isValidRamAddress ((2 * pc + board.romBase + 2) % 2 ^ 32) = false := by
      rw [Bool.eq_false_iff, Ne, isValidRamAddress_iff]
      omega
    rw [isValidAddress, rom, ram, Bool.or_self, if_neg Bool.false_ne_true, if_neg next, decide_eq_false next]

lemma halfword_congr {core post : Core Inst} {pc : Nat}
    (bytes : ∀ i < 2, post.memory (2 * pc + i) = core.memory (2 * pc + i)) : post.halfword pc = core.halfword pc := by
  have low := bytes 0 (by omega)
  have high := bytes 1 (by omega)
  rw [Nat.add_zero] at low
  rw [halfword, halfword, low, high]

lemma Geometry.decodeAt_local {core post : Core Inst} (geom : core.Geometry board)
    (geometryAfter : post.Geometry board) (ram : post.getRamSize = core.getRamSize) {pc : Nat}
    (isIn : pc < core.getRamSize / 2) {opc : Opcode} {args : Operands → Operands}
    (known : core.decodeAt board (core.fromRamPc pc) = some (opc, args))
    (bytes : ∀ i < opc.size, post.memory (2 * pc + i) = core.memory (2 * pc + i)) :
    post.decodeAt board (post.fromRamPc pc) = some (opc, args) := by
  have two := opc.two_le_size
  rw [geometryAfter.decodeAt_ram (ram ▸ isIn), ram, halfword_congr fun i small => bytes i (by omega)]
  rw [geom.decodeAt_ram isIn] at known
  by_cases long : opc.size = 4
  · have next : post.halfword (pc + 1) = core.halfword (pc + 1) := by
      refine halfword_congr fun i small => ?_
      have byte := bytes (2 + i) (by omega)
      rwa [show 2 * pc + (2 + i) = 2 * (pc + 1) + i by omega] at byte
    rw [next]
    exact known
  · exact instructionDecode_short known long _

end Core

/-- The entry is what decoding the encoding gave, as far as its opcode uses operands. -/
structure Entry.Of (asgn : Assignment) (cacheSize pc : Nat) (entry : Entry) : Prop where
  raw : ∃ opc args pre, asgn = some (opc, args) ∧ entry.raw = ⟨opc, args pre⟩
  opcode : entry.opcode = (instructionTransform cacheSize pc entry.dualIssue entry.raw).opcode
  used : entry.decoded.used = (instructionTransform cacheSize pc entry.dualIssue entry.raw).used

namespace Entry

variable {asgn : Assignment} {cacheSize pc : Nat} {entry : Entry}

lemma make_of (known : asgn.isSome = true) (cacheSize pc : Nat) (dualIssue : Bool) (pre : Decoded) :
    (Entry.make asgn cacheSize pc dualIssue pre).Of asgn cacheSize pc := by
  obtain ⟨⟨opc, args⟩, rfl⟩ := Option.isSome_iff_exists.mp known
  exact ⟨⟨opc, args, pre.operands, rfl, rfl⟩, rfl, rfl⟩

lemma make_breakpoint (cacheSize pc : Nat) (dualIssue : Bool) (pre : Decoded) :
    (Entry.make (assign .breakpoint) cacheSize pc dualIssue pre).opcode = .breakpoint := rfl

lemma Of.size {opc : Opcode} {args : Operands → Operands} (made : entry.Of (some (opc, args)) cacheSize pc) :
    entry.size = opc.size := by
  obtain ⟨other, values, pre, same, raw⟩ := made.raw
  cases same
  rw [Entry.size, Opcode.size, made.opcode, instructionTransform_format, raw, Opcode.size]

variable {low high : Nat} {highValid : Bool} {type : NodeType}

section

variable (made : entry.Of (instructionDecode low high highValid type) cacheSize pc)
include made

lemma Of.raw_eq (pre : Decoded) :
    ((instructionDecode low high highValid type).run pre).opcode = entry.raw.opcode ∧
      ((instructionDecode low high highValid type).run pre).used = entry.raw.used := by
  obtain ⟨opc, args, found, known, raw⟩ := made.raw
  rw [known, raw]
  exact ⟨rfl, instructionDecode_used known pre.operands found⟩

lemma Of.now {mode : Bool}
    (fitting : entry.dualIssue = mode ∨ entry.raw.opcode.relative = false) (pre : Decoded) : entry.opcode =
        (instructionTransform cacheSize pc mode ((instructionDecode low high highValid type).run pre)).opcode ∧
      entry.decoded.used =
        (instructionTransform cacheSize pc mode ((instructionDecode low high highValid type).run pre)).used := by
  obtain ⟨opcode, used⟩ := made.raw_eq pre
  have same := instructionTransform_congr opcode used cacheSize pc mode
  have modes : instructionTransform cacheSize pc mode entry.raw =
      instructionTransform cacheSize pc entry.dualIssue entry.raw := by
    rcases fitting with rfl | abs
    · rfl
    · exact instructionTransform_mode abs _ _ _ _
  rw [same.1, same.2, modes]
  exact ⟨made.opcode, made.used⟩

/-- Operands that `interpretOne` left behind are the entry's own, unless the mode matters. -/
lemma Of.interpreted_used
    (abs : entry.raw.opcode.relative = false) (mode : Bool) (pre : Decoded) :
    (⟨entry.opcode, (Entry.make (instructionDecode low high highValid type) cacheSize pc mode
      pre).operands⟩ : Decoded).used = entry.decoded.used := by
  have now := made.now (.inr abs : entry.dualIssue = mode ∨ _) pre
  rw [now.2]
  simp only [Decoded.used, Entry.make, now.1]

end

lemma Of.withOperands (made : entry.Of asgn cacheSize pc) {args : Operands}
    (used : (⟨entry.opcode, args⟩ : Decoded).used = entry.decoded.used) :
    { entry with operands := args }.Of asgn cacheSize pc :=
  ⟨made.raw, made.opcode, used.trans made.used⟩

end Entry

end Axe
