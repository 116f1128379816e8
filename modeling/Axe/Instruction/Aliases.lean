import Axe.Instruction.Layouts

/-! Words that are decoded to one instruction. The operands are compared by their codes, since
`bitpValue` gives two codes one width. -/

namespace Axe

/-- The codes of the operands that the opcode has, before a bit position is looked up. -/
def Opcode.codes (opc : Opcode) (low high : Nat) : List Nat :=
  match opc.encoding with
  | none => []
  | some e => (e.operands low high .cleared).toList.take opc.numOperands

/-- An instruction word of sixteen or of thirty-two bits. -/
inductive InstructionWord where
  | short (low : BitVec 16)
  | long (low high : BitVec 16)
  deriving DecidableEq, Repr

namespace InstructionWord

def isLong : InstructionWord → Bool
  | .short _ => false
  | .long _ _ => true

def low : InstructionWord → Nat
  | .short low | .long low _ => low.toNat

def high : InstructionWord → Nat
  | .short _ => 0
  | .long _ high => high.toNat

def reads (type : NodeType) (word : InstructionWord) : Option (Opcode × List Nat) :=
  match instructionDecode word.low word.high word.isLong type with
  | none => none
  | some (opc, _) =>
    if opc = .illegal_instruction ∨ opc = .illegal_pc ∨ (opc.size == 4) != word.isLong then none
    else some (opc, opc.codes word.low word.high)

/-- No other word of the length is decoded to the same opcode with the same operands. -/
def Unambiguous (type : NodeType) (word : InstructionWord) : Prop :=
  ∀ other : InstructionWord, other.isLong = word.isLong → word.reads type ≠ none →
    other.reads type = word.reads type → other = word

end InstructionWord

section

variable {type : NodeType} {opc : Opcode} {e : Encoding}

section

variable (encoding : opc.encoding = some e)
include encoding

lemma Opcode.codes_eq (low high : Nat) : opc.codes low high = e.codes low high := by
  have count : opc.numOperands = e.numOperands := by cases opc <;> cases encoding <;> rfl
  simp only [Opcode.codes, encoding, count, Encoding.codes]

lemma Opcode.size_eq : (opc.size == 4) = e.isLong := by
  cases opc <;> cases encoding <;> rfl

lemma Opcode.legal : opc ≠ .illegal_instruction ∧ opc ≠ .illegal_pc := by
  constructor <;> rintro rfl <;> cases encoding

end

namespace InstructionWord

variable {word : InstructionWord}

lemma reads_of_carries (carries : Carries type word.low word.high word.isLong opc e)
    (len : e.isLong = word.isLong) : word.reads type = some (opc, e.codes word.low word.high) := by
  obtain ⟨operands, found⟩ := carries.finds
  have legal := Opcode.legal carries.encoding
  have size := Opcode.size_eq carries.encoding
  simp [reads, found, legal, size, len, Opcode.codes_eq carries.encoding]

lemma carries_of_reads {codes : List Nat} (read : word.reads type = some (opc, codes)) :
    ∃ e, Carries type word.low word.high word.isLong opc e ∧ e.isLong = word.isLong ∧
      codes = e.codes word.low word.high := by
  rw [reads] at read
  split at read
  · cases read
  · rename_i found
    split at read
    · cases read
    · rename_i ok
      cases read
      simp only [not_or, bne_iff_ne, Decidable.not_not] at ok
      obtain ⟨-, -, illegal⟩ | ⟨e, carries, -⟩ := recognised found
      · exact absurd illegal ok.2.1
      · refine ⟨e, carries, ?_, Opcode.codes_eq carries.encoding _ _⟩
        rw [← Opcode.size_eq carries.encoding, ok.2.2]

lemma low_lt (word : InstructionWord) : word.low < 2 ^ 16 := by
  cases word <;> exact BitVec.isLt _

lemma high_lt (word : InstructionWord) : word.high < 2 ^ 16 := by
  cases word with
  | short => exact Nat.two_pow_pos 16
  | long => exact BitVec.isLt _

lemma ext_halves {other : InstructionWord} (len : other.isLong = word.isLong) (lows : other.low = word.low)
    (highs : other.high = word.high) : other = word := by
  cases other <;> cases word
  all_goals first
    | cases len; done
    | simp_all [low, high, BitVec.toNat_inj]

lemma exists_halves (word : InstructionWord) {first snd : Nat} (firstBound : first < 2 ^ 16)
    (secondBound : snd < 2 ^ 16) (short : word.isLong = false → snd = word.high) :
    ∃ other : InstructionWord, other.isLong = word.isLong ∧ other.low = first ∧ other.high = snd := by
  cases word with
  | short half =>
    refine ⟨.short (BitVec.ofNat 16 first), rfl, ?_, (short rfl).symm⟩
    exact (BitVec.toNat_ofNat ..).trans (Nat.mod_eq_of_lt firstBound)
  | long half other =>
    refine ⟨.long (BitVec.ofNat 16 first) (BitVec.ofNat 16 snd), rfl, ?_, ?_⟩
    · exact (BitVec.toNat_ofNat ..).trans (Nat.mod_eq_of_lt firstBound)
    · exact (BitVec.toNat_ofNat ..).trans (Nat.mod_eq_of_lt secondBound)

end InstructionWord

end

theorem InstructionWord.unambiguous_iff (type : NodeType) (word : InstructionWord) : word.Unambiguous type ↔
      ¬∃ opc e, Carries type word.low word.high word.isLong opc e ∧ e.isLong = word.isLong ∧
        e.Loose type word.low word.high := by
  constructor
  · rintro unambiguous ⟨opc, e, carries, len, loose⟩
    obtain ⟨low', lowBound, high', highBound, ne, short, isMatch, codes⟩ :=
      exists_copy carries.isMatch loose word.low_lt word.high_lt
    obtain ⟨other, otherLength, rfl, rfl⟩ := word.exists_halves lowBound highBound (len ▸ short)
    have copies : Carries type other.low other.high other.isLong opc e :=
      ⟨carries.encoding, carries.on, isMatch, fun long => otherLength.trans (len.symm.trans long)⟩
    have read := reads_of_carries carries len
    have read' := reads_of_carries copies (len.trans otherLength.symm)
    have same := unambiguous other otherLength (by simp [read]) (by rw [read, read', codes])
    subst same
    simp at ne
  · intro tight other len reads same
    obtain ⟨⟨opc, codes⟩, read⟩ := Option.ne_none_iff_exists'.mp reads
    obtain ⟨e, carries, sized, rfl⟩ := carries_of_reads read
    obtain ⟨e', carries', -, codes⟩ := carries_of_reads (same.trans read)
    cases carries.encoding.symm.trans carries'.encoding
    have fixed : ¬e.Loose type word.low word.high := fun loose => tight ⟨opc, e, carries, sized, loose⟩
    obtain ⟨lows, highs⟩ := codes_agree carries.isMatch carries'.isMatch fixed codes
    apply ext_halves len (lows.eq word.low_lt other.low_lt).symm
    cases long : e.isLong with
    | true => exact ((highs long).eq word.high_lt other.high_lt).symm
    | false =>
      rw [sized] at long
      cases word with
      | long => cases long
      | short =>
        cases other with
        | long => cases len
        | short => rfl

/-- Two words that differ in the second halfword are one `LSUB`. -/
theorem lsub_aliased : ¬(InstructionWord.long 0xf800 0x0da0).Unambiguous .xs1G := by
  intro unambiguous
  have same := unambiguous (.long 0xf800 0x0ec0) rfl (by decide) (by decide)
  exact absurd same (by decide)

end Axe
