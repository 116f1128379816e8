import Axe.Instruction.Lookup

/-! Which halfwords `instructionDecode` decodes at all, and whether the register operands it then
gives are registers. A word with no leaf leaves the output variables as they were: none of the
leaves assigns `ILLEGAL_INSTRUCTION`. -/

namespace Axe

/-- How many operands are registers; they come before the immediate ones. -/
def Format.registers : Format → Nat
  | .f0r | .fu6 | .fu10 | .fl0r | .flu6 | .flu10 | .pseudo => 0
  | .f1r | .frus | .fru6 | .flru6 => 1
  | .f2r | .f2rus | .fl2r | .fl2rus => 2
  | .f3r | .fl3r | .fl3rus => 3
  | .fl4r | .fl4rus => 4
  | .fl5r => 5
  | .fl6r => 6

namespace Encoding

def registers : Encoding → Nat
  | .r0 _ | .u6 _ _ | .u10 _ _ | .lu6 _ _ | .lu10 _ _ | .l0r => 0
  | .r1 _ _ | .ru6 _ _ | .anyRu6 _ _ | .lru6 _ _ | .anyLru6 _ _ => 1
  | .r2 _ _ | .looseR2 _ _ | .l2r _ _ => 2
  | .r3 _ | .l3r _ _ | .looseL3r _ | .untestedL3r _ => 3
  | .l4r _ _ => 4
  | .l5r _ _ => 5
  | .l6r _ => 6

def limit : Encoding → Nat
  | .anyRu6 _ _ | .anyLru6 _ _ => 16
  | _ => 12

/-- The code of three operands is one, also where nothing tests it. -/
def Packed (low : Nat) : Encoding → Prop
  | .untestedL3r _ => test3R low = true
  | _ => True

end Encoding

def Opcode.registerLimit (opc : Opcode) : Nat := (opc.encoding.map Encoding.limit).getD 12

def Decoded.RegistersValid (decoded : Decoded) : Prop :=
  ∀ register ∈ decoded.operands.toList.take decoded.opcode.format.registers,
    register < decoded.opcode.registerLimit

/-- The opcode is assigned, an illegal one if the halfwords carry no instruction; nothing that is used depends on
what the output variables held; and the register operands are registers. -/
def DecodesSafely (low high : Nat) (highValid : Bool) (type : NodeType) : Prop :=
  ∃ opc args, instructionDecode low high highValid type = some (opc, args) ∧
    ((¬∃ other e, Carries type low high highValid other e) → opc = .illegal_instruction ∨ opc = .illegal_pc) ∧
    (∀ pre pre', (⟨opc, args pre⟩ : Decoded).used = (⟨opc, args pre'⟩ : Decoded).used) ∧
    ∀ pre, (⟨opc, args pre⟩ : Decoded).RegistersValid

section

variable {type : NodeType} {low high : Nat} {e : Encoding} {opc : Opcode}

lemma register_lt {bits digit : Nat} (small : bits < 4) (ternary : digit < 3) : register bits digit < 12 := by
  simp only [register]
  omega

lemma decode2ROperands_lt (pre : Operands) (two : test2R low = true) :
    (decode2ROperands pre low).op0 < 12 ∧ (decode2ROperands pre low).op1 < 12 := by
  have code : combined low < 9 := of_decide_eq_true two
  exact ⟨register_lt (bitRange_lt low 3 2) (Nat.mod_lt _ (by decide)), register_lt (bitRange_lt low 1 0) (by omega)⟩

lemma decode3ROperands_lt (pre : Operands) (three : test3R low = true) :
    (decode3ROperands pre low).op0 < 12 ∧ (decode3ROperands pre low).op1 < 12 ∧
      (decode3ROperands pre low).op2 < 12 := by
  have code : bitRange low 10 6 < 27 := of_decide_eq_true three
  exact ⟨register_lt (bitRange_lt low 5 4) (Nat.mod_lt _ (by decide)),
    register_lt (bitRange_lt low 3 2) (Nat.mod_lt _ (by decide)), register_lt (bitRange_lt low 1 0) (by omega)⟩

lemma test3R_of_testL3R (three : testL3R high low = true) : test3R low = true :=
  ((Bool.and_eq_true _ _).mp three).1

lemma Encoding.Matches.registers_lt (fit : e.Matches type low high) (packed : e.Packed low)
    (pre : Operands) : ∀ register ∈ (e.operands low high pre).toList.take e.registers, register < e.limit := by
  cases e
  all_goals simp only [Encoding.operands, Operands.toList, Encoding.registers, Encoding.limit, List.take,
    List.forall_mem_cons, List.not_mem_nil, false_imp_iff, implies_true, and_true, decode1ROperands, decodeRU6Operands,
    decodeLRU6Operands, decodeL4ROperands, decodeL5ROperands, decodeL6ROperands]
  case r1 => exact of_decide_eq_true ((Bool.and_eq_true _ _).mp fit.2.1).2
  case r2 | looseR2 => exact decode2ROperands_lt pre fit.2.2.1
  case l2r => exact decode2ROperands_lt pre ((Bool.and_eq_true _ _).mp fit.2.2.2.1).1
  case ru6 => exact of_decide_eq_true fit.2.1
  case lru6 => exact of_decide_eq_true fit.2.2.1
  case anyRu6 => exact bitRange_lt low 9 6
  case anyLru6 => exact bitRange_lt high 9 6
  case r3 => exact decode3ROperands_lt pre fit.2
  case l3r => exact decode3ROperands_lt pre (test3R_of_testL3R fit.2.2.1)
  case looseL3r => exact decode3ROperands_lt pre (test3R_of_testL3R fit.2.2)
  case untestedL3r => exact decode3ROperands_lt pre packed
  case l4r =>
    simp only [Encoding.Matches, testL4R, Bool.and_eq_true, decide_eq_true_eq] at fit
    obtain ⟨-, -, ⟨⟨code, fourth⟩, -⟩, -⟩ := fit
    have triple := decode3ROperands_lt pre (decide_eq_true code)
    exact ⟨triple.1, triple.2.1, triple.2.2, fourth⟩
  case l5r =>
    obtain ⟨-, -, -, five, -⟩ := fit
    simp only [testL5R, Bool.and_eq_true, Bool.not_eq_true', decide_eq_false_iff_not] at five
    have code : bitRange low 10 6 < 27 := by omega
    have triple := decode3ROperands_lt pre (decide_eq_true code)
    -- the other two are the operands of a two-register instruction in the second halfword
    have pair := decode2ROperands_lt pre five.2
    exact ⟨triple.1, triple.2.1, triple.2.2, pair.1, pair.2⟩
  case l6r =>
    obtain ⟨lowCode, highCode⟩ := (Bool.and_eq_true _ _).mp fit.2.2
    have triple := decode3ROperands_lt pre lowCode
    have rest := decode3ROperands_lt pre highCode
    exact ⟨triple.1, triple.2.1, triple.2.2, rest.1, rest.2.1, rest.2.2⟩

lemma Opcode.registers_le (enc : opc.encoding = some e) : opc.format.registers ≤ e.registers := by
  cases opc <;> cases enc <;> decide

lemma Opcode.bitp_registers (opc : Opcode) (args : Operands) :
    (opc.bitp args).toList.take opc.format.registers = args.toList.take opc.format.registers := by
  cases opc <;> rfl

lemma Opcode.registerLimit_eq (enc : opc.encoding = some e) : opc.registerLimit = e.limit := by
  rw [Opcode.registerLimit, enc]
  rfl

variable {highValid : Bool}

section

variable (carries : Carries type low high highValid opc e)
include carries

lemma registersValid_iff (pre : Operands) :
    (⟨opc, opc.bitp (e.operands low high pre)⟩ : Decoded).RegistersValid ↔
      ∀ register ∈ (e.operands low high pre).toList.take opc.format.registers, register < e.limit := by
  rw [Decoded.RegistersValid, Opcode.bitp_registers, Opcode.registerLimit_eq carries.encoding]

lemma Carries.registersValid (packed : e.Packed low)
    (pre : Operands) : (⟨opc, opc.bitp (e.operands low high pre)⟩ : Decoded).RegistersValid := by
  rw [registersValid_iff carries pre]
  intro register mem
  apply carries.isMatch.registers_lt packed pre
  exact (List.take_prefix_take_left (Opcode.registers_le carries.encoding)).subset mem

lemma Carries.packed (pre : Operands)
    (valid : (⟨opc, opc.bitp (e.operands low high pre)⟩ : Decoded).RegistersValid) : e.Packed low := by
  rw [registersValid_iff carries pre] at valid
  cases e with
  | untestedL3r top =>
    have three : opc.format.registers = 3 := by
      cases opc <;> cases carries.encoding
      rfl
    rw [three] at valid
    have third : (decode3ROperands pre low).op2 < 12 := valid _ (by simp [Encoding.operands, Operands.toList])
    simp only [decode3ROperands, register] at third
    exact decide_eq_true (by omega)
  | _ => trivial

end

end

theorem decodesSafely_iff (low high : Nat) (highValid : Bool) (type : NodeType) :
    DecodesSafely low high highValid type ↔ (highValid = false ∧ needsHigh low = true) ∨
        ∃ opc e, Carries type low high highValid opc e ∧ e.Packed low := by
  constructor
  · rintro ⟨opc, args, found, -, -, valid⟩
    obtain ⟨cut, needed, -⟩ | ⟨e, carries, rfl⟩ := recognised found
    · exact .inl ⟨cut, needed⟩
    · exact .inr ⟨opc, e, carries, carries.packed ⟨0, 0, 0, 0, 0, 0⟩ (valid _)⟩
  · rintro (⟨rfl, needed⟩ | ⟨opc, e, carries, packed⟩)
    · refine ⟨.illegal_pc, id, instructionDecode_unavailable needed, fun _ => .inr rfl, fun _ _ => rfl, fun _ => ?_⟩
      simp [Decoded.RegistersValid, Opcode.format, Format.registers]
    · obtain ⟨args, found⟩ := carries.finds
      refine ⟨opc, args, found, fun nil => absurd ⟨opc, e, carries⟩ nil, instructionDecode_used found, ?_⟩
      intro pre
      obtain ⟨-, -, rfl⟩ | ⟨e', carries', rfl⟩ := recognised found
      · cases carries.encoding
      · cases carries.encoding.symm.trans carries'.encoding
        exact carries'.registersValid packed pre

/-- There is no instruction of two registers with these top bits and a zero in bit 4. -/
theorem decode_unassigned : ¬DecodesSafely 0x26c0 0 true .xs1G := by
  rintro ⟨opc, args, found, -⟩
  cases found

end Axe
