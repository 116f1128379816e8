import Axe.Instruction.Decode

/-! What a recognised encoding fixes: every operand its opcode uses, whatever was in the output
variables before, and for a short instruction everything without a look at the second halfword. -/

namespace Axe

def Opcode.numOperands (opc : Opcode) : Nat := opc.format.numOperands

def Operands.toList (args : Operands) : List Nat :=
  [args.op0, args.op1, args.op2, args.op3, args.op4, args.op5]

def Decoded.used (decoded : Decoded) : List Nat := decoded.operands.toList.take decoded.opcode.numOperands

/-- What is assigned, if anything is, leaves no used operand open and is a long instruction where it must be. -/
def Assignment.Complete (long : Bool) (asgn : Assignment) : Prop :=
  ∀ opc args, asgn = some (opc, args) →
    (long = true → opc.size = 4) ∧
      ∀ pre pre', (⟨opc, args pre⟩ : Decoded).used = (⟨opc, args pre'⟩ : Decoded).used

def Opcode.Fits (opc : Opcode) (long : Bool) (count : Nat) : Prop :=
  (decide (opc.numOperands ≤ count) && (!long || opc.size == 4)) = true

section

variable {long : Bool} {opc : Opcode}

lemma complete_none : Assignment.Complete long none :=
  fun _ _ assigned => absurd assigned (Option.some_ne_none _).symm

lemma complete_leaf {args : Operands → Operands} (count : Nat) (fits : opc.Fits long count)
    (fixed : ∀ pre pre', (args pre).toList.take count = (args pre').toList.take count) :
    Assignment.Complete long (some (opc, args)) := by
  intro assigned values same
  cases same
  obtain ⟨few, size⟩ := (Bool.and_eq_true _ _).mp fits
  refine ⟨fun isLong => by simpa [isLong] using size, fun pre pre' => ?_⟩
  have prefixes := congrArg (List.take opc.numOperands) (fixed pre pre')
  rwa [List.take_take, List.take_take, Nat.min_eq_left (of_decide_eq_true few)] at prefixes

lemma complete_assign (fits : opc.Fits long 0) : (assign opc).Complete long :=
  complete_leaf 0 fits fun _ _ => rfl

variable {low : Nat}

lemma complete_decode1R (fits : opc.Fits long 1) : (decode1R opc low).Complete long :=
  complete_leaf 1 fits fun _ _ => rfl

lemma complete_decode2R (fits : opc.Fits long 2) : (decode2R opc low).Complete long :=
  complete_leaf 2 fits fun _ _ => rfl

lemma complete_decode3R (fits : opc.Fits long 3) : (decode3R opc low).Complete long :=
  complete_leaf 3 fits fun _ _ => rfl

lemma complete_decodeRU6 (fits : opc.Fits long 2) : (decodeRU6 opc low).Complete long :=
  complete_leaf 2 fits fun _ _ => rfl

lemma complete_decodeU6 (fits : opc.Fits long 1) : (decodeU6 opc low).Complete long :=
  complete_leaf 1 fits fun _ _ => rfl

lemma complete_decodeU10 (fits : opc.Fits long 1) : (decodeU10 opc low).Complete long :=
  complete_leaf 1 fits fun _ _ => rfl

variable {high : Nat}

lemma complete_decodeLRU6 (fits : opc.Fits long 2) : (decodeLRU6 opc high low).Complete long :=
  complete_leaf 2 fits fun _ _ => rfl

lemma complete_decodeLU6 (fits : opc.Fits long 1) : (decodeLU6 opc high low).Complete long :=
  complete_leaf 1 fits fun _ _ => rfl

lemma complete_decodeLU10 (fits : opc.Fits long 1) : (decodeLU10 opc high low).Complete long :=
  complete_leaf 1 fits fun _ _ => rfl

lemma complete_decodeL4R (fits : opc.Fits long 4) : (decodeL4R opc high low).Complete long :=
  complete_leaf 4 fits fun _ _ => rfl

lemma complete_decodeL5R (fits : opc.Fits long 5) : (decodeL5R opc high low).Complete long :=
  complete_leaf 5 fits fun _ _ => rfl

lemma complete_decodeL6R (fits : opc.Fits long 6) : (decodeL6R opc high low).Complete long :=
  complete_leaf 6 fits fun _ _ => rfl

lemma complete_bitp1 (fits : opc.Fits long 2) : (bitp1 (decode2R opc low)).Complete long :=
  complete_leaf 2 fits fun _ _ => rfl

lemma complete_bitp2 (fits : opc.Fits long 3) : (bitp2 (decode3R opc low)).Complete long :=
  complete_leaf 3 fits fun _ _ => rfl

end

lemma Assignment.Complete.weaken {asgn : Assignment} (complete : asgn.Complete true) :
    asgn.Complete false :=
  fun opc args assigned => ⟨fun long => absurd long Bool.false_ne_true, (complete opc args assigned).2⟩

section

variable (low high : Nat) (type : NodeType)

lemma complete_casePFIX : (casePFIX low high true type).Complete true := by
  rw [casePFIX, if_neg Bool.true_eq_false.mp]
  repeat' split
  all_goals first
    | exact complete_none
    | apply complete_decodeLRU6; rfl
    | apply complete_decodeLU6; rfl
    | apply complete_decodeLU10; rfl

lemma complete_caseEOPR : (caseEOPR low high true type).Complete true := by
  rw [caseEOPR, if_neg Bool.true_eq_false.mp]
  repeat' split
  all_goals first
    | exact complete_none
    | apply complete_assign; rfl
    | apply complete_decode2R; rfl
    | apply complete_decode3R; rfl
    | apply complete_decodeL4R; rfl
    | apply complete_decodeL5R; rfl
    | apply complete_decodeL6R; rfl
    | apply complete_bitp2; rfl

lemma instructionDecode_cases (highValid : Bool) :
    (∀ other, instructionDecode low other highValid type = instructionDecode low high highValid type) ∨
      highValid = true ∧ (instructionDecode low high highValid type = casePFIX low high true type ∨
        instructionDecode low high highValid type = caseEOPR low high true type) := by
  unfold instructionDecode
  cases highValid with
  | false =>
    left
    intro other
    split <;> rfl
  | true =>
    repeat' split
    all_goals first
      | exact .inl fun _ => rfl
      | exact .inr ⟨rfl, .inl rfl⟩
      | exact .inr ⟨rfl, .inr rfl⟩

lemma instructionDecode_complete (highValid : Bool) : (instructionDecode low high highValid type).Complete false := by
  have pfix : (casePFIX low high highValid type).Complete false := by
    cases highValid with
    | false => exact complete_assign rfl
    | true => exact (complete_casePFIX low high type).weaken
  have eopr : (caseEOPR low high highValid type).Complete false := by
    cases highValid with
    | false => exact complete_assign rfl
    | true => exact (complete_caseEOPR low high type).weaken
  unfold instructionDecode case0x00 case0x01 case0x02 case0x03 case0x04 case0x05 case0x06 case0x07 case0x08
    case0x09 case0x0a case0x0b case0x0c case0x0d case0x0e case0x0f case0x10 case0x11 case0x12 case0x13 case0x14
    case0x15 case0x16 case0x17 case0x18 case0x19 case0x1a case0x1b case0x1c case0x1d
  repeat' split
  all_goals first
    | exact complete_none
    | exact pfix
    | exact eopr
    | apply complete_assign; rfl
    | apply complete_decode1R; rfl
    | apply complete_decode2R; rfl
    | apply complete_decode3R; rfl
    | apply complete_decodeRU6; rfl
    | apply complete_decodeU6; rfl
    | apply complete_decodeU10; rfl
    | apply complete_bitp1; rfl
    | apply complete_bitp2; rfl

end

section

variable {low high : Nat} {highValid : Bool} {type : NodeType} {opc : Opcode} {args : Operands → Operands}

section

variable (recognised : instructionDecode low high highValid type = some (opc, args))
include recognised

lemma instructionDecode_short
    (short : opc.size ≠ 4) (other : Nat) : instructionDecode low other highValid type = some (opc, args) := by
  rcases instructionDecode_cases low high type highValid with same | ⟨-, pfix | eopr⟩
  · rw [same, recognised]
  · exact absurd ((complete_casePFIX low high type _ _ (pfix ▸ recognised)).1 rfl) short
  · exact absurd ((complete_caseEOPR low high type _ _ (eopr ▸ recognised)).1 rfl) short

lemma instructionDecode_used
    (pre pre' : Operands) : (⟨opc, args pre⟩ : Decoded).used = (⟨opc, args pre'⟩ : Decoded).used :=
  (instructionDecode_complete low high type highValid opc args recognised).2 pre pre'

end

end

end Axe
