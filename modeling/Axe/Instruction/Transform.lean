import Axe.Instruction.Recognition

/-! `instructionTransform`, which prepares a decoded instruction for execution: offsets are
scaled, the targets of relative branches become pcs and some opcodes are replaced by variants. -/

namespace Axe

open Operands

inductive Transformation where
  | keep
  /-- An offset in words becomes one in bytes. -/
  | scale (operand : Fin 6)
  /-- An offset in instructions of the issue width becomes one in bytes. -/
  | scaleIssueWidth
  /-- The immediate is the one that has an opcode of its own. -/
  | variant (immediate : Nat) (opc : Opcode)
  /-- A relative target becomes a pc; `length` is that of the branch in halfwords. -/
  | branch (operand : Fin 6) (length : Nat) (forward : Bool) (illegal : Opcode)
  | mask
  deriving DecidableEq, Repr

def Opcode.transformation : Opcode → Transformation
  | .add_2rus => .variant 0 .add_mov_2rus
  | .stw_2rus | .ldw_2rus | .ldawf_l2rus | .ldawb_l2rus => .scale 2
  | .stwdp_ru6 | .stwsp_ru6 | .ldwdp_ru6 | .ldwsp_ru6 | .ldawdp_ru6 | .ldawsp_ru6 | .ldwcp_ru6
  | .stwdp_lru6 | .stwsp_lru6 | .ldwdp_lru6 | .ldwsp_lru6 | .ldawdp_lru6 | .ldawsp_lru6 | .ldwcp_lru6 => .scale 1
  | .extdp_u6 | .entsp_u6 | .dualentsp_u6 | .extsp_u6 | .retsp_u6 | .retsp_xs2a_u6 | .kentsp_u6 | .krestsp_u6
  | .ldawcp_u6 | .ldwcpl_u10
  | .extdp_lu6 | .entsp_lu6 | .dualentsp_lu6 | .extsp_lu6 | .retsp_lu6 | .retsp_xs2a_lu6 | .kentsp_lu6 | .krestsp_lu6
  | .ldawcp_lu6 | .ldwcpl_lu10 => .scale 0
  | .ldapb_u10 | .ldapf_u10 | .ldapb_lu10 | .ldapf_lu10 => .scaleIssueWidth
  | .shl_2rus => .variant 32 .shl_32_2rus
  | .shr_2rus => .variant 32 .shr_32_2rus
  | .ashr_l2rus => .variant 32 .ashr_32_l2rus
  | .brft_ru6 => .branch 1 1 true .brft_illegal_ru6
  | .brbt_ru6 => .branch 1 1 false .brbt_illegal_ru6
  | .brfu_u6 => .branch 0 1 true .brfu_illegal_u6
  | .brbu_u6 => .branch 0 1 false .brbu_illegal_u6
  | .brff_ru6 => .branch 1 1 true .brff_illegal_ru6
  | .brbf_ru6 => .branch 1 1 false .brbf_illegal_ru6
  | .blrb_u10 => .branch 0 1 false .blrb_illegal_u10
  | .blrf_u10 => .branch 0 1 true .blrf_illegal_u10
  | .brft_lru6 => .branch 1 2 true .brft_illegal_lru6
  | .brbt_lru6 => .branch 1 2 false .brbt_illegal_lru6
  | .brfu_lu6 => .branch 0 2 true .brfu_illegal_lu6
  | .brbu_lu6 => .branch 0 2 false .brbu_illegal_lu6
  | .brff_lru6 => .branch 1 2 true .brff_illegal_lru6
  | .brbf_lru6 => .branch 1 2 false .brbf_illegal_lru6
  | .blrb_lu10 => .branch 0 2 false .blrb_illegal_lu10
  | .blrf_lu10 => .branch 0 2 true .blrf_illegal_lu10
  | .mkmsk_rus => .mask
  | _ => .keep

def BitManip.makeMask (x : Nat) : Nat := if x > 31 then 2 ^ 32 - 1 else 2 ^ x - 1

namespace Operands

def get (args : Operands) : Fin 6 → Nat
  | 0 => args.op0
  | 1 => args.op1
  | 2 => args.op2
  | 3 => args.op3
  | 4 => args.op4
  | 5 => args.op5

def set (args : Operands) (val : Nat) : Fin 6 → Operands
  | 0 => { args with op0 := val }
  | 1 => { args with op1 := val }
  | 2 => { args with op2 := val }
  | 3 => { args with op3 := val }
  | 4 => { args with op4 := val }
  | 5 => { args with op5 := val }

end Operands

/-- The pc a relative branch goes to, in 32-bit arithmetic. -/
def branchTarget (pc length offset : Nat) (forward : Bool) : Nat :=
  if forward then (pc + length + offset) % 2 ^ 32
  else (pc + length + (2 ^ 32 - offset % 2 ^ 32)) % 2 ^ 32

def Transformation.run (size pc : Nat) (isDualIssue : Bool) (decoded : Decoded) : Transformation → Decoded :=
  let issueWidth := if isDualIssue then 2 else 1
  let op := decoded.operands.get
  fun
  | .keep => decoded
  | .scale operand => ⟨decoded.opcode, decoded.operands.set (op operand * 4 % 2 ^ 32) operand⟩
  | .scaleIssueWidth => ⟨decoded.opcode, decoded.operands.set (op 0 * 2 ^ issueWidth % 2 ^ 32) 0⟩
  | .variant immediate opc => ⟨if op 2 = immediate then opc else decoded.opcode, decoded.operands⟩
  | .branch operand length forward illegal =>
    let target := branchTarget pc length (op operand * issueWidth) forward
    ⟨if target < size then decoded.opcode else illegal, decoded.operands.set target operand⟩
  | .mask => ⟨decoded.opcode, decoded.operands.set (BitManip.makeMask (op 1)) 1⟩

/-- `instructionTransform` for an instruction at a pc of a decode cache with `size` halfwords. -/
def instructionTransform (size pc : Nat) (isDualIssue : Bool) (decoded : Decoded) : Decoded :=
  decoded.opcode.transformation.run size pc isDualIssue decoded

/-- The transformation of a relative branch or call, or of a relative address. -/
def Transformation.relative : Transformation → Bool
  | .scaleIssueWidth | .branch _ _ _ _ => true
  | _ => false

def Opcode.relative (opc : Opcode) : Bool := opc.transformation.relative

lemma instructionTransform_mode {decoded : Decoded} (abs : decoded.opcode.relative = false) (size pc : Nat)
    (mode mode' : Bool) : instructionTransform size pc mode decoded = instructionTransform size pc mode' decoded := by
  rw [instructionTransform, instructionTransform]
  rw [Opcode.relative] at abs
  generalize decoded.opcode.transformation = transformation at abs ⊢
  cases transformation with
  | scaleIssueWidth => exact absurd abs Bool.true_eq_false.mp
  | branch => exact absurd abs Bool.true_eq_false.mp
  | _ => rfl

/-- The transformation looks at operands that the opcode has, and a variant has the opcode's format. -/
def Transformation.Fits (opc : Opcode) : Transformation → Prop
  | .keep => True
  | .scale operand => operand.val < opc.numOperands
  | .scaleIssueWidth => 0 < opc.numOperands
  | .variant _ other => 2 < opc.numOperands ∧ other.format = opc.format
  | .branch operand _ _ illegal => operand.val < opc.numOperands ∧ illegal.format = opc.format
  | .mask => 1 < opc.numOperands

instance (opc : Opcode) (transformation : Transformation) : Decidable (transformation.Fits opc) := by
  cases transformation <;> unfold Transformation.Fits <;> infer_instance

lemma Opcode.transformation_fits (opc : Opcode) : opc.transformation.Fits opc := by
  cases opc <;> decide

lemma instructionTransform_format (size pc : Nat) (mode : Bool) (decoded : Decoded) :
    (instructionTransform size pc mode decoded).opcode.format = decoded.opcode.format := by
  have fits := decoded.opcode.transformation_fits
  rw [instructionTransform]
  generalize decoded.opcode.transformation = transformation at fits ⊢
  cases transformation with
  | variant imm opc =>
    simp only [Transformation.run]
    split
    · exact fits.2
    · rfl
  | branch opd len fwd illegal =>
    simp only [Transformation.run]
    generalize branchTarget _ _ _ _ = target
    split
    · rfl
    · exact fits.2
  | _ => rfl

section

lemma toList_set (args : Operands) (val : Nat) (opd : Fin 6) :
    (args.set val opd).toList = args.toList.set opd val := by
  match opd with
  | 0 | 1 | 2 | 3 | 4 | 5 => rfl

lemma get_eq (args : Operands) (opd : Fin 6) :
    args.toList[opd.val]? = some (args.get opd) := by
  match opd with
  | 0 | 1 | 2 | 3 | 4 | 5 => rfl

variable {count : Nat} {args args' : Operands}

section

variable (same : args.toList.take count = args'.toList.take count)
include same

lemma get_congr {opd : Fin 6} (used : opd.val < count) : args.get opd = args'.get opd := by
  have here := congrArg (·[opd.val]?) same
  simpa only [List.getElem?_take_of_lt used, get_eq, Option.some.injEq] using here

lemma set_congr (val : Nat) (opd : Fin 6) :
    (args.set val opd).toList.take count = (args'.set val opd).toList.take count := by
  rw [toList_set, toList_set, List.take_set, List.take_set, same]

end

end

lemma instructionTransform_congr {decoded decoded' : Decoded} (opcode : decoded.opcode = decoded'.opcode)
    (used : decoded.used = decoded'.used) (size pc : Nat) (mode : Bool) :
    (instructionTransform size pc mode decoded).opcode = (instructionTransform size pc mode decoded').opcode ∧
      (instructionTransform size pc mode decoded).used = (instructionTransform size pc mode decoded').used := by
  obtain ⟨opc, args⟩ := decoded
  obtain ⟨opc', args'⟩ := decoded'
  obtain rfl : opc = opc' := opcode
  have format := instructionTransform_format size pc mode
  have fits := opc.transformation_fits
  have same : args.toList.take opc.numOperands = args'.toList.take opc.numOperands := used
  -- The operands of the result are counted by the same format.
  suffices (instructionTransform size pc mode ⟨opc, args⟩).opcode =
        (instructionTransform size pc mode ⟨opc, args'⟩).opcode ∧
      (instructionTransform size pc mode ⟨opc, args⟩).operands.toList.take opc.numOperands =
        (instructionTransform size pc mode ⟨opc, args'⟩).operands.toList.take opc.numOperands by
    rw [Decoded.used, Decoded.used, Opcode.numOperands, Opcode.numOperands, format, format]
    exact this
  simp only [instructionTransform]
  generalize opc.transformation = transformation at fits ⊢
  cases transformation with
  | keep => exact ⟨rfl, same⟩
  | scale opd =>
    simp only [Transformation.run, get_congr same fits]
    exact ⟨trivial, set_congr same _ _⟩
  | scaleIssueWidth =>
    have read : args.get 0 = args'.get 0 := get_congr same fits
    simp only [Transformation.run, read]
    exact ⟨trivial, set_congr same _ _⟩
  | variant imm other =>
    have read : args.get 2 = args'.get 2 := get_congr same fits.1
    simp only [Transformation.run, read]
    exact ⟨trivial, same⟩
  | branch opd len fwd illegal =>
    simp only [Transformation.run, get_congr same fits.1]
    exact ⟨trivial, set_congr same _ _⟩
  | mask =>
    have read : args.get 1 = args'.get 1 := get_congr same fits
    simp only [Transformation.run, read]
    exact ⟨trivial, set_congr same _ _⟩

end Axe
