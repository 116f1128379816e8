import Axe.Instruction.Opcode
import Mathlib.Algebra.Group.Nat.Defs

/-! `instructionDecode`. It assigns its two output variables in the leaves of a tree of tests
on the halfwords; an encoding for which there is no leaf leaves both as they were, and a leaf
assigns as many operands as its format has. -/

namespace Axe

inductive NodeType where
  | xs1L
  | xs1G
  | xs2A
  deriving DecidableEq, Repr

structure Operands where
  op0 : Nat
  op1 : Nat
  op2 : Nat
  op3 : Nat
  op4 : Nat
  op5 : Nat
  deriving DecidableEq, Repr

structure Decoded where
  opcode : Opcode
  operands : Operands
  deriving DecidableEq, Repr

abbrev Assignment := Option (Opcode × (Operands → Operands))

def Assignment.run (asgn : Assignment) (out : Decoded) : Decoded :=
  match asgn with
  | none => out
  | some (opcode, args) => ⟨opcode, args out.operands⟩

def bitRange (value high low : Nat) : Nat := value / 2 ^ low % 2 ^ (1 + high - low)

def bit (value shift : Nat) : Nat := bitRange value shift shift

/-- The code of a pair of operands; the difference is a 32-bit one. -/
def combined (half : Nat) : Nat := (bitRange half 10 6 + 2 ^ 32 - 27 + bit half 5 * 5) % 2 ^ 32

section

def test3R (low : Nat) : Bool := bitRange low 10 6 < 27

def test2R (low : Nat) : Bool := combined low < 9

def test1R (low : Nat) : Bool := bitRange low 10 5 == 0x3f && bitRange low 3 0 < 12

def testRU6 (low : Nat) : Bool := bitRange low 9 6 < 12

def testRU6_2 (_low : Nat) : Bool := true

def testLRU6 (high _low : Nat) : Bool := testRU6 high

def testLRU6_2 (high _low : Nat) : Bool := testRU6_2 high

def testL2R (high low : Nat) : Bool := combined low < 9 && bitRange high 10 4 == 0x7e

def testL3R (high low : Nat) : Bool := bitRange low 10 6 < 27 && bitRange high 10 4 == 0x7e

def testL4R (high low : Nat) : Bool :=
  bitRange low 10 6 < 27 && bitRange high 3 0 < 12 && bitRange high 10 5 == 0x3f

def testL5R (high low : Nat) : Bool := !decide (bitRange low 10 6 > 26) && combined high < 9

def testL6R (high low : Nat) : Bool := bitRange low 10 6 < 27 && bitRange high 10 6 < 27

end

section

/-- Two bits of an operand with the digit of `combined` above them. -/
def register (bits digit : Nat) : Nat := bits + digit * 4

def decode3ROperands (args : Operands) (low : Nat) : Operands :=
  let combined := bitRange low 10 6
  { args with
    op0 := register (bitRange low 5 4) (combined % 3)
    op1 := register (bitRange low 3 2) (combined / 3 % 3)
    op2 := register (bitRange low 1 0) (combined / 9) }

def decodeRU6Operands (args : Operands) (low : Nat) : Operands :=
  { args with op0 := bitRange low 9 6, op1 := bitRange low 5 0 }

def decodeLRU6Operands (args : Operands) (high low : Nat) : Operands :=
  { args with op0 := bitRange high 9 6, op1 := bitRange high 5 0 + bitRange low 9 0 * 2 ^ 6 }

def decodeU6Operands (args : Operands) (low : Nat) : Operands := { args with op0 := bitRange low 5 0 }

def decodeLU6Operands (args : Operands) (high low : Nat) : Operands :=
  { args with op0 := bitRange high 5 0 + bitRange low 9 0 * 2 ^ 6 }

def decodeU10Operands (args : Operands) (low : Nat) : Operands := { args with op0 := bitRange low 9 0 }

def decodeLU10Operands (args : Operands) (high low : Nat) : Operands :=
  { args with op0 := bitRange high 9 0 + bitRange low 9 0 * 2 ^ 10 }

def decode2ROperands (args : Operands) (low : Nat) : Operands :=
  { args with
    op0 := register (bitRange low 3 2) (combined low % 3)
    op1 := register (bitRange low 1 0) (combined low / 3) }

def decode1ROperands (args : Operands) (low : Nat) : Operands := { args with op0 := bitRange low 3 0 }

def decodeL4ROperands (args : Operands) (high low : Nat) : Operands :=
  { decode3ROperands args low with op3 := bitRange high 3 0 }

def decodeL5ROperands (args : Operands) (high low : Nat) : Operands :=
  { decode3ROperands args low with
    op3 := register (bitRange high 3 2) (combined high % 3)
    op4 := register (bitRange high 1 0) (combined high / 3) }

def decodeL6ROperands (args : Operands) (high low : Nat) : Operands :=
  let combined := bitRange high 10 6
  { decode3ROperands args low with
    op3 := register (bitRange high 5 4) (combined % 3)
    op4 := register (bitRange high 3 2) (combined / 3 % 3)
    op5 := register (bitRange high 1 0) (combined / 9) }

def bitpValue (value : Nat) : Nat := [32, 1, 2, 3, 4, 5, 6, 7, 8, 16, 24, 32].getD value 0

end

section

def assign (inst : Opcode) : Assignment := some (inst, id)

def decode0R (inst : Opcode) : Assignment := assign inst

def decode1R (inst : Opcode) (low : Nat) : Assignment := some (inst, (decode1ROperands · low))

def decode2R (inst : Opcode) (low : Nat) : Assignment := some (inst, (decode2ROperands · low))

def decodeRUS (inst : Opcode) (low : Nat) : Assignment := decode2R inst low

def decode3R (inst : Opcode) (low : Nat) : Assignment := some (inst, (decode3ROperands · low))

def decode2RUS (inst : Opcode) (low : Nat) : Assignment := decode3R inst low

def decodeRU6 (inst : Opcode) (low : Nat) : Assignment := some (inst, (decodeRU6Operands · low))

def decodeU6 (inst : Opcode) (low : Nat) : Assignment := some (inst, (decodeU6Operands · low))

def decodeU10 (inst : Opcode) (low : Nat) : Assignment := some (inst, (decodeU10Operands · low))

def decodeLRU6 (inst : Opcode) (high low : Nat) : Assignment := some (inst, (decodeLRU6Operands · high low))

def decodeLU6 (inst : Opcode) (high low : Nat) : Assignment := some (inst, (decodeLU6Operands · high low))

def decodeLU10 (inst : Opcode) (high low : Nat) : Assignment := some (inst, (decodeLU10Operands · high low))

def decodeL0R (inst : Opcode) : Assignment := assign inst

def decodeL2R (inst : Opcode) (_high low : Nat) : Assignment := decode2R inst low

def decodeL3R (inst : Opcode) (_high low : Nat) : Assignment := decode3R inst low

def decodeL2RUS (inst : Opcode) (high low : Nat) : Assignment := decodeL3R inst high low

def decodeL4R (inst : Opcode) (high low : Nat) : Assignment := some (inst, (decodeL4ROperands · high low))

def decodeL3RUS (inst : Opcode) (high low : Nat) : Assignment := decodeL4R inst high low

def decodeL5R (inst : Opcode) (high low : Nat) : Assignment := some (inst, (decodeL5ROperands · high low))

def decodeL6R (inst : Opcode) (high low : Nat) : Assignment := some (inst, (decodeL6ROperands · high low))

def bitp1 (asgn : Assignment) : Assignment :=
  asgn.map fun (inst, args) =>
    (inst, fun pre => { args pre with op1 := bitpValue (args pre).op1 })

def bitp2 (asgn : Assignment) : Assignment :=
  asgn.map fun (inst, args) =>
    (inst, fun pre => { args pre with op2 := bitpValue (args pre).op2 })

end

def case0x00 (low : Nat) (type : NodeType) : Assignment :=
  if test3R low then decode2RUS .stw_2rus low
  else if test2R low then
    if bit low 4 = 0 then
      if type = .xs2A then decode2R .byterev_2r low
      else decode2R .tinitpc_2r low
    else decode2R .getst_2r low
  else if test1R low then
    if bit low 4 = 0 then decode1R .edu_1r low
    else decode1R .eeu_1r low
  else
    match low with
    | 0x07ec => decode0R .waiteu_0r
    | 0x07ed => decode0R .clre_0r
    | 0x07ee => decode0R .ssync_0r
    | 0x07ef => decode0R .freet_0r
    | 0x07fc => decode0R .dcall_0r
    | 0x07fd =>
        if type ≠ .xs2A then decode0R .kret_0r
        else none
    | 0x07fe =>
        if type ≠ .xs2A then decode0R .dret_0r
        else none
    | 0x07ff => decode0R .setkep_0r
    | _ => none

def case0x01 (low : Nat) (type : NodeType) : Assignment :=
  if test3R low then decode2RUS .ldw_2rus low
  else if test2R low then
    if bit low 4 = 0 then
      if type = .xs2A then decode2R .clz_2r low
      else decode2R .tinitdp_2r low
    else decode2R .outt_2r low
  else if test1R low then
    if bit low 4 = 0 then decode1R .waitet_1r low
    else decode1R .waitef_1r low
  else
    match low with
    | 0x0fec => decode0R .ldspc_0r
    | 0x0fed => decode0R .stspc_0r
    | 0x0fee => decode0R .ldssr_0r
    | 0x0fef => decode0R .stssr_0r
    | 0x0ffc => decode0R .stsed_0r
    | 0x0ffd => decode0R .stet_0r
    | 0x0ffe => decode0R .geted_0r
    | 0x0fff => decode0R .getet_0r
    | _ => none

def case0x02 (low : Nat) (type : NodeType) : Assignment :=
  if test3R low then decode3R .add_3r low
  else if test2R low then
    if bit low 4 = 0 then
      if type = .xs2A then decode2R .bitrev_2r low
      else decode2R .tinitsp_2r low
    else decode2R .setd_2r low
  else if test1R low then
    if bit low 4 = 0 then decode1R .freer_1r low
    else decode1R .mjoin_1r low
  else
    match low with
    | 0x17ec =>
        if type ≠ .xs2A then decode0R .dentsp_0r
        else none
    | 0x17ed =>
        if type ≠ .xs2A then decode0R .drestsp_0r
        else none
    | 0x17ee => decode0R .getid_0r
    | 0x17ef => decode0R .getkep_0r
    | 0x17fc => decode0R .getksp_0r
    | 0x17fd => decode0R .ldsed_0r
    | 0x17fe => decode0R .ldet_0r
    | 0x17ff =>
        if type = .xs2A then decode0R .nop_0r
        else none
    | _ => none

def case0x03 (low : Nat) (type : NodeType) : Assignment :=
  if test3R low then decode3R .sub_3r low
  else if test2R low ∧ type ≠ .xs2A then
    if bit low 4 = 0 then decode2R .tinitcp_2r low
    else decode2R .tsetmr_2r low
  else if test1R low then
    if bit low 4 = 0 then decode1R .tstart_1r low
    else decode1R .msync_1r low
  else none

def case0x04 (low : Nat) : Assignment :=
  if test3R low then decode3R .shl_3r low
  else if test2R low then
    if bit low 4 = 0 then none
    else decode2R .eet_2r low
  else if test1R low then
    if bit low 4 = 0 then decode1R .bla_1r low
    else decode1R .bau_1r low
  else none

def case0x05 (low : Nat) : Assignment :=
  if test3R low then decode3R .shr_3r low
  else if test2R low then
    if bit low 4 = 0 then decode2R .andnot_2r low
    else decode2R .eef_2r low
  else if test1R low then
    if bit low 4 = 0 then decode1R .bru_1r low
    else decode1R .setsp_1r low
  else none

def case0x06 (low : Nat) : Assignment :=
  if test3R low then decode3R .eq_3r low
  else if test2R low then
    if bit low 4 = 0 then decode2R .sext_2r low
    else bitp1 (decodeRUS .sext_rus low)
  else if test1R low then
    if bit low 4 = 0 then decode1R .setdp_1r low
    else decode1R .setcp_1r low
  else none

def case0x07 (low : Nat) : Assignment :=
  if test3R low then decode3R .and_3r low
  else if test2R low then
    if bit low 4 = 0 then decode2R .getts_2r low
    else decode2R .setpt_2r low
  else if test1R low then
    if bit low 4 = 0 then decode1R .dgetreg_1r low
    else decode1R .setev_1r low
  else none

def case0x08 (low : Nat) : Assignment :=
  if test3R low then decode3R .or_3r low
  else if test2R low then
    if bit low 4 = 0 then decode2R .zext_2r low
    else bitp1 (decodeRUS .zext_rus low)
  else if test1R low then
    if bit low 4 = 0 then decode1R .kcall_1r low
    else decode1R .setv_1r low
  else none

def case0x09 (low : Nat) : Assignment :=
  if test3R low then decode3R .ldw_3r low
  else if test2R low then
    if bit low 4 = 0 then decode2R .outct_2r low
    else decodeRUS .outct_rus low
  else if test1R low then
    if bit low 4 = 0 then decode1R .ecallf_1r low
    else decode1R .ecallt_1r low
  else none

def case0x0a (low : Nat) : Assignment :=
  if testRU6_2 low then
    if bit low 10 = 0 then decodeRU6 .stwdp_ru6 low
    else decodeRU6 .stwsp_ru6 low
  else none

def case0x0b (low : Nat) : Assignment :=
  if testRU6_2 low then
    if bit low 10 = 0 then decodeRU6 .ldwdp_ru6 low
    else decodeRU6 .ldwsp_ru6 low
  else none

def case0x0c (low : Nat) : Assignment :=
  if testRU6_2 low then
    if bit low 10 = 0 then decodeRU6 .ldawdp_ru6 low
    else decodeRU6 .ldawsp_ru6 low
  else none

def case0x0d (low : Nat) : Assignment :=
  if testRU6_2 low then
    if bit low 10 = 0 then decodeRU6 .ldc_ru6 low
    else decodeRU6 .ldwcp_ru6 low
  else none

def case0x0e (low : Nat) (type : NodeType) : Assignment :=
  if testRU6 low then
    if bit low 10 = 0 then decodeRU6 .brft_ru6 low
    else decodeRU6 .brbt_ru6 low
  else
    match bitRange low 10 6 with
    | 0x0c => decodeU6 .brfu_u6 low
    | 0x0d => decodeU6 .blat_u6 low
    | 0x0e => decodeU6 .extdp_u6 low
    | 0x0f => decodeU6 .kcall_u6 low
    | 0x1c => decodeU6 .brbu_u6 low
    | 0x1d => decodeU6 .entsp_u6 low
    | 0x1e => decodeU6 .extsp_u6 low
    | 0x1f =>
        if type = .xs2A then decodeU6 .retsp_xs2a_u6 low
        else decodeU6 .retsp_u6 low
    | _ => none

def case0x0f (low : Nat) (type : NodeType) : Assignment :=
  if testRU6 low then
    if bit low 10 = 0 then decodeRU6 .brff_ru6 low
    else decodeRU6 .brbf_ru6 low
  else
    match bitRange low 10 6 with
    | 0x0c => decodeU6 .clrsr_u6 low
    | 0x0d => decodeU6 .setsr_u6 low
    | 0x0e => decodeU6 .kentsp_u6 low
    | 0x0f =>
        if type ≠ .xs2A then decodeU6 .krestsp_u6 low
        else none
    | 0x1c => decodeU6 .getsr_u6 low
    | 0x1d => decodeU6 .ldawcp_u6 low
    | 0x1e =>
        if type = .xs2A then decodeU6 .dualentsp_u6 low
        else none
    | _ => none

def case0x10 (low : Nat) : Assignment :=
  if test3R low then decode3R .ld16s_3r low
  else if test2R low then
    if bit low 4 = 0 then decodeRUS .getr_rus low
    else decode2R .inct_2r low
  else if test1R low then
    if bit low 4 = 0 then decode1R .clrpt_1r low
    else decode1R .syncr_1r low
  else none

def case0x11 (low : Nat) (type : NodeType) : Assignment :=
  if test3R low then decode3R .ld8u_3r low
  else if test2R low then
    if bit low 4 = 0 then decode2R .not_2r low
    else decode2R .int_2r low
  else if test1R low ∧ type = .xs2A then
    if bit low 4 = 0 then decode1R .gettime_1r low
    else decode1R .elate_1r low
  else none

def case0x12 (low : Nat) : Assignment :=
  if test3R low then decode2RUS .add_2rus low
  else if test2R low then
    if bit low 4 = 0 then decode2R .neg_2r low
    else decode2R .endin_2r low
  else none

def case0x13 (low : Nat) : Assignment :=
  if test3R low then decode2RUS .sub_2rus low
  else none

def case0x14 (low : Nat) : Assignment :=
  if test3R low then bitp2 (decode2RUS .shl_2rus low)
  else if test2R low then
    if bit low 4 = 0 then decode2R .mkmsk_2r low
    else bitp1 (decodeRUS .mkmsk_rus low)
  else none

def case0x15 (low : Nat) : Assignment :=
  if test3R low then bitp2 (decode2RUS .shr_2rus low)
  else if test2R low then
    if bit low 4 = 0 then decode2R .out_2r low
    else decode2R .outshr_2r low
  else none

def case0x16 (low : Nat) : Assignment :=
  if test3R low then decode2RUS .eq_2rus low
  else if test2R low then
    if bit low 4 = 0 then decode2R .in_2r low
    else decode2R .inshr_2r low
  else none

def case0x17 (low : Nat) (type : NodeType) : Assignment :=
  if test3R low ∧ type ≠ .xs2A then decode3R .tsetr_3r low
  else if test2R low then
    if bit low 4 = 0 then decode2R .peek_2r low
    else decode2R .testct_2r low
  else none

def case0x18 (low : Nat) : Assignment :=
  if test3R low then decode3R .lss_3r low
  else if test2R low then
    if bit low 4 = 0 then decode2R .setpsc_2r low
    else decode2R .testwct_2r low
  else none

def case0x19 (low : Nat) : Assignment :=
  if test3R low then decode3R .lsu_3r low
  else if test2R low then
    if bit low 4 = 0 then decode2R .chkct_2r low
    else decodeRUS .chkct_rus low
  else none

def case0x1a (low : Nat) : Assignment :=
  if bit low 10 ≠ 0 then decodeU10 .blrb_u10 low
  else decodeU10 .blrf_u10 low

def case0x1b (low : Nat) : Assignment :=
  if bit low 10 ≠ 0 then decodeU10 .ldapb_u10 low
  else decodeU10 .ldapf_u10 low

def case0x1c (low : Nat) : Assignment :=
  if bit low 10 ≠ 0 then decodeU10 .ldwcpl_u10 low
  else decodeU10 .blacp_u10 low

def case0x1d (low : Nat) : Assignment :=
  if testRU6 low then
    if bit low 10 = 0 then decodeRU6 .setc_ru6 low
    else none
  else none

def casePFIX (low high : Nat) (highValid : Bool) (type : NodeType) : Assignment :=
  if highValid = false then assign .illegal_pc
  else
    match bitRange high 15 11 with
    | 0x0a =>
        if testLRU6_2 high low then
          if bit high 10 = 0 then decodeLRU6 .stwdp_lru6 high low
          else decodeLRU6 .stwsp_lru6 high low
        else none
    | 0x0b =>
        if testLRU6_2 high low then
          if bit high 10 = 0 then decodeLRU6 .ldwdp_lru6 high low
          else decodeLRU6 .ldwsp_lru6 high low
        else none
    | 0x0c =>
        if testLRU6_2 high low then
          if bit high 10 = 0 then decodeLRU6 .ldawdp_lru6 high low
          else decodeLRU6 .ldawsp_lru6 high low
        else none
    | 0x0d =>
        if testLRU6_2 high low then
          if bit high 10 = 0 then decodeLRU6 .ldc_lru6 high low
          else decodeLRU6 .ldwcp_lru6 high low
        else none
    | 0x0e =>
        if testLRU6 high low then
          if bit high 10 = 0 then decodeLRU6 .brft_lru6 high low
          else decodeLRU6 .brbt_lru6 high low
        else
          match bitRange high 10 6 with
          | 0x0c => decodeLU6 .brfu_lu6 high low
          | 0x0d => decodeLU6 .blat_lu6 high low
          | 0x0e => decodeLU6 .extdp_lu6 high low
          | 0x0f => decodeLU6 .kcall_lu6 high low
          | 0x1c => decodeLU6 .brbu_lu6 high low
          | 0x1d => decodeLU6 .entsp_lu6 high low
          | 0x1e => decodeLU6 .extsp_lu6 high low
          | 0x1f =>
              if type = .xs2A then decodeLU6 .retsp_xs2a_lu6 high low
              else decodeLU6 .retsp_lu6 high low
          | _ => none
    | 0x0f =>
        if testLRU6 high low then
          if bit high 10 = 0 then decodeLRU6 .brff_lru6 high low
          else decodeLRU6 .brbf_lru6 high low
        else
          match bitRange high 10 6 with
          | 0x0c => decodeLU6 .clrsr_lu6 high low
          | 0x0d => decodeLU6 .setsr_lu6 high low
          | 0x0e => decodeLU6 .kentsp_lu6 high low
          | 0x0f => decodeLU6 .krestsp_lu6 high low
          | 0x1c => decodeLU6 .getsr_lu6 high low
          | 0x1d => decodeLU6 .ldawcp_lu6 high low
          | 0x1e =>
              if type = .xs2A then decodeLU6 .dualentsp_lu6 high low
              else none
          | _ => none
    | 0x1a =>
        if bit high 10 ≠ 0 then decodeLU10 .blrb_lu10 high low
        else decodeLU10 .blrf_lu10 high low
    | 0x1b =>
        if bit high 10 ≠ 0 then decodeLU10 .ldapb_lu10 high low
        else decodeLU10 .ldapf_lu10 high low
    | 0x1c =>
        if bit high 10 ≠ 0 then decodeLU10 .ldwcpl_lu10 high low
        else decodeLU10 .blacp_lu10 high low
    | 0x1d =>
        if testLRU6 high low then
          if bit high 10 = 0 then decodeLRU6 .setc_lru6 high low
          else none
        else none
    | _ => none

def caseEOPR (low high : Nat) (highValid : Bool) (type : NodeType) : Assignment :=
  if highValid = false then assign .illegal_pc
  else
    match bitRange high 15 11 with
    | 0x00 =>
        if testL6R high low then decodeL6R .lmul_l6r high low
        else if testL5R high low then
          if bit high 4 ≠ 0 then decodeL5R .ladd_l5r high low
          else decodeL5R .ldivu_l5r high low
        else if testL4R high low then
          match bitRange high 10 4 with
          | 0x7e => decodeL4R .crc8_l4r high low
          | 0x7f => decodeL4R .maccu_l4r high low
          | _ => none
        else if testL3R high low then
          match bitRange high 3 0 with
          | 0xc => decodeL3R .stw_l3r high low
          | _ => none
        else if testL2R high low then
          match bit low 4 * 16 + bitRange high 3 0 with
          | 0x0c =>
              if type = .xs2A then decodeL2R .tinitsp_l2r high low
              else decodeL2R .bitrev_l2r high low
          | 0x1c =>
              if type = .xs2A then decodeL2R .tinitpc_l2r high low
              else decodeL2R .byterev_l2r high low
          | _ => none
        else decodeL0R .kret_l0r
    | 0x01 =>
        let first : Assignment :=
          if testL5R high low then
            if bit high 4 ≠ 0 then
              if type = .xs2A then decodeL5R .xor4_l5r high low
              else none
            else decodeL5R .lsub_l5r high low
          else none
        if testL4R high low then
          match bitRange high 10 4 with
          | 0x7e => decodeL4R .maccs_l4r high low
          | 0x7f =>
              if type = .xs2A then decodeL4R .crcn_l4r high low
              else first
          | _ => first
        else if testL3R high low then
          match bitRange high 3 0 with
          | 0xc => decodeL3R .xor_l3r high low
          | _ => first
        else if testL2R high low then
          match bit low 4 * 16 + bitRange high 3 0 with
          | 0x0c =>
              if type = .xs2A then first
              else decodeL2R .clz_l2r high low
          | 0x1c => decodeL2R .setclk_l2r high low
          | _ => first
        else first
    | 0x02 =>
        if testL4R high low then
          if type = .xs2A then
            if bit high 4 = 0 then decodeL4R .std_l4r high low
            else decodeL3RUS .std_l3rus high low
          else none
        else if testL3R high low then
          match bitRange high 3 0 with
          | 0xc => decodeL3R .ashr_l3r high low
          | _ => none
        else if testL2R high low then
          match bit low 4 * 16 + bitRange high 3 0 with
          | 0x0c => decodeL2R .tinitlr_l2r high low
          | 0x1c => decodeL2R .getps_l2r high low
          | _ => none
        else none
    | 0x03 =>
        if testL5R high low ∧ type = .xs2A then
          if bit high 4 = 0 then decodeL5R .lextract_l4rus high low
          else none
        else if testL3R high low then
          match bitRange high 3 0 with
          | 0xc => decodeL3R .ldawf_l3r high low
          | _ => none
        else if testL2R high low then
          match bit low 4 * 16 + bitRange high 3 0 with
          | 0x0c => decodeL2R .setps_l2r high low
          | 0x1c => decodeL2R .getd_l2r high low
          | _ => none
        else none
    | 0x04 =>
        if testL4R high low ∧ type = .xs2A then
          if bit high 4 = 0 then decodeL4R .ldd_l4r high low
          else decodeL3RUS .ldd_l3rus high low
        else if testL3R high low then
          match bitRange high 3 0 with
          | 0xc => decodeL3R .ldawb_l3r high low
          | _ => none
        else if testL2R high low then
          match bit low 4 * 16 + bitRange high 3 0 with
          | 0x0c => decodeL2R .testlcl_l2r high low
          | 0x1c => decodeL2R .settw_l2r high low
          | _ => none
        else none
    | 0x05 =>
        if testL3R high low then
          match bitRange high 3 0 with
          | 0xc => decodeL3R .lda16f_l3r high low
          | _ => none
        else if testL2R high low then
          match bit low 4 * 16 + bitRange high 3 0 with
          | 0x0c => decodeL2R .setrdy_l2r high low
          | 0x1c => decodeL2R .setc_l2r high low
          | _ => none
        else none
    | 0x06 =>
        if testL3R high low then
          match bitRange high 3 0 with
          | 0xc => decodeL3R .lda16b_l3r high low
          | _ => none
        else if testL2R high low then
          match bit low 4 * 16 + bitRange high 3 0 with
          | 0x0c => decodeL2R .setn_l2r high low
          | 0x1c => decodeL2R .getn_l2r high low
          | _ => none
        else none
    | 0x07 =>
        if testL3R high low then
          match bitRange high 3 0 with
          | 0xc => decodeL3R .mul_l3r high low
          | _ => none
        else none
    | 0x08 =>
        if testL3R high low then
          match bitRange high 3 0 with
          | 0xc => decodeL3R .divs_l3r high low
          | _ => none
        else none
    | 0x09 =>
        if testL3R high low then
          match bitRange high 3 0 with
          | 0xc => decodeL3R .divu_l3r high low
          | _ => none
        else none
    | 0x10 =>
        if testL3R high low then
          match bitRange high 3 0 with
          | 0xc => decodeL3R .st16_l3r high low
          | _ => none
        else none
    | 0x11 =>
        if testL3R high low then
          match bitRange high 3 0 with
          | 0xc => decodeL3R .st8_l3r high low
          | _ => none
        else none
    | 0x12 =>
        if testL3R high low then
          match bitRange high 3 0 with
          | 0xc => bitp2 (decodeL2RUS .ashr_l2rus high low)
          | 0xd => bitp2 (decodeL2RUS .outpw_l2rus high low)
          | 0xe => bitp2 (decodeL2RUS .inpw_l2rus high low)
          | _ => none
        else none
    | 0x13 =>
        if testL3R high low then
          match bitRange high 3 0 with
          | 0xc => decodeL2RUS .ldawf_l2rus high low
          | 0xd =>
              if type = .xs2A then decodeL2RUS .unzip_l2rus high low
              else none
          | 0xe =>
              if type = .xs2A then decodeL2RUS .zip_l2rus high low
              else none
          | _ => none
        else none
    | 0x14 =>
        if testL3R high low then
          match bitRange high 3 0 with
          | 0xc => decodeL2RUS .ldawb_l2rus high low
          | _ => none
        else none
    | 0x15 =>
        if testL3R high low then
          match bitRange high 3 0 with
          | 0xc => decodeL3R .crc_l3r high low
          | _ => none
        else none
    | 0x16 =>
        if type = .xs2A then decodeL3R .tsetr_l3r high low
        else none
    | 0x18 =>
        if testL3R high low then
          match bitRange high 3 0 with
          | 0xc => decodeL3R .rems_l3r high low
          | _ => none
        else none
    | 0x19 =>
        if testL3R high low then
          match bitRange high 3 0 with
          | 0xc => decodeL3R .remu_l3r high low
          | _ => none
        else none
    | 0x1c =>
        if testL3R high low then decodeL3R .lsats_l3r high low
        else none
    | 0x1d =>
        if testL3R high low then decodeL2RUS .lddsp_l2rus high low
        else none
    | 0x1e =>
        if testL3R high low then decodeL2RUS .stdsp_l2rus high low
        else none
    | _ => none

/-- The tests of the top five bits. A prefix with bit 10 set falls through to the next case. -/
def instructionDecode (low high : Nat) (highValid : Bool) (type : NodeType) : Assignment :=
  match bitRange low 15 11 with
  | 0x00 => case0x00 low type
  | 0x01 => case0x01 low type
  | 0x02 => case0x02 low type
  | 0x03 => case0x03 low type
  | 0x04 => case0x04 low
  | 0x05 => case0x05 low
  | 0x06 => case0x06 low
  | 0x07 => case0x07 low
  | 0x08 => case0x08 low
  | 0x09 => case0x09 low
  | 0x0a => case0x0a low
  | 0x0b => case0x0b low
  | 0x0c => case0x0c low
  | 0x0d => case0x0d low
  | 0x0e => case0x0e low type
  | 0x0f => case0x0f low type
  | 0x10 => case0x10 low
  | 0x11 => case0x11 low type
  | 0x12 => case0x12 low
  | 0x13 => case0x13 low
  | 0x14 => case0x14 low
  | 0x15 => case0x15 low
  | 0x16 => case0x16 low
  | 0x17 => case0x17 low type
  | 0x18 => case0x18 low
  | 0x19 => case0x19 low
  | 0x1a => case0x1a low
  | 0x1b => case0x1b low
  | 0x1c => case0x1c low
  | 0x1d => case0x1d low
  | 0x1e => if bit low 10 = 0 then casePFIX low high highValid type else caseEOPR low high highValid type
  | _ => caseEOPR low high highValid type

end Axe
