import Axe.Instruction.Recognition

/-! The encodings of the instructions, as a table. For each opcode it says which bits of the
halfwords are fixed; the operands are in the others. `instructionDecode` finds an opcode
exactly for the words that the table has for it. -/

namespace Axe

/-- How the bits of an instruction are laid out. `top` stands for the five highest bits, of the second
halfword in a long instruction. -/
inductive Encoding where
  | r0 (word : Nat)
  | r1 (top bit4 : Nat)
  | r2 (top bit4 : Nat)
  /-- Two registers, where on one node type the codes of three registers are not told apart. -/
  | looseR2 (top bit4 : Nat)
  | r3 (top : Nat)
  | ru6 (top bit10 : Nat)
  /-- A register among all sixteen. -/
  | anyRu6 (top bit10 : Nat)
  | u6 (top selector : Nat)
  | u10 (top bit10 : Nat)
  | lru6 (top bit10 : Nat)
  | anyLru6 (top bit10 : Nat)
  | lu6 (top selector : Nat)
  | lu10 (top bit10 : Nat)
  /-- Whatever else has the highest bits zero. -/
  | l0r
  | l2r (top code : Nat)
  | l3r (top selector : Nat)
  /-- Three registers, with four bits of the second halfword that nothing tests. -/
  | looseL3r (top : Nat)
  /-- Three registers, with nothing but the highest bits tested. -/
  | untestedL3r (top : Nat)
  | l4r (top bit4 : Nat)
  | l5r (top bit4 : Nat)
  | l6r (top : Nat)
  deriving DecidableEq, Repr

def isPFIX (low : Nat) : Bool := bitRange low 15 11 == 0x1e && bit low 10 == 0

def isEOPR (low : Nat) : Bool := bitRange low 15 11 == 0x1f || bitRange low 15 11 == 0x1e && bit low 10 != 0

namespace Encoding

def isLong : Encoding → Bool
  | .r0 _ | .r1 _ _ | .r2 _ _ | .looseR2 _ _ | .r3 _ | .ru6 _ _ | .anyRu6 _ _ | .u6 _ _ | .u10 _ _ => false
  | _ => true

def Matches (type : NodeType) (low high : Nat) : Encoding → Prop
  | .r0 word => low = word
  | .r1 top bit4 => bitRange low 15 11 = top ∧ test1R low = true ∧ bit low 4 = bit4
  | .r2 top bit4 => bitRange low 15 11 = top ∧ test3R low = false ∧ test2R low = true ∧ bit low 4 = bit4
  | .looseR2 top bit4 =>
    bitRange low 15 11 = top ∧ (test3R low = true → type = .xs2A) ∧ test2R low = true ∧ bit low 4 = bit4
  | .r3 top => bitRange low 15 11 = top ∧ test3R low = true
  | .ru6 top bit10 => bitRange low 15 11 = top ∧ testRU6 low = true ∧ bit low 10 = bit10
  | .anyRu6 top bit10 => bitRange low 15 11 = top ∧ bit low 10 = bit10
  | .u6 top selector => bitRange low 15 11 = top ∧ bitRange low 10 6 = selector
  | .u10 top bit10 => bitRange low 15 11 = top ∧ bit low 10 = bit10
  | .lru6 top bit10 =>
    isPFIX low = true ∧ bitRange high 15 11 = top ∧ testRU6 high = true ∧ bit high 10 = bit10
  | .anyLru6 top bit10 => isPFIX low = true ∧ bitRange high 15 11 = top ∧ bit high 10 = bit10
  | .lu6 top selector => isPFIX low = true ∧ bitRange high 15 11 = top ∧ bitRange high 10 6 = selector
  | .lu10 top bit10 => isPFIX low = true ∧ bitRange high 15 11 = top ∧ bit high 10 = bit10
  | .l0r =>
    isEOPR low = true ∧ bitRange high 15 11 = 0 ∧ testL6R high low = false ∧ testL5R high low = false ∧
      testL4R high low = false ∧ testL3R high low = false ∧ testL2R high low = false
  | .l2r top code =>
    isEOPR low = true ∧ bitRange high 15 11 = top ∧ testL3R high low = false ∧ testL2R high low = true ∧
      bit low 4 * 16 + bitRange high 3 0 = code
  | .l3r top selector =>
    isEOPR low = true ∧ bitRange high 15 11 = top ∧ testL3R high low = true ∧ bitRange high 3 0 = selector
  | .looseL3r top => isEOPR low = true ∧ bitRange high 15 11 = top ∧ testL3R high low = true
  | .untestedL3r top => isEOPR low = true ∧ bitRange high 15 11 = top
  | .l4r top bit4 => isEOPR low = true ∧ bitRange high 15 11 = top ∧ testL4R high low = true ∧ bit high 4 = bit4
  | .l5r top bit4 =>
    isEOPR low = true ∧ bitRange high 15 11 = top ∧ (top = 0 → testL6R high low = false) ∧
      testL5R high low = true ∧ bit high 4 = bit4
  | .l6r top => isEOPR low = true ∧ bitRange high 15 11 = top ∧ testL6R high low = true

def operands (low high : Nat) (pre : Operands) : Encoding → Operands
  | .r0 _ | .l0r => pre
  | .r1 _ _ => decode1ROperands pre low
  | .r2 _ _ | .looseR2 _ _ | .l2r _ _ => decode2ROperands pre low
  | .r3 _ | .l3r _ _ | .looseL3r _ | .untestedL3r _ => decode3ROperands pre low
  | .ru6 _ _ | .anyRu6 _ _ => decodeRU6Operands pre low
  | .u6 _ _ => decodeU6Operands pre low
  | .u10 _ _ => decodeU10Operands pre low
  | .lru6 _ _ | .anyLru6 _ _ => decodeLRU6Operands pre high low
  | .lu6 _ _ => decodeLU6Operands pre high low
  | .lu10 _ _ => decodeLU10Operands pre high low
  | .l4r _ _ => decodeL4ROperands pre high low
  | .l5r _ _ => decodeL5ROperands pre high low
  | .l6r _ => decodeL6ROperands pre high low

end Encoding

namespace Opcode

/-- The encoding of an opcode. Those that only `instructionTransform` makes have none. -/
def encoding : Opcode → Option Encoding
  | .waiteu_0r => some (.r0 0x07ec)
  | .clre_0r => some (.r0 0x07ed)
  | .ssync_0r => some (.r0 0x07ee)
  | .freet_0r => some (.r0 0x07ef)
  | .dcall_0r => some (.r0 0x07fc)
  | .kret_0r => some (.r0 0x07fd)
  | .dret_0r => some (.r0 0x07fe)
  | .setkep_0r => some (.r0 0x07ff)
  | .ldspc_0r => some (.r0 0x0fec)
  | .stspc_0r => some (.r0 0x0fed)
  | .ldssr_0r => some (.r0 0x0fee)
  | .stssr_0r => some (.r0 0x0fef)
  | .stsed_0r => some (.r0 0x0ffc)
  | .stet_0r => some (.r0 0x0ffd)
  | .geted_0r => some (.r0 0x0ffe)
  | .getet_0r => some (.r0 0x0fff)
  | .dentsp_0r => some (.r0 0x17ec)
  | .drestsp_0r => some (.r0 0x17ed)
  | .getid_0r => some (.r0 0x17ee)
  | .getkep_0r => some (.r0 0x17ef)
  | .getksp_0r => some (.r0 0x17fc)
  | .ldsed_0r => some (.r0 0x17fd)
  | .ldet_0r => some (.r0 0x17fe)
  | .nop_0r => some (.r0 0x17ff)
  | .edu_1r => some (.r1 0x00 0)
  | .eeu_1r => some (.r1 0x00 1)
  | .waitet_1r => some (.r1 0x01 0)
  | .waitef_1r => some (.r1 0x01 1)
  | .freer_1r => some (.r1 0x02 0)
  | .mjoin_1r => some (.r1 0x02 1)
  | .tstart_1r => some (.r1 0x03 0)
  | .msync_1r => some (.r1 0x03 1)
  | .bla_1r => some (.r1 0x04 0)
  | .bau_1r => some (.r1 0x04 1)
  | .bru_1r => some (.r1 0x05 0)
  | .setsp_1r => some (.r1 0x05 1)
  | .setdp_1r => some (.r1 0x06 0)
  | .setcp_1r => some (.r1 0x06 1)
  | .dgetreg_1r => some (.r1 0x07 0)
  | .setev_1r => some (.r1 0x07 1)
  | .kcall_1r => some (.r1 0x08 0)
  | .setv_1r => some (.r1 0x08 1)
  | .ecallf_1r => some (.r1 0x09 0)
  | .ecallt_1r => some (.r1 0x09 1)
  | .clrpt_1r => some (.r1 0x10 0)
  | .syncr_1r => some (.r1 0x10 1)
  | .gettime_1r => some (.r1 0x11 0)
  | .elate_1r => some (.r1 0x11 1)
  | .byterev_2r => some (.r2 0x00 0)
  | .tinitpc_2r => some (.r2 0x00 0)
  | .getst_2r => some (.r2 0x00 1)
  | .clz_2r => some (.r2 0x01 0)
  | .tinitdp_2r => some (.r2 0x01 0)
  | .outt_2r => some (.r2 0x01 1)
  | .bitrev_2r => some (.r2 0x02 0)
  | .tinitsp_2r => some (.r2 0x02 0)
  | .setd_2r => some (.r2 0x02 1)
  | .tinitcp_2r => some (.r2 0x03 0)
  | .tsetmr_2r => some (.r2 0x03 1)
  | .eet_2r => some (.r2 0x04 1)
  | .andnot_2r => some (.r2 0x05 0)
  | .eef_2r => some (.r2 0x05 1)
  | .sext_2r => some (.r2 0x06 0)
  | .getts_2r => some (.r2 0x07 0)
  | .setpt_2r => some (.r2 0x07 1)
  | .zext_2r => some (.r2 0x08 0)
  | .outct_2r => some (.r2 0x09 0)
  | .inct_2r => some (.r2 0x10 1)
  | .not_2r => some (.r2 0x11 0)
  | .int_2r => some (.r2 0x11 1)
  | .neg_2r => some (.r2 0x12 0)
  | .endin_2r => some (.r2 0x12 1)
  | .mkmsk_2r => some (.r2 0x14 0)
  | .out_2r => some (.r2 0x15 0)
  | .outshr_2r => some (.r2 0x15 1)
  | .in_2r => some (.r2 0x16 0)
  | .inshr_2r => some (.r2 0x16 1)
  | .peek_2r => some (.looseR2 0x17 0)
  | .testct_2r => some (.looseR2 0x17 1)
  | .setpsc_2r => some (.r2 0x18 0)
  | .testwct_2r => some (.r2 0x18 1)
  | .chkct_2r => some (.r2 0x19 0)
  | .add_3r => some (.r3 0x02)
  | .sub_3r => some (.r3 0x03)
  | .shl_3r => some (.r3 0x04)
  | .shr_3r => some (.r3 0x05)
  | .eq_3r => some (.r3 0x06)
  | .and_3r => some (.r3 0x07)
  | .or_3r => some (.r3 0x08)
  | .ldw_3r => some (.r3 0x09)
  | .ld16s_3r => some (.r3 0x10)
  | .ld8u_3r => some (.r3 0x11)
  | .tsetr_3r => some (.r3 0x17)
  | .lss_3r => some (.r3 0x18)
  | .lsu_3r => some (.r3 0x19)
  | .sext_rus => some (.r2 0x06 1)
  | .zext_rus => some (.r2 0x08 1)
  | .outct_rus => some (.r2 0x09 1)
  | .getr_rus => some (.r2 0x10 0)
  | .mkmsk_rus => some (.r2 0x14 1)
  | .chkct_rus => some (.r2 0x19 1)
  | .stw_2rus => some (.r3 0x00)
  | .ldw_2rus => some (.r3 0x01)
  | .add_2rus => some (.r3 0x12)
  | .sub_2rus => some (.r3 0x13)
  | .shl_2rus => some (.r3 0x14)
  | .shr_2rus => some (.r3 0x15)
  | .eq_2rus => some (.r3 0x16)
  | .stwdp_ru6 => some (.anyRu6 0x0a 0)
  | .stwsp_ru6 => some (.anyRu6 0x0a 1)
  | .ldwdp_ru6 => some (.anyRu6 0x0b 0)
  | .ldwsp_ru6 => some (.anyRu6 0x0b 1)
  | .ldawdp_ru6 => some (.anyRu6 0x0c 0)
  | .ldawsp_ru6 => some (.anyRu6 0x0c 1)
  | .ldc_ru6 => some (.anyRu6 0x0d 0)
  | .ldwcp_ru6 => some (.anyRu6 0x0d 1)
  | .brft_ru6 => some (.ru6 0x0e 0)
  | .brbt_ru6 => some (.ru6 0x0e 1)
  | .brff_ru6 => some (.ru6 0x0f 0)
  | .brbf_ru6 => some (.ru6 0x0f 1)
  | .setc_ru6 => some (.ru6 0x1d 0)
  | .brfu_u6 => some (.u6 0x0e 0x0c)
  | .blat_u6 => some (.u6 0x0e 0x0d)
  | .extdp_u6 => some (.u6 0x0e 0x0e)
  | .kcall_u6 => some (.u6 0x0e 0x0f)
  | .brbu_u6 => some (.u6 0x0e 0x1c)
  | .entsp_u6 => some (.u6 0x0e 0x1d)
  | .extsp_u6 => some (.u6 0x0e 0x1e)
  | .retsp_xs2a_u6 => some (.u6 0x0e 0x1f)
  | .retsp_u6 => some (.u6 0x0e 0x1f)
  | .clrsr_u6 => some (.u6 0x0f 0x0c)
  | .setsr_u6 => some (.u6 0x0f 0x0d)
  | .kentsp_u6 => some (.u6 0x0f 0x0e)
  | .krestsp_u6 => some (.u6 0x0f 0x0f)
  | .getsr_u6 => some (.u6 0x0f 0x1c)
  | .ldawcp_u6 => some (.u6 0x0f 0x1d)
  | .dualentsp_u6 => some (.u6 0x0f 0x1e)
  | .blrb_u10 => some (.u10 0x1a 1)
  | .blrf_u10 => some (.u10 0x1a 0)
  | .ldapb_u10 => some (.u10 0x1b 1)
  | .ldapf_u10 => some (.u10 0x1b 0)
  | .ldwcpl_u10 => some (.u10 0x1c 1)
  | .blacp_u10 => some (.u10 0x1c 0)
  | .kret_l0r => some (.l0r)
  | .tinitsp_l2r => some (.l2r 0x00 0x0c)
  | .bitrev_l2r => some (.l2r 0x00 0x0c)
  | .tinitpc_l2r => some (.l2r 0x00 0x1c)
  | .byterev_l2r => some (.l2r 0x00 0x1c)
  | .clz_l2r => some (.l2r 0x01 0x0c)
  | .setclk_l2r => some (.l2r 0x01 0x1c)
  | .tinitlr_l2r => some (.l2r 0x02 0x0c)
  | .getps_l2r => some (.l2r 0x02 0x1c)
  | .setps_l2r => some (.l2r 0x03 0x0c)
  | .getd_l2r => some (.l2r 0x03 0x1c)
  | .testlcl_l2r => some (.l2r 0x04 0x0c)
  | .settw_l2r => some (.l2r 0x04 0x1c)
  | .setrdy_l2r => some (.l2r 0x05 0x0c)
  | .setc_l2r => some (.l2r 0x05 0x1c)
  | .setn_l2r => some (.l2r 0x06 0x0c)
  | .getn_l2r => some (.l2r 0x06 0x1c)
  | .stw_l3r => some (.l3r 0x00 0xc)
  | .xor_l3r => some (.l3r 0x01 0xc)
  | .ashr_l3r => some (.l3r 0x02 0xc)
  | .ldawf_l3r => some (.l3r 0x03 0xc)
  | .ldawb_l3r => some (.l3r 0x04 0xc)
  | .lda16f_l3r => some (.l3r 0x05 0xc)
  | .lda16b_l3r => some (.l3r 0x06 0xc)
  | .mul_l3r => some (.l3r 0x07 0xc)
  | .divs_l3r => some (.l3r 0x08 0xc)
  | .divu_l3r => some (.l3r 0x09 0xc)
  | .st16_l3r => some (.l3r 0x10 0xc)
  | .st8_l3r => some (.l3r 0x11 0xc)
  | .crc_l3r => some (.l3r 0x15 0xc)
  | .tsetr_l3r => some (.untestedL3r 0x16)
  | .rems_l3r => some (.l3r 0x18 0xc)
  | .remu_l3r => some (.l3r 0x19 0xc)
  | .lsats_l3r => some (.looseL3r 0x1c)
  | .crc8_l4r => some (.l4r 0x00 0)
  | .maccu_l4r => some (.l4r 0x00 1)
  | .maccs_l4r => some (.l4r 0x01 0)
  | .crcn_l4r => some (.l4r 0x01 1)
  | .std_l4r => some (.l4r 0x02 0)
  | .ldd_l4r => some (.l4r 0x04 0)
  | .ladd_l5r => some (.l5r 0x00 1)
  | .ldivu_l5r => some (.l5r 0x00 0)
  | .xor4_l5r => some (.l5r 0x01 1)
  | .lsub_l5r => some (.l5r 0x01 0)
  | .lmul_l6r => some (.l6r 0x00)
  | .ashr_l2rus => some (.l3r 0x12 0xc)
  | .outpw_l2rus => some (.l3r 0x12 0xd)
  | .inpw_l2rus => some (.l3r 0x12 0xe)
  | .ldawf_l2rus => some (.l3r 0x13 0xc)
  | .unzip_l2rus => some (.l3r 0x13 0xd)
  | .zip_l2rus => some (.l3r 0x13 0xe)
  | .ldawb_l2rus => some (.l3r 0x14 0xc)
  | .lddsp_l2rus => some (.looseL3r 0x1d)
  | .stdsp_l2rus => some (.looseL3r 0x1e)
  | .std_l3rus => some (.l4r 0x02 1)
  | .ldd_l3rus => some (.l4r 0x04 1)
  | .lextract_l4rus => some (.l5r 0x03 0)
  | .stwdp_lru6 => some (.anyLru6 0x0a 0)
  | .stwsp_lru6 => some (.anyLru6 0x0a 1)
  | .ldwdp_lru6 => some (.anyLru6 0x0b 0)
  | .ldwsp_lru6 => some (.anyLru6 0x0b 1)
  | .ldawdp_lru6 => some (.anyLru6 0x0c 0)
  | .ldawsp_lru6 => some (.anyLru6 0x0c 1)
  | .ldc_lru6 => some (.anyLru6 0x0d 0)
  | .ldwcp_lru6 => some (.anyLru6 0x0d 1)
  | .brft_lru6 => some (.lru6 0x0e 0)
  | .brbt_lru6 => some (.lru6 0x0e 1)
  | .brff_lru6 => some (.lru6 0x0f 0)
  | .brbf_lru6 => some (.lru6 0x0f 1)
  | .setc_lru6 => some (.lru6 0x1d 0)
  | .brfu_lu6 => some (.lu6 0x0e 0x0c)
  | .blat_lu6 => some (.lu6 0x0e 0x0d)
  | .extdp_lu6 => some (.lu6 0x0e 0x0e)
  | .kcall_lu6 => some (.lu6 0x0e 0x0f)
  | .brbu_lu6 => some (.lu6 0x0e 0x1c)
  | .entsp_lu6 => some (.lu6 0x0e 0x1d)
  | .extsp_lu6 => some (.lu6 0x0e 0x1e)
  | .retsp_xs2a_lu6 => some (.lu6 0x0e 0x1f)
  | .retsp_lu6 => some (.lu6 0x0e 0x1f)
  | .clrsr_lu6 => some (.lu6 0x0f 0x0c)
  | .setsr_lu6 => some (.lu6 0x0f 0x0d)
  | .kentsp_lu6 => some (.lu6 0x0f 0x0e)
  | .krestsp_lu6 => some (.lu6 0x0f 0x0f)
  | .getsr_lu6 => some (.lu6 0x0f 0x1c)
  | .ldawcp_lu6 => some (.lu6 0x0f 0x1d)
  | .dualentsp_lu6 => some (.lu6 0x0f 0x1e)
  | .blrb_lu10 => some (.lu10 0x1a 1)
  | .blrf_lu10 => some (.lu10 0x1a 0)
  | .ldapb_lu10 => some (.lu10 0x1b 1)
  | .ldapf_lu10 => some (.lu10 0x1b 0)
  | .ldwcpl_lu10 => some (.lu10 0x1c 1)
  | .blacp_lu10 => some (.lu10 0x1c 0)
  | _ => none

def on (type : NodeType) : Opcode → Bool
  | .nop_0r | .gettime_1r | .elate_1r | .byterev_2r | .clz_2r | .bitrev_2r | .retsp_xs2a_u6 | .dualentsp_u6
  | .tinitsp_l2r | .tinitpc_l2r | .tsetr_l3r | .crcn_l4r | .std_l4r | .ldd_l4r | .xor4_l5r | .unzip_l2rus
  | .zip_l2rus | .std_l3rus | .ldd_l3rus | .lextract_l4rus | .retsp_xs2a_lu6 | .dualentsp_lu6 => type == .xs2A
  | .kret_0r | .dret_0r | .dentsp_0r | .drestsp_0r | .tinitpc_2r | .tinitdp_2r | .tinitsp_2r | .tinitcp_2r | .tsetmr_2r
  | .tsetr_3r | .retsp_u6 | .krestsp_u6 | .bitrev_l2r | .byterev_l2r | .clz_l2r | .retsp_lu6 => type != .xs2A
  | _ => true

def bitp (operands : Operands) : Opcode → Operands
  | .sext_rus | .zext_rus | .mkmsk_rus => { operands with op1 := bitpValue operands.op1 }
  | .shl_2rus | .shr_2rus | .ashr_l2rus | .outpw_l2rus | .inpw_l2rus =>
    { operands with op2 := bitpValue operands.op2 }
  | _ => operands

end Opcode

lemma bit_eq_one {value shift : Nat} (set : ¬bit value shift = 0) : bit value shift = 1 := by
  have below : bit value shift < 2 := by
    have := Nat.mod_lt (value / 2 ^ shift) (show 0 < 2 by decide)
    simpa [bit, bitRange] using this
  omega

lemma bitRange_lt (value high low : Nat) : bitRange value high low < 2 ^ (1 + high - low) :=
  Nat.mod_lt _ (Nat.two_pow_pos _)

lemma bit_four_of_range {value : Nat} (b : Nat) (below : b < 2) (range : bitRange value 10 4 = 0x7e + b) :
    bit value 4 = b := by
  simp only [bit, bitRange] at range ⊢
  omega

/-- What is assigned, if anything is, is an instruction of the node type with its encoding. -/
def Assignment.Encodes (type : NodeType) (low high : Nat) (assign : Assignment) : Prop :=
  ∀ opc operands, assign = some (opc, operands) →
    opc.on type = true ∧ ∃ encoding, opc.encoding = some encoding ∧ encoding.Matches type low high ∧
      operands = fun pre => opc.bitp (encoding.operands low high pre)

section

variable {type : NodeType} {low high : Nat} {opc : Opcode}

lemma encodes_none : Assignment.Encodes type low high none :=
  fun _ _ assigned => absurd assigned (Option.some_ne_none _).symm

lemma encodes_leaf {enc : Encoding} {ops : Operands → Operands}
    (found : opc.encoding = some enc) (on : opc.on type = true) (fit : enc.Matches type low high)
    (values : ops = fun pre => opc.bitp (enc.operands low high pre)) :
    Assignment.Encodes type low high (some (opc, ops)) := by
  rintro _ _ ⟨⟩
  exact ⟨on, enc, found, fit, values⟩

end

section

variable (low high : Nat) (type : NodeType)

lemma encodes_casePFIX (prefixed : isPFIX low = true) : (casePFIX low high true type).Encodes type low high := by
  rw [casePFIX, if_neg Bool.true_eq_false.mp]
  repeat' split
  all_goals first
    | exact encodes_none
    | refine encodes_leaf rfl (by first | rfl | simp_all [Opcode.on]) ⟨prefixed, by assumption, ?_⟩ rfl
  -- the tests that lead to the leaf are what its encoding asks for
  all_goals first
    | assumption
    | exact bit_eq_one (by assumption)
    | exact Decidable.not_not.mp (by assumption)
    | exact ⟨by assumption, by assumption⟩
    | exact ⟨by assumption, bit_eq_one (by assumption)⟩

lemma encodes_caseEOPR (prefixed : isEOPR low = true) : (caseEOPR low high true type).Encodes type low high := by
  rw [caseEOPR, if_neg Bool.true_eq_false.mp]
  repeat' split
  all_goals first
    | exact encodes_none
    | refine encodes_leaf rfl (by first | rfl | simp_all [Opcode.on]) ⟨prefixed, by assumption, ?_⟩ rfl
    | refine encodes_leaf rfl (by first | rfl | simp_all [Opcode.on]) ⟨prefixed, by assumption⟩ rfl
  all_goals first
    | assumption
    | exact ⟨by assumption, by assumption⟩
    | exact ⟨by assumption, bit_eq_one (by assumption)⟩
    | exact ⟨by assumption, bit_four_of_range 0 (by decide) (by assumption)⟩
    | exact ⟨by assumption, bit_four_of_range 1 (by decide) (by assumption)⟩
    | exact ⟨Bool.of_not_eq_true (by assumption), by assumption, by assumption⟩
    | exact ⟨by simp [*], by assumption, bit_eq_one (by assumption)⟩
    | exact ⟨by simp [*], by assumption, Decidable.not_not.mp (by assumption)⟩
    | exact ⟨by simp [*], And.left (by assumption), by assumption⟩
    | exact ⟨And.left (by assumption), by assumption⟩
    | exact ⟨And.left (by assumption), bit_eq_one (by assumption)⟩
    | simp [*]

lemma encodes_instructionDecode : (instructionDecode low high true type).Encodes type low high := by
  have below := bitRange_lt low 15 11
  unfold instructionDecode case0x00 case0x01 case0x02 case0x03 case0x04 case0x05 case0x06 case0x07 case0x08
    case0x09 case0x0a case0x0b case0x0c case0x0d case0x0e case0x0f case0x10 case0x11 case0x12 case0x13 case0x14
    case0x15 case0x16 case0x17 case0x18 case0x19 case0x1a case0x1b case0x1c case0x1d
  repeat' split
  all_goals first
    | exact encodes_none
    | refine encodes_leaf rfl (by first | rfl | simp_all [Opcode.on]) ⟨by assumption, ?_⟩ rfl
    | exact encodes_leaf rfl (by first | rfl | simp_all [Opcode.on]) rfl rfl
    | skip
  all_goals first
    | assumption
    | exact bit_eq_one (by assumption)
    | exact Decidable.not_not.mp (by assumption)
    | exact ⟨by assumption, by assumption⟩
    | exact ⟨by assumption, bit_eq_one (by assumption)⟩
    | exact And.left (by assumption)
    | exact ⟨And.left (by assumption), by assumption⟩
    | exact ⟨And.left (by assumption), bit_eq_one (by assumption)⟩
    | exact ⟨Bool.of_not_eq_true (by assumption), by assumption, by assumption⟩
    | exact ⟨Bool.of_not_eq_true (by assumption), by assumption, bit_eq_one (by assumption)⟩
    | exact ⟨Bool.of_not_eq_true (by assumption), And.left (by assumption), by assumption⟩
    | exact ⟨Bool.of_not_eq_true (by assumption), And.left (by assumption), bit_eq_one (by assumption)⟩
    | exact ⟨by simp_all, by assumption, by assumption⟩
    | exact ⟨by simp_all, by assumption, bit_eq_one (by assumption)⟩
    | (apply encodes_casePFIX; simp [isPFIX, *])
    | (apply encodes_caseEOPR; simp [isEOPR, *]; done)
    | skip
  -- no other value of the five bits is left than the one of the long instructions
  simp only [imp_false] at *
  have last : bitRange low 15 11 = 0x1f := by omega
  exact encodes_caseEOPR low high type (by simp [isEOPR, last])

end

end Axe
