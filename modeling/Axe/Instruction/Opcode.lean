/-! The opcodes of `instructionDecode` and `instructionTransform`, with the formats that give
their lengths and the number of their operands. -/

namespace Axe

/-- The part of an opcode's name after the last underscore. `pseudo` is for the opcodes that
stand for no encoding. -/
inductive Format where
  | f0r | f1r | f2r | f3r | frus | f2rus | fru6 | fu6 | fu10 | fl0r | fl2r | fl3r | fl4r | fl5r | fl6r | fl2rus
  | fl3rus | fl4rus | flru6 | flu6 | flu10 | pseudo
  deriving DecidableEq, Repr

def Format.size : Format → Nat
  | .fl0r | .fl2r | .fl3r | .fl4r | .fl5r | .fl6r | .fl2rus | .fl3rus | .fl4rus | .flru6 | .flu6 | .flu10 => 4
  | _ => 2

def Format.numOperands : Format → Nat
  | .f0r | .fl0r | .pseudo => 0
  | .f1r | .fu6 | .fu10 | .flu6 | .flu10 => 1
  | .f2r | .frus | .fru6 | .fl2r | .flru6 => 2
  | .f3r | .f2rus | .fl3r | .fl2rus => 3
  | .fl4r | .fl3rus => 4
  | .fl5r | .fl4rus => 5
  | .fl6r => 6

inductive Opcode where
  | waiteu_0r | clre_0r | ssync_0r | freet_0r | dcall_0r | kret_0r | dret_0r | setkep_0r | ldspc_0r | stspc_0r
  | ldssr_0r | stssr_0r | stsed_0r | stet_0r | geted_0r | getet_0r | dentsp_0r | drestsp_0r | getid_0r
  | getkep_0r | getksp_0r | ldsed_0r | ldet_0r | nop_0r
  | edu_1r | eeu_1r | waitet_1r | waitef_1r | freer_1r | mjoin_1r | tstart_1r | msync_1r | bla_1r | bau_1r
  | bru_1r | setsp_1r | setdp_1r | setcp_1r | dgetreg_1r | setev_1r | kcall_1r | setv_1r | ecallf_1r
  | ecallt_1r | clrpt_1r | syncr_1r | gettime_1r | elate_1r
  | byterev_2r | tinitpc_2r | getst_2r | clz_2r | tinitdp_2r | outt_2r | bitrev_2r | tinitsp_2r | setd_2r
  | tinitcp_2r | tsetmr_2r | eet_2r | andnot_2r | eef_2r | sext_2r | getts_2r | setpt_2r | zext_2r | outct_2r
  | inct_2r | not_2r | int_2r | neg_2r | endin_2r | mkmsk_2r | out_2r | outshr_2r | in_2r | inshr_2r | peek_2r
  | testct_2r | setpsc_2r | testwct_2r | chkct_2r
  | add_3r | sub_3r | shl_3r | shr_3r | eq_3r | and_3r | or_3r | ldw_3r | ld16s_3r | ld8u_3r | tsetr_3r | lss_3r
  | lsu_3r
  | sext_rus | zext_rus | outct_rus | getr_rus | mkmsk_rus | chkct_rus
  | stw_2rus | ldw_2rus | add_2rus | sub_2rus | shl_2rus | shr_2rus | eq_2rus | add_mov_2rus | shl_32_2rus
  | shr_32_2rus
  | stwdp_ru6 | stwsp_ru6 | ldwdp_ru6 | ldwsp_ru6 | ldawdp_ru6 | ldawsp_ru6 | ldc_ru6 | ldwcp_ru6 | brft_ru6
  | brbt_ru6 | brff_ru6 | brbf_ru6 | setc_ru6 | brft_illegal_ru6 | brbt_illegal_ru6 | brff_illegal_ru6
  | brbf_illegal_ru6
  | brfu_u6 | blat_u6 | extdp_u6 | kcall_u6 | brbu_u6 | entsp_u6 | extsp_u6 | retsp_xs2a_u6 | retsp_u6
  | clrsr_u6 | setsr_u6 | kentsp_u6 | krestsp_u6 | getsr_u6 | ldawcp_u6 | dualentsp_u6 | brfu_illegal_u6
  | brbu_illegal_u6
  | blrb_u10 | blrf_u10 | ldapb_u10 | ldapf_u10 | ldwcpl_u10 | blacp_u10 | blrb_illegal_u10 | blrf_illegal_u10
  | kret_l0r
  | tinitsp_l2r | bitrev_l2r | tinitpc_l2r | byterev_l2r | clz_l2r | setclk_l2r | tinitlr_l2r | getps_l2r
  | setps_l2r | getd_l2r | testlcl_l2r | settw_l2r | setrdy_l2r | setc_l2r | setn_l2r | getn_l2r
  | stw_l3r | xor_l3r | ashr_l3r | ldawf_l3r | ldawb_l3r | lda16f_l3r | lda16b_l3r | mul_l3r | divs_l3r
  | divu_l3r | st16_l3r | st8_l3r | crc_l3r | tsetr_l3r | rems_l3r | remu_l3r | lsats_l3r
  | crc8_l4r | maccu_l4r | maccs_l4r | crcn_l4r | std_l4r | ldd_l4r
  | ladd_l5r | ldivu_l5r | xor4_l5r | lsub_l5r
  | lmul_l6r
  | ashr_l2rus | outpw_l2rus | inpw_l2rus | ldawf_l2rus | unzip_l2rus | zip_l2rus | ldawb_l2rus | lddsp_l2rus
  | stdsp_l2rus | ashr_32_l2rus
  | std_l3rus | ldd_l3rus
  | lextract_l4rus
  | stwdp_lru6 | stwsp_lru6 | ldwdp_lru6 | ldwsp_lru6 | ldawdp_lru6 | ldawsp_lru6 | ldc_lru6 | ldwcp_lru6
  | brft_lru6 | brbt_lru6 | brff_lru6 | brbf_lru6 | setc_lru6 | brft_illegal_lru6 | brbt_illegal_lru6
  | brff_illegal_lru6 | brbf_illegal_lru6
  | brfu_lu6 | blat_lu6 | extdp_lu6 | kcall_lu6 | brbu_lu6 | entsp_lu6 | extsp_lu6 | retsp_xs2a_lu6 | retsp_lu6
  | clrsr_lu6 | setsr_lu6 | kentsp_lu6 | krestsp_lu6 | getsr_lu6 | ldawcp_lu6 | dualentsp_lu6
  | brfu_illegal_lu6 | brbu_illegal_lu6
  | blrb_lu10 | blrf_lu10 | ldapb_lu10 | ldapf_lu10 | ldwcpl_lu10 | blacp_lu10 | blrb_illegal_lu10
  | blrf_illegal_lu10
  | illegal_pc | illegal_instruction | breakpoint
  deriving DecidableEq, Repr

def Opcode.format : Opcode → Format
  | .waiteu_0r | .clre_0r | .ssync_0r | .freet_0r | .dcall_0r | .kret_0r | .dret_0r | .setkep_0r | .ldspc_0r
  | .stspc_0r | .ldssr_0r | .stssr_0r | .stsed_0r | .stet_0r | .geted_0r | .getet_0r | .dentsp_0r | .drestsp_0r
  | .getid_0r | .getkep_0r | .getksp_0r | .ldsed_0r | .ldet_0r | .nop_0r => .f0r
  | .edu_1r | .eeu_1r | .waitet_1r | .waitef_1r | .freer_1r | .mjoin_1r | .tstart_1r | .msync_1r | .bla_1r
  | .bau_1r | .bru_1r | .setsp_1r | .setdp_1r | .setcp_1r | .dgetreg_1r | .setev_1r | .kcall_1r | .setv_1r
  | .ecallf_1r | .ecallt_1r | .clrpt_1r | .syncr_1r | .gettime_1r | .elate_1r => .f1r
  | .byterev_2r | .tinitpc_2r | .getst_2r | .clz_2r | .tinitdp_2r | .outt_2r | .bitrev_2r | .tinitsp_2r
  | .setd_2r | .tinitcp_2r | .tsetmr_2r | .eet_2r | .andnot_2r | .eef_2r | .sext_2r | .getts_2r | .setpt_2r
  | .zext_2r | .outct_2r | .inct_2r | .not_2r | .int_2r | .neg_2r | .endin_2r | .mkmsk_2r | .out_2r
  | .outshr_2r | .in_2r | .inshr_2r | .peek_2r | .testct_2r | .setpsc_2r | .testwct_2r | .chkct_2r => .f2r
  | .add_3r | .sub_3r | .shl_3r | .shr_3r | .eq_3r | .and_3r | .or_3r | .ldw_3r | .ld16s_3r | .ld8u_3r
  | .tsetr_3r | .lss_3r | .lsu_3r => .f3r
  | .sext_rus | .zext_rus | .outct_rus | .getr_rus | .mkmsk_rus | .chkct_rus => .frus
  | .stw_2rus | .ldw_2rus | .add_2rus | .sub_2rus | .shl_2rus | .shr_2rus | .eq_2rus | .add_mov_2rus
  | .shl_32_2rus | .shr_32_2rus => .f2rus
  | .stwdp_ru6 | .stwsp_ru6 | .ldwdp_ru6 | .ldwsp_ru6 | .ldawdp_ru6 | .ldawsp_ru6 | .ldc_ru6 | .ldwcp_ru6
  | .brft_ru6 | .brbt_ru6 | .brff_ru6 | .brbf_ru6 | .setc_ru6 | .brft_illegal_ru6 | .brbt_illegal_ru6
  | .brff_illegal_ru6 | .brbf_illegal_ru6 => .fru6
  | .brfu_u6 | .blat_u6 | .extdp_u6 | .kcall_u6 | .brbu_u6 | .entsp_u6 | .extsp_u6 | .retsp_xs2a_u6 | .retsp_u6
  | .clrsr_u6 | .setsr_u6 | .kentsp_u6 | .krestsp_u6 | .getsr_u6 | .ldawcp_u6 | .dualentsp_u6
  | .brfu_illegal_u6 | .brbu_illegal_u6 => .fu6
  | .blrb_u10 | .blrf_u10 | .ldapb_u10 | .ldapf_u10 | .ldwcpl_u10 | .blacp_u10 | .blrb_illegal_u10
  | .blrf_illegal_u10 => .fu10
  | .kret_l0r => .fl0r
  | .tinitsp_l2r | .bitrev_l2r | .tinitpc_l2r | .byterev_l2r | .clz_l2r | .setclk_l2r | .tinitlr_l2r
  | .getps_l2r | .setps_l2r | .getd_l2r | .testlcl_l2r | .settw_l2r | .setrdy_l2r | .setc_l2r | .setn_l2r
  | .getn_l2r => .fl2r
  | .stw_l3r | .xor_l3r | .ashr_l3r | .ldawf_l3r | .ldawb_l3r | .lda16f_l3r | .lda16b_l3r | .mul_l3r | .divs_l3r
  | .divu_l3r | .st16_l3r | .st8_l3r | .crc_l3r | .tsetr_l3r | .rems_l3r | .remu_l3r | .lsats_l3r => .fl3r
  | .crc8_l4r | .maccu_l4r | .maccs_l4r | .crcn_l4r | .std_l4r | .ldd_l4r => .fl4r
  | .ladd_l5r | .ldivu_l5r | .xor4_l5r | .lsub_l5r => .fl5r
  | .lmul_l6r => .fl6r
  | .ashr_l2rus | .outpw_l2rus | .inpw_l2rus | .ldawf_l2rus | .unzip_l2rus | .zip_l2rus | .ldawb_l2rus
  | .lddsp_l2rus | .stdsp_l2rus | .ashr_32_l2rus => .fl2rus
  | .std_l3rus | .ldd_l3rus => .fl3rus
  | .lextract_l4rus => .fl4rus
  | .stwdp_lru6 | .stwsp_lru6 | .ldwdp_lru6 | .ldwsp_lru6 | .ldawdp_lru6 | .ldawsp_lru6 | .ldc_lru6
  | .ldwcp_lru6 | .brft_lru6 | .brbt_lru6 | .brff_lru6 | .brbf_lru6 | .setc_lru6 | .brft_illegal_lru6
  | .brbt_illegal_lru6 | .brff_illegal_lru6 | .brbf_illegal_lru6 => .flru6
  | .brfu_lu6 | .blat_lu6 | .extdp_lu6 | .kcall_lu6 | .brbu_lu6 | .entsp_lu6 | .extsp_lu6 | .retsp_xs2a_lu6
  | .retsp_lu6 | .clrsr_lu6 | .setsr_lu6 | .kentsp_lu6 | .krestsp_lu6 | .getsr_lu6 | .ldawcp_lu6
  | .dualentsp_lu6 | .brfu_illegal_lu6 | .brbu_illegal_lu6 => .flu6
  | .blrb_lu10 | .blrf_lu10 | .ldapb_lu10 | .ldapf_lu10 | .ldwcpl_lu10 | .blacp_lu10 | .blrb_illegal_lu10
  | .blrf_illegal_lu10 => .flu10
  | .illegal_pc | .illegal_instruction | .breakpoint => .pseudo

def Opcode.size (opc : Opcode) : Nat := opc.format.size

theorem Opcode.two_le_size (opc : Opcode) : 2 ≤ opc.size := by
  rw [Opcode.size]
  cases opc.format <;> decide

theorem Opcode.size_even (opc : Opcode) : opc.size % 2 = 0 := by
  rw [Opcode.size]
  cases opc.format <;> decide

end Axe
