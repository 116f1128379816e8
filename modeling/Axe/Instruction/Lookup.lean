import Axe.Instruction.Encoding

/-! The other direction of the table: a word that has the encoding of an instruction is decoded
to it. A layout passes its own test and none of those that come before it in a row. -/

namespace Axe

def Assignment.Finds (opc : Opcode) (assign : Assignment) : Prop :=
  ∃ args, assign = some (opc, args)

section

variable {opc : Opcode} {cond : Prop} {decidable : Decidable cond} {yes no : Assignment}

lemma finds_pos (holds : cond) (found : yes.Finds opc) : (if cond then yes else no).Finds opc := by
  rwa [if_pos holds]

lemma finds_neg (fails : ¬cond) (found : no.Finds opc) : (if cond then yes else no).Finds opc := by
  rwa [if_neg fails]

end

section

variable {low high : Nat}

lemma fixed_of_test1R (one : test1R low = true) : bitRange low 10 5 = 0x3f :=
  beq_iff_eq.mp ((Bool.and_eq_true _ _).mp one).1

lemma not_test3R_of_test1R (one : test1R low = true) : ¬test3R low = true := by
  have fixed := fixed_of_test1R one
  rw [test3R, decide_eq_true_eq]
  simp only [bitRange] at fixed ⊢
  omega

lemma not_test2R_of_test1R (one : test1R low = true) : ¬test2R low = true := by
  have fixed := fixed_of_test1R one
  rw [test2R, decide_eq_true_eq]
  simp only [combined, bit, bitRange] at fixed ⊢
  omega

lemma not_testRU6_of_selector {half selector : Nat} (range : bitRange half 10 6 = selector)
    (big : 12 ≤ selector % 16) : ¬testRU6 half = true := by
  rw [testRU6, decide_eq_true_eq]
  simp only [bitRange] at range ⊢
  omega

lemma not_testL6R_of_fixed (fixed : bitRange high 10 5 = 0x3f) : ¬testL6R high low = true := by
  rw [testL6R, Bool.and_eq_true, decide_eq_true_eq, decide_eq_true_eq]
  simp only [bitRange] at fixed ⊢
  omega

lemma not_testL5R_of_fixed (fixed : bitRange high 10 5 = 0x3f) : ¬testL5R high low = true := by
  rw [testL5R, Bool.and_eq_true, decide_eq_true_eq]
  simp only [combined, bit, bitRange] at fixed ⊢
  omega

lemma fixed_of_testL4R (four : testL4R high low = true) : bitRange high 10 5 = 0x3f :=
  beq_iff_eq.mp ((Bool.and_eq_true _ _).mp four).2

lemma fixed_of_range (range : bitRange high 10 4 = 0x7e) : bitRange high 10 5 = 0x3f := by
  simp only [bitRange] at range ⊢
  omega

lemma range_of_testL4R {bit4 : Nat} (four : testL4R high low = true) (is : bit high 4 = bit4) :
    bitRange high 10 4 = 0x7e + bit4 := by
  have fixed := fixed_of_testL4R four
  simp only [bit, bitRange] at fixed is ⊢
  omega

lemma range_of_testL3R (three : testL3R high low = true) : bitRange high 10 4 = 0x7e :=
  beq_iff_eq.mp ((Bool.and_eq_true _ _).mp three).2

lemma range_of_testL2R (two : testL2R high low = true) : bitRange high 10 4 = 0x7e :=
  beq_iff_eq.mp ((Bool.and_eq_true _ _).mp two).2

lemma not_testL4R_of_not_testL3R (three : testL3R high low = false) (two : testL2R high low = true) :
    ¬testL4R high low = true := by
  intro four
  have range := range_of_testL2R two
  simp only [testL4R, Bool.and_eq_true, decide_eq_true_eq] at four
  simp [testL3R, range, four.1.1] at three

end

def Encoding.Excludes (low high : Nat) : Encoding → Prop
  | .r1 _ _ => ¬test3R low = true ∧ ¬test2R low = true
  | .u6 _ selector => 12 ≤ selector % 16 → ¬testRU6 low = true
  | .lu6 _ selector => 12 ≤ selector % 16 → ¬testRU6 high = true
  | .l2r _ _ => ¬testL6R high low = true ∧ ¬testL5R high low = true ∧ ¬testL4R high low = true
  | .l3r _ selector =>
    ¬testL6R high low = true ∧ ¬testL5R high low = true ∧ (12 ≤ selector → ¬testL4R high low = true)
  | .l4r _ bit4 => ¬testL6R high low = true ∧ ¬testL5R high low = true ∧ bitRange high 10 4 = 0x7e + bit4
  | .l5r _ _ => ¬testL4R high low = true ∧ ¬testL3R high low = true ∧ ¬testL2R high low = true
  | _ => True

variable {low high : Nat} {type : NodeType} {opc : Opcode} {e : Encoding}

lemma excludes (m : e.Matches type low high) : e.Excludes low high := by
  cases e with
  | r1 top bit4 => exact ⟨not_test3R_of_test1R m.2.1, not_test2R_of_test1R m.2.1⟩
  | u6 top selector => exact not_testRU6_of_selector m.2
  | lu6 top selector => exact not_testRU6_of_selector m.2.2
  | l2r top code =>
    obtain ⟨-, -, three, two, -⟩ := m
    have fixed := fixed_of_range (range_of_testL2R two)
    exact ⟨not_testL6R_of_fixed fixed, not_testL5R_of_fixed fixed, not_testL4R_of_not_testL3R three two⟩
  | l3r top selector =>
    obtain ⟨-, -, three, picked⟩ := m
    have fixed := fixed_of_range (range_of_testL3R three)
    refine ⟨not_testL6R_of_fixed fixed, not_testL5R_of_fixed fixed, fun big four => ?_⟩
    simp only [testL4R, Bool.and_eq_true, decide_eq_true_eq, picked] at four
    omega
  | l4r top bit4 =>
    obtain ⟨-, -, four, is⟩ := m
    have fixed := fixed_of_testL4R four
    exact ⟨not_testL6R_of_fixed fixed, not_testL5R_of_fixed fixed, range_of_testL4R four is⟩
  | l5r top bit4 =>
    obtain ⟨-, -, -, five, -⟩ := m
    exact ⟨fun four => not_testL5R_of_fixed (fixed_of_testL4R four) five,
      fun three => not_testL5R_of_fixed (fixed_of_range (range_of_testL3R three)) five,
      fun two => not_testL5R_of_fixed (fixed_of_range (range_of_testL2R two)) five⟩
  | _ => trivial

lemma instructionDecode_pfix {highValid : Bool} (is : isPFIX low = true) :
    instructionDecode low high highValid type = casePFIX low high highValid type := by
  simp only [isPFIX, Bool.and_eq_true, beq_iff_eq] at is
  rw [instructionDecode, is.1, is.2]
  rfl

lemma instructionDecode_eopr {highValid : Bool} (is : isEOPR low = true) :
    instructionDecode low high highValid type = caseEOPR low high highValid type := by
  simp only [isEOPR, Bool.or_eq_true, Bool.and_eq_true, beq_iff_eq, bne_iff_ne] at is
  obtain top | ⟨top, ten⟩ := is
  · rw [instructionDecode, top]
    rfl
  · rw [instructionDecode, top]
    exact if_neg ten

lemma type_of_on (on : (type == .xs2A) = true) : type = .xs2A := eq_of_beq on

lemma type_of_not_on (on : (type != .xs2A) = true) : ¬type = .xs2A := bne_iff_ne.mp on

lemma not_zero {value : Nat} (one : value = 1) : ¬value = 0 := one ▸ Nat.one_ne_zero

-- A row is the chain of tests after the top bits; its branches are left open, so that one lemma is
-- for the layout in all its rows.
section

variable {A B C D E : Assignment} {one two three : Prop} {dec1 : Decidable one} {dec2 : Decidable two}
  {dec3 : Decidable three} {top bit4 bit10 half selector : Nat}

lemma finds_r3 (m : (Encoding.r3 top).Matches type low high) (isThree : test3R low = true → three)
    (leaf : A.Finds opc) : (if three then A else B).Finds opc :=
  finds_pos (isThree m.2) leaf

lemma finds_r2 (m : (Encoding.r2 top bit4).Matches type low high) (isTwo : test2R low = true → two)
    (leaf : (if bit4 = 0 then B else C).Finds opc) :
    (if test3R low = true then A else if two then (if bit low 4 = 0 then B else C) else D).Finds opc := by
  obtain ⟨-, notThree, is, rfl⟩ := m
  exact finds_neg (Bool.eq_false_iff.mp notThree) (finds_pos (isTwo is) leaf)

lemma finds_r1 (m : (Encoding.r1 top bit4).Matches type low high) (notTwo : ¬test2R low = true → ¬two)
    (isOne : test1R low = true → one) (leaf : (if bit4 = 0 then C else D).Finds opc) :
    (if test3R low = true then A else if two then B else if one then (if bit low 4 = 0 then C else D) else E).Finds
      opc := by
  obtain ⟨-, is, rfl⟩ := m
  exact finds_neg (not_test3R_of_test1R is) (finds_neg (notTwo (not_test2R_of_test1R is)) (finds_pos (isOne is) leaf))

lemma finds_looseR2 (m : (Encoding.looseR2 top bit4).Matches type low high)
    (leaf : (if bit4 = 0 then B else C).Finds opc) : (if test3R low = true ∧ type ≠ .xs2A then A
      else if test2R low = true then (if bit low 4 = 0 then B else C) else D).Finds opc := by
  obtain ⟨-, loose, is, rfl⟩ := m
  exact finds_neg (fun both => both.2 (loose both.1)) (finds_pos is leaf)

lemma finds_ru6 (fits : testRU6 half = true) (ten : bit half 10 = bit10)
    (leaf : (if bit10 = 0 then A else B).Finds opc) :
    (if testRU6 half = true then (if bit half 10 = 0 then A else B) else C).Finds opc := by
  subst ten
  exact finds_pos fits leaf

lemma finds_anyRu6 (ten : bit half 10 = bit10) (leaf : (if bit10 = 0 then A else B).Finds opc) :
    (if testRU6_2 half = true then (if bit half 10 = 0 then A else B) else C).Finds opc := by
  subst ten
  exact finds_pos rfl leaf

lemma finds_u10 (ten : bit half 10 = bit10) (leaf : (if bit10 ≠ 0 then A else B).Finds opc) :
    (if bit half 10 ≠ 0 then A else B).Finds opc := by
  rwa [ten]

lemma finds_u6 (picked : bitRange half 10 6 = selector) (big : 12 ≤ selector % 16) (leaf : B.Finds opc) :
    (if testRU6 half = true then A else B).Finds opc :=
  finds_neg (not_testRU6_of_selector picked big) leaf

lemma finds_l3r (m : (Encoding.l3r top selector).Matches type low high) (leaf : A.Finds opc) :
    (if testL3R high low = true then A else B).Finds opc :=
  finds_pos m.2.2.1 leaf

lemma finds_l2r (m : (Encoding.l2r top selector).Matches type low high) (leaf : B.Finds opc) :
    (if testL3R high low = true then A else if testL2R high low = true then B else C).Finds opc :=
  finds_neg (Bool.eq_false_iff.mp m.2.2.1) (finds_pos m.2.2.2.1 leaf)

end

lemma finds_short (found : opc.encoding = some e) (short : e.isLong = false) (m : e.Matches type low high)
    (on : opc.on type = true) (highValid : Bool) : (instructionDecode low high highValid type).Finds opc := by
  -- by the opcode, which fixes the top bits and so the row, and then by its layout
  cases opc <;> cases found
  all_goals first
    | cases short; done
    | (with_reducible have is := (m : Encoding.Matches type low high (.r1 _ _))
       rw [instructionDecode, is.1]
       first
         | exact finds_r1 is id id ⟨_, rfl⟩
         | exact finds_r1 is (fun no both => no both.1) id ⟨_, rfl⟩
         | exact finds_r1 is id (fun one => ⟨one, type_of_on on⟩) ⟨_, rfl⟩)
    | (with_reducible have is := (m : Encoding.Matches type low high (.r2 _ _))
       rw [instructionDecode, is.1]
       first
         | exact finds_r2 is id ⟨_, rfl⟩
         | exact finds_r2 is id (finds_pos rfl (finds_pos (type_of_on on) ⟨_, rfl⟩))
         | exact finds_r2 is id (finds_pos rfl (finds_neg (type_of_not_on on) ⟨_, rfl⟩))
         | exact finds_r2 is (fun two => ⟨two, type_of_not_on on⟩) ⟨_, rfl⟩)
    | (with_reducible have is := (m : Encoding.Matches type low high (.r3 _))
       rw [instructionDecode, is.1]
       first
         | exact finds_r3 is id ⟨_, rfl⟩
         | exact finds_r3 is (fun three => ⟨three, type_of_not_on on⟩) ⟨_, rfl⟩)
    | (with_reducible have is := (m : Encoding.Matches type low high (.looseR2 _ _))
       rw [instructionDecode, is.1]
       exact finds_looseR2 is ⟨_, rfl⟩)
    | (with_reducible have is := (m : Encoding.Matches type low high (.ru6 _ _))
       rw [instructionDecode, is.1]
       exact finds_ru6 is.2.1 is.2.2 ⟨_, rfl⟩)
    | (with_reducible have is := (m : Encoding.Matches type low high (.anyRu6 _ _))
       rw [instructionDecode, is.1]
       exact finds_anyRu6 is.2 ⟨_, rfl⟩)
    | (with_reducible have is := (m : Encoding.Matches type low high (.u10 _ _))
       rw [instructionDecode, is.1]
       exact finds_u10 is.2 ⟨_, rfl⟩)
    | (with_reducible have is := (m : Encoding.Matches type low high (.u6 _ _))
       rw [instructionDecode, is.1]
       refine finds_u6 is.2 (by decide) ?_
       rw [is.2]
       first
         | exact ⟨_, rfl⟩
         | exact finds_pos (type_of_on on) ⟨_, rfl⟩
         | exact finds_neg (type_of_not_on on) ⟨_, rfl⟩
         | exact finds_pos (type_of_not_on on) ⟨_, rfl⟩)
    | (obtain rfl := m
       first
         | exact ⟨_, rfl⟩
         | (cases type <;> first | exact ⟨_, rfl⟩ | cases on))

lemma finds_long (found : opc.encoding = some e) (long : e.isLong = true) (m : e.Matches type low high)
    (on : opc.on type = true) : (instructionDecode low high true type).Finds opc := by
  have rest := excludes m
  cases opc <;> cases found
  all_goals first
    | cases long; done
    | (with_reducible have is := (m : Encoding.Matches type low high (.lru6 _ _))
       rw [instructionDecode_pfix is.1, casePFIX, if_neg Bool.true_eq_false.mp, is.2.1]
       exact finds_ru6 is.2.2.1 is.2.2.2 ⟨_, rfl⟩)
    | (with_reducible have is := (m : Encoding.Matches type low high (.anyLru6 _ _))
       rw [instructionDecode_pfix is.1, casePFIX, if_neg Bool.true_eq_false.mp, is.2.1]
       exact finds_anyRu6 is.2.2 ⟨_, rfl⟩)
    | (with_reducible have is := (m : Encoding.Matches type low high (.lu10 _ _))
       rw [instructionDecode_pfix is.1, casePFIX, if_neg Bool.true_eq_false.mp, is.2.1]
       exact finds_u10 is.2.2 ⟨_, rfl⟩)
    | (with_reducible have is := (m : Encoding.Matches type low high (.lu6 _ _))
       rw [instructionDecode_pfix is.1, casePFIX, if_neg Bool.true_eq_false.mp, is.2.1]
       refine finds_u6 is.2.2 (by decide) ?_
       rw [is.2.2]
       first
         | exact ⟨_, rfl⟩
         | exact finds_pos (type_of_on on) ⟨_, rfl⟩
         | exact finds_neg (type_of_not_on on) ⟨_, rfl⟩)
    | (with_reducible have is := (m : Encoding.Matches type low high (.l3r _ _))
       rw [instructionDecode_eopr is.1, caseEOPR, if_neg Bool.true_eq_false.mp, is.2.1]
       have notFour := rest.2.2 (by decide)
       first
         | refine finds_l3r is ?_
         | refine finds_neg notFour (finds_l3r is ?_)
         | refine finds_neg (fun both => notFour both.1) (finds_l3r is ?_)
         | refine finds_neg (fun both => rest.2.1 both.1) (finds_l3r is ?_)
         | refine finds_neg rest.1 (finds_neg rest.2.1 (finds_neg notFour (finds_l3r is ?_)))
       rw [is.2.2.2]
       first
         | exact ⟨_, rfl⟩
         | exact finds_pos (type_of_on on) ⟨_, rfl⟩)
    | (with_reducible have is := (m : Encoding.Matches type low high (.l2r _ _))
       rw [instructionDecode_eopr is.1, caseEOPR, if_neg Bool.true_eq_false.mp, is.2.1]
       have notFour := rest.2.2
       first
         | refine finds_l2r is ?_
         | refine finds_neg notFour (finds_l2r is ?_)
         | refine finds_neg (fun both => notFour both.1) (finds_l2r is ?_)
         | refine finds_neg (fun both => rest.2.1 both.1) (finds_l2r is ?_)
         | refine finds_neg rest.1 (finds_neg rest.2.1 (finds_neg notFour (finds_l2r is ?_)))
       rw [is.2.2.2.2]
       first
         | exact ⟨_, rfl⟩
         | exact finds_pos (type_of_on on) ⟨_, rfl⟩
         | exact finds_neg (type_of_not_on on) ⟨_, rfl⟩)
    | (with_reducible have is := (m : Encoding.Matches type low high (.untestedL3r _))
       rw [instructionDecode_eopr is.1, caseEOPR, if_neg Bool.true_eq_false.mp, is.2]
       exact finds_pos (type_of_on on) ⟨_, rfl⟩)
    | rw [instructionDecode_eopr m.1, caseEOPR, if_neg Bool.true_eq_false.mp, m.2.1]
  case kret_l0r.refl =>
    obtain ⟨-, -, six, five, four, three, two⟩ := m
    exact finds_neg (Bool.eq_false_iff.mp six) <| finds_neg (Bool.eq_false_iff.mp five) <|
      finds_neg (Bool.eq_false_iff.mp four) <| finds_neg (Bool.eq_false_iff.mp three) <|
      finds_neg (Bool.eq_false_iff.mp two) ⟨_, rfl⟩
  case lsats_l3r.refl | lddsp_l2rus.refl | stdsp_l2rus.refl => exact finds_pos m.2.2 ⟨_, rfl⟩
  case crc8_l4r.refl | maccu_l4r.refl =>
    refine finds_neg rest.1 (finds_neg rest.2.1 (finds_pos m.2.2.1 ?_))
    rw [rest.2.2]
    exact ⟨_, rfl⟩
  case maccs_l4r.refl =>
    refine finds_pos m.2.2.1 ?_
    rw [rest.2.2]
    exact ⟨_, rfl⟩
  case crcn_l4r.refl =>
    refine finds_pos m.2.2.1 ?_
    rw [rest.2.2]
    exact finds_pos (type_of_on on) ⟨_, rfl⟩
  case std_l4r.refl => exact finds_pos m.2.2.1 (finds_pos (type_of_on on) (finds_pos m.2.2.2 ⟨_, rfl⟩))
  case std_l3rus.refl =>
    exact finds_pos m.2.2.1 (finds_pos (type_of_on on) (finds_neg (not_zero m.2.2.2) ⟨_, rfl⟩))
  case ldd_l4r.refl => exact finds_pos ⟨m.2.2.1, type_of_on on⟩ (finds_pos m.2.2.2 ⟨_, rfl⟩)
  case ldd_l3rus.refl => exact finds_pos ⟨m.2.2.1, type_of_on on⟩ (finds_neg (not_zero m.2.2.2) ⟨_, rfl⟩)
  case lmul_l6r.refl => exact finds_pos m.2.2 ⟨_, rfl⟩
  case ladd_l5r.refl =>
    obtain ⟨-, -, notSix, five, four⟩ := m
    exact finds_neg (Bool.eq_false_iff.mp (notSix rfl)) (finds_pos five (finds_pos (not_zero four) ⟨_, rfl⟩))
  case ldivu_l5r.refl =>
    obtain ⟨-, -, notSix, five, four⟩ := m
    exact finds_neg (Bool.eq_false_iff.mp (notSix rfl)) (finds_pos five (finds_neg (not_not_intro four) ⟨_, rfl⟩))
  case xor4_l5r.refl =>
    obtain ⟨-, -, -, five, four⟩ := m
    exact finds_neg rest.1 <| finds_neg rest.2.1 <| finds_neg rest.2.2 <| finds_pos five <|
      finds_pos (not_zero four) (finds_pos (type_of_on on) ⟨_, rfl⟩)
  case lsub_l5r.refl =>
    obtain ⟨-, -, -, five, four⟩ := m
    exact finds_neg rest.1 <| finds_neg rest.2.1 <| finds_neg rest.2.2 <| finds_pos five <|
      finds_neg (not_not_intro four) ⟨_, rfl⟩
  case lextract_l4rus.refl =>
    obtain ⟨-, -, -, five, four⟩ := m
    exact finds_pos ⟨five, type_of_on on⟩ (finds_pos four ⟨_, rfl⟩)

def needsHigh (low : Nat) : Bool := isPFIX low || isEOPR low

structure Carries (type : NodeType) (low high : Nat) (highValid : Bool) (opc : Opcode) (e : Encoding) : Prop where
  encoding : opc.encoding = some e
  on : opc.on type = true
  isMatch : e.Matches type low high
  available : e.isLong = true → highValid = true

section

variable {highValid : Bool}

lemma Encoding.Matches.needsHigh_of_isLong (fit : e.Matches type low high) (long : e.isLong = true) :
    needsHigh low = true := by
  have prefixed : isPFIX low = true ∨ isEOPR low = true := by
    cases e
    all_goals first
      | cases long; done
      | exact .inl fit.1
      | exact .inr fit.1
  exact (Bool.or_eq_true _ _).mpr prefixed

lemma Carries.finds (carries : Carries type low high highValid opc e) :
    (instructionDecode low high highValid type).Finds opc := by
  cases len : e.isLong with
  | false => exact finds_short carries.encoding len carries.isMatch carries.on highValid
  | true =>
    rw [carries.available len]
    exact finds_long carries.encoding len carries.isMatch carries.on

lemma instructionDecode_unavailable (needed : needsHigh low = true) :
    instructionDecode low high false type = some (.illegal_pc, id) := by
  obtain pfix | eopr := (Bool.or_eq_true _ _).mp needed
  · rw [instructionDecode_pfix pfix]
    rfl
  · rw [instructionDecode_eopr eopr]
    rfl

lemma instructionDecode_available (notNeeded : needsHigh low = false) :
    instructionDecode low high highValid type = instructionDecode low high true type := by
  obtain ⟨notPfix, notEopr⟩ := Bool.or_eq_false_iff.mp notNeeded
  have below := bitRange_lt low 15 11
  unfold instructionDecode
  split
  all_goals first
    | rfl
    | skip
  · split
    · simp_all [isPFIX]
    · simp_all [isEOPR]
  · simp only [imp_false] at *
    have last : bitRange low 15 11 = 0x1f := by omega
    simp [isEOPR, last] at notEopr

lemma recognised {args : Operands → Operands}
    (found : instructionDecode low high highValid type = some (opc, args)) :
    (highValid = false ∧ needsHigh low = true ∧ opc = .illegal_pc) ∨
      ∃ e, Carries type low high highValid opc e ∧ args = fun pre => opc.bitp (e.operands low high pre) := by
  cases needed : needsHigh low with
  | false =>
    rw [instructionDecode_available needed] at found
    obtain ⟨on, e, enc, fit, vals⟩ := encodes_instructionDecode low high type opc args found
    refine .inr ⟨e, ⟨enc, on, fit, fun long => ?_⟩, vals⟩
    exact absurd (fit.needsHigh_of_isLong long) (by simp [needed])
  | true =>
    cases highValid with
    | false =>
      rw [instructionDecode_unavailable needed] at found
      cases found
      exact .inl ⟨rfl, rfl, rfl⟩
    | true =>
      obtain ⟨on, e, enc, fit, vals⟩ := encodes_instructionDecode low high type opc args found
      exact .inr ⟨e, ⟨enc, on, fit, fun _ => rfl⟩, vals⟩

/-- The nested tests find an opcode exactly when the halfwords carry its encoding, or when the second one is missing. -/
theorem instructionDecode_eq_some_iff (low high : Nat) (highValid : Bool) (type : NodeType) (opc : Opcode)
    (args : Operands → Operands) : instructionDecode low high highValid type = some (opc, args) ↔
      (highValid = false ∧ needsHigh low = true ∧ opc = .illegal_pc ∧ args = id) ∨
      ∃ e, Carries type low high highValid opc e ∧ args = fun pre => opc.bitp (e.operands low high pre) := by
  constructor
  · intro found
    obtain ⟨rfl, needed, rfl⟩ | carried := recognised found
    · rw [instructionDecode_unavailable needed] at found
      cases found
      exact .inl ⟨rfl, needed, rfl, rfl⟩
    · exact .inr carried
  · rintro (⟨rfl, needed, rfl, rfl⟩ | ⟨e, carries, rfl⟩)
    · exact instructionDecode_unavailable needed
    · obtain ⟨args, found⟩ := carries.finds
      obtain ⟨-, -, rfl⟩ | ⟨e', carries', rfl⟩ := recognised found
      · cases carries.encoding
      · cases carries.encoding.symm.trans carries'.encoding
        exact found

end

end Axe
