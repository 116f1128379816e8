import Axe.Instruction.Lookup

/-! What the operand codes say about the bits of a word. A layout fixes all of them, unless a
test leaves a bit out or lets one pair of operands have two codes. -/

namespace Axe

def Operands.cleared : Operands := ⟨0, 0, 0, 0, 0, 0⟩

def Agree (x y high low : Nat) : Prop := bitRange x high low = bitRange y high low

section

variable {x y high mid low : Nat}

lemma testBit_bitRange (value high low i : Nat) :
    (bitRange value high low).testBit i = (decide (i < 1 + high - low) && value.testBit (low + i)) := by
  rw [bitRange, Nat.testBit_mod_two_pow, Nat.testBit_div_two_pow, Nat.add_comm low]

lemma agree_iff : Agree x y high low ↔ ∀ i, low ≤ i → i ≤ high → x.testBit i = y.testBit i := by
  constructor
  · intro same i above below
    have bits := congrArg (Nat.testBit · (i - low)) same
    simp only [testBit_bitRange, Nat.add_sub_cancel' above] at bits
    rwa [decide_eq_true (by omega : i - low < 1 + high - low), Bool.true_and, Bool.true_and] at bits
  · intro same
    apply Nat.eq_of_testBit_eq
    intro i
    rw [testBit_bitRange, testBit_bitRange]
    by_cases inside : i < 1 + high - low
    · rw [same (low + i) (by omega) (by omega)]
    · simp [inside]

lemma Agree.join (upper : Agree x y high (mid + 1)) (lower : Agree x y mid low) : Agree x y high low := by
  rw [agree_iff] at *
  intro i above below
  obtain inLower | inUpper := Nat.lt_or_ge mid i
  · exact upper i inLower below
  · exact lower i above inUpper

section

variable {v : Nat}

lemma agree_under_top (top : bitRange x 15 11 = v) (top' : bitRange y 15 11 = v) (rest : Agree x y 10 0) :
    Agree x y 15 0 := Agree.join (top.trans top'.symm) rest

lemma agree_under_ten (ten : bit x 10 = v) (ten' : bit y 10 = v) (rest : Agree x y 9 0) : Agree x y 10 0 :=
  Agree.join (ten.trans ten'.symm) rest

lemma agree_under_selector (sel : bitRange x 10 6 = v) (sel' : bitRange y 10 6 = v) (rest : Agree x y 5 0) :
    Agree x y 10 0 := Agree.join (sel.trans sel'.symm) rest

lemma agree_under_four (four : bit x 4 = v) (four' : bit y 4 = v) (rest : Agree x y 3 0) : Agree x y 4 0 :=
  Agree.join (four.trans four'.symm) rest

end

lemma Agree.sub {high' low' : Nat} (same : Agree x y high low) (above : low ≤ low') (below : high' ≤ high) :
    Agree x y high' low' := by
  rw [agree_iff] at *
  exact fun i above' below' => same i (by omega) (by omega)

lemma Agree.eq (same : Agree x y 15 0) (xBound : x < 2 ^ 16) (yBound : y < 2 ^ 16) : x = y := by
  simp only [Agree, bitRange] at same
  omega

lemma register_inj {bits digit bits' digit' : Nat} (small : bits < 4) (small' : bits' < 4)
    (same : register bits digit = register bits' digit') : bits = bits' ∧ digit = digit' := by
  simp only [register] at same
  omega

lemma ternary_inj {c d : Nat} (ones : c % 3 = d % 3) (threes : c / 3 % 3 = d / 3 % 3) (nines : c / 9 = d / 9) :
    c = d := by
  omega

lemma decode3ROperands_inj (same0 : (decode3ROperands .cleared x).op0 = (decode3ROperands .cleared y).op0)
    (same1 : (decode3ROperands .cleared x).op1 = (decode3ROperands .cleared y).op1)
    (same2 : (decode3ROperands .cleared x).op2 = (decode3ROperands .cleared y).op2) : Agree x y 10 0 := by
  obtain ⟨first, ones⟩ := register_inj (bitRange_lt x 5 4) (bitRange_lt y 5 4) same0
  obtain ⟨snd, threes⟩ := register_inj (bitRange_lt x 3 2) (bitRange_lt y 3 2) same1
  obtain ⟨third, nines⟩ := register_inj (bitRange_lt x 1 0) (bitRange_lt y 1 0) same2
  have code : Agree x y 10 6 := ternary_inj ones threes nines
  have bits : Agree x y 5 0 := Agree.join first (Agree.join snd third)
  exact code.join bits

lemma combined_add (small : combined x < 9) : combined x + 27 = bitRange x 10 6 + bit x 5 * 5 := by
  have code := bitRange_lt x 10 6
  have five := bitRange_lt x 5 5
  simp only [combined, bit] at small ⊢
  omega

lemma decode2ROperands_inj (same0 : (decode2ROperands .cleared x).op0 = (decode2ROperands .cleared y).op0)
    (same1 : (decode2ROperands .cleared x).op1 = (decode2ROperands .cleared y).op1) (two : combined x < 9)
    (fixed : 5 ≤ combined x ∨ 27 ≤ bitRange x 10 6 ∧ 27 ≤ bitRange y 10 6) : Agree x y 10 5 ∧ Agree x y 3 0 := by
  obtain ⟨first, ones⟩ := register_inj (bitRange_lt x 3 2) (bitRange_lt y 3 2) same0
  obtain ⟨snd, threes⟩ := register_inj (bitRange_lt x 1 0) (bitRange_lt y 1 0) same1
  have same : combined x = combined y := by omega
  have left := combined_add two
  have right := combined_add (same ▸ two)
  have codes : Agree x y 10 6 ∧ Agree x y 5 5 := by
    have := bitRange_lt x 10 6
    have := bitRange_lt y 10 6
    have := bitRange_lt x 5 5
    have := bitRange_lt y 5 5
    simp only [Agree, bit] at *
    omega
  exact ⟨codes.1.join codes.2, Agree.join first snd⟩

end

def Encoding.numOperands : Encoding → Nat
  | .r0 _ | .l0r => 0
  | .r1 _ _ | .u6 _ _ | .u10 _ _ | .lu6 _ _ | .lu10 _ _ => 1
  | .r2 _ _ | .looseR2 _ _ | .l2r _ _ | .ru6 _ _ | .anyRu6 _ _ | .lru6 _ _ | .anyLru6 _ _ => 2
  | .r3 _ | .l3r _ _ | .looseL3r _ | .untestedL3r _ => 3
  | .l4r _ _ => 4
  | .l5r _ _ => 5
  | .l6r _ => 6

def Encoding.codes (low high : Nat) (e : Encoding) : List Nat :=
  (e.operands low high Operands.cleared).toList.take e.numOperands

/-- The word has a bit that neither the tests nor the operands of its layout fix. -/
def Encoding.Loose (type : NodeType) (low high : Nat) : Encoding → Prop
  | .looseR2 _ _ => type = .xs2A ∧ combined low < 5
  | .l0r | .looseL3r _ | .untestedL3r _ => True
  | .l5r top _ => bit low 10 = 1 ∨ top ≠ 0 ∧ combined high < 5
  | .l2r _ _ | .l3r _ _ | .l4r _ _ | .l6r _ => bit low 10 = 1
  | _ => False

section

variable {low high low' high' : Nat} {type : NodeType} {e : Encoding}

lemma isPFIX_agree (pfix : isPFIX low = true) (pfix' : isPFIX low' = true) : Agree low low' 15 10 := by
  simp only [isPFIX, Bool.and_eq_true, beq_iff_eq] at pfix pfix'
  exact Agree.join (pfix.1.trans pfix'.1.symm) (pfix.2.trans pfix'.2.symm)

lemma top_of_isEOPR (eopr : isEOPR low = true) (clear : ¬bit low 10 = 1) : bitRange low 15 11 = 0x1f := by
  simp only [isEOPR, Bool.or_eq_true, Bool.and_eq_true, beq_iff_eq, bne_iff_ne] at eopr
  obtain top | ⟨-, set⟩ := eopr
  · exact top
  · exact absurd (bit_eq_one set) clear

lemma isEOPR_agree (eopr : isEOPR low = true) (eopr' : isEOPR low' = true) (clear : ¬bit low 10 = 1)
    (rest : Agree low low' 10 0) : Agree low low' 15 0 := by
  have clear' : ¬bit low' 10 = 1 := by
    simp only [bit, bitRange, Agree] at clear rest ⊢
    omega
  have top : Agree low low' 15 11 := (top_of_isEOPR eopr clear).trans (top_of_isEOPR eopr' clear').symm
  exact top.join rest

lemma prefixed_inj (w : Nat) (same : bitRange high w 0 + bitRange low 9 0 * 2 ^ (w + 1) =
      bitRange high' w 0 + bitRange low' 9 0 * 2 ^ (w + 1)) :
    Agree high high' w 0 ∧ Agree low low' 9 0 := by
  have left : bitRange high w 0 < 2 ^ (w + 1) := Nat.add_comm 1 w ▸ bitRange_lt high w 0
  have right : bitRange high' w 0 < 2 ^ (w + 1) := Nat.add_comm 1 w ▸ bitRange_lt high' w 0
  constructor
  · have := congrArg (· % 2 ^ (w + 1)) same
    simpa [Agree, Nat.mod_eq_of_lt, left, right] using this
  · have := congrArg (· / 2 ^ (w + 1)) same
    simpa [Agree, Nat.add_mul_div_right _ _ (Nat.two_pow_pos _), Nat.div_eq_of_lt, left, right] using this

lemma combined_of_testL5R (five : testL5R high low = true) : combined high < 9 :=
  of_decide_eq_true ((Bool.and_eq_true _ _).mp five).2

lemma pair_of_testL5R (five : testL5R high low = true) (notSix : testL6R high low = false) :
    27 ≤ bitRange high 10 6 := by
  simp only [testL5R, Bool.and_eq_true, Bool.not_eq_true', decide_eq_false_iff_not] at five
  simp only [testL6R, Bool.and_eq_false_iff, decide_eq_false_iff_not] at notSix
  omega

lemma codes_agree (m : e.Matches type low high) (m' : e.Matches type low' high') (tight : ¬e.Loose type low high)
    (same : e.codes low high = e.codes low' high') :
    Agree low low' 15 0 ∧ (e.isLong = true → Agree high high' 15 0) := by
  have short {p : Prop} : false = true → p := (absurd · Bool.false_ne_true)
  cases e
  all_goals simp only [Encoding.codes, Encoding.operands, Encoding.numOperands, Operands.toList, List.take,
    decode1ROperands, decodeRU6Operands, decodeU6Operands, decodeU10Operands, decodeLRU6Operands, decodeLU6Operands,
    decodeLU10Operands, decodeL4ROperands, decodeL5ROperands, decodeL6ROperands, and_true, List.cons.injEq] at same
  case r0 => exact ⟨congrArg (bitRange · 15 0) (m.trans m'.symm), short⟩
  case l0r | looseL3r | untestedL3r => exact absurd trivial tight
  case r1 =>
    obtain ⟨top, one, four⟩ := m
    obtain ⟨top', one', four'⟩ := m'
    have fixed : Agree low low' 10 5 := (fixed_of_test1R one).trans (fixed_of_test1R one').symm
    exact ⟨agree_under_top top top' (fixed.join (agree_under_four four four' same)), short⟩
  case r2 =>
    obtain ⟨top, three, two, four⟩ := m
    obtain ⟨top', three', -, four'⟩ := m'
    have pairs : 27 ≤ bitRange low 10 6 ∧ 27 ≤ bitRange low' 10 6 :=
      ⟨Nat.le_of_not_lt (of_decide_eq_false three), Nat.le_of_not_lt (of_decide_eq_false three')⟩
    obtain ⟨code, bits⟩ := decode2ROperands_inj same.1 same.2 (of_decide_eq_true two) (.inr pairs)
    exact ⟨agree_under_top top top' (code.join (agree_under_four four four' bits)), short⟩
  case looseR2 =>
    obtain ⟨top, three, two, four⟩ := m
    obtain ⟨top', three', -, four'⟩ := m'
    have fixed : 5 ≤ combined low ∨ 27 ≤ bitRange low 10 6 ∧ 27 ≤ bitRange low' 10 6 := by
      by_cases is : type = .xs2A
      · exact .inl (Nat.le_of_not_lt fun few => tight ⟨is, few⟩)
      · -- the other node types test for three registers first
        have pair := mt three is
        have pair' := mt three' is
        simp only [test3R, decide_eq_true_eq, Nat.not_lt] at pair pair'
        exact .inr ⟨pair, pair'⟩
    obtain ⟨code, bits⟩ := decode2ROperands_inj same.1 same.2 (of_decide_eq_true two) fixed
    exact ⟨agree_under_top top top' (code.join (agree_under_four four four' bits)), short⟩
  case r3 => exact ⟨agree_under_top m.1 m'.1 (decode3ROperands_inj same.1 same.2.1 same.2.2), short⟩
  case ru6 =>
    exact ⟨agree_under_top m.1 m'.1 (agree_under_ten m.2.2 m'.2.2 (Agree.join same.1 same.2)), short⟩
  case anyRu6 => exact ⟨agree_under_top m.1 m'.1 (agree_under_ten m.2 m'.2 (Agree.join same.1 same.2)), short⟩
  case u6 => exact ⟨agree_under_top m.1 m'.1 (agree_under_selector m.2 m'.2 same), short⟩
  case u10 => exact ⟨agree_under_top m.1 m'.1 (agree_under_ten m.2 m'.2 same), short⟩
  case lru6 =>
    obtain ⟨imm, rest⟩ := prefixed_inj 5 same.2
    exact ⟨(isPFIX_agree m.1 m'.1).join rest, fun _ =>
      agree_under_top m.2.1 m'.2.1 (agree_under_ten m.2.2.2 m'.2.2.2 (Agree.join same.1 imm))⟩
  case anyLru6 =>
    obtain ⟨imm, rest⟩ := prefixed_inj 5 same.2
    exact ⟨(isPFIX_agree m.1 m'.1).join rest, fun _ =>
      agree_under_top m.2.1 m'.2.1 (agree_under_ten m.2.2 m'.2.2 (Agree.join same.1 imm))⟩
  case lu6 =>
    obtain ⟨imm, rest⟩ := prefixed_inj 5 same
    exact ⟨(isPFIX_agree m.1 m'.1).join rest, fun _ =>
      agree_under_top m.2.1 m'.2.1 (agree_under_selector m.2.2 m'.2.2 imm)⟩
  case lu10 =>
    obtain ⟨imm, rest⟩ := prefixed_inj 9 same
    exact ⟨(isPFIX_agree m.1 m'.1).join rest, fun _ =>
      agree_under_top m.2.1 m'.2.1 (agree_under_ten m.2.2 m'.2.2 imm)⟩
  case l2r =>
    -- the code of two operands has bit 10 set
    obtain ⟨-, -, three, two, -⟩ := m
    have pair : 27 ≤ bitRange low 10 6 := by simpa [testL3R, range_of_testL2R two] using three
    refine absurd ?_ tight
    simp only [Encoding.Loose, bit, bitRange] at pair ⊢
    omega
  case l3r =>
    obtain ⟨eopr, top, three, sel⟩ := m
    obtain ⟨eopr', top', three', sel'⟩ := m'
    have fixed : Agree high high' 10 4 := (range_of_testL3R three).trans (range_of_testL3R three').symm
    have sel : Agree high high' 3 0 := sel.trans sel'.symm
    exact ⟨isEOPR_agree eopr eopr' tight (decode3ROperands_inj same.1 same.2.1 same.2.2),
      fun _ => agree_under_top top top' (fixed.join sel)⟩
  case l4r =>
    obtain ⟨eopr, top, four, bit4⟩ := m
    obtain ⟨eopr', top', four', bit4'⟩ := m'
    have fixed : Agree high high' 10 5 := (fixed_of_testL4R four).trans (fixed_of_testL4R four').symm
    exact ⟨isEOPR_agree eopr eopr' tight (decode3ROperands_inj same.1 same.2.1 same.2.2.1),
      fun _ => agree_under_top top top' (fixed.join (agree_under_four bit4 bit4' same.2.2.2))⟩
  case l5r =>
    obtain ⟨eopr, top, six, five, bit4⟩ := m
    obtain ⟨eopr', top', six', five', bit4'⟩ := m'
    simp only [Encoding.Loose, not_or, not_and, Nat.not_lt] at tight
    have fixed : 5 ≤ combined high ∨ 27 ≤ bitRange high 10 6 ∧ 27 ≤ bitRange high' 10 6 := by
      by_cases first : bitRange high 15 11 = 0
      · exact .inr ⟨pair_of_testL5R five (six (top ▸ first)), pair_of_testL5R five' (six' (top ▸ first))⟩
      · exact .inl (tight.2 fun zero => first (top.trans zero))
    obtain ⟨code, bits⟩ := decode2ROperands_inj same.2.2.2.1 same.2.2.2.2 (combined_of_testL5R five) fixed
    exact ⟨isEOPR_agree eopr eopr' tight.1 (decode3ROperands_inj same.1 same.2.1 same.2.2.1),
      fun _ => agree_under_top top top' (code.join (agree_under_four bit4 bit4' bits))⟩
  case l6r =>
    exact ⟨isEOPR_agree m.1 m'.1 tight (decode3ROperands_inj same.1 same.2.1 same.2.2.1),
      fun _ => agree_under_top m.2.1 m'.2.1 (decode3ROperands_inj same.2.2.2.1 same.2.2.2.2.1 same.2.2.2.2.2)⟩

end

section

variable {x y low high low' high' : Nat} {type : NodeType} {e : Encoding}

lemma exists_flipped (bound : x < 2 ^ 16) (eopr : isEOPR x = true) (ten : bit x 10 = 1) :
    ∃ y < 2 ^ 16, y ≠ x ∧ Agree x y 10 0 ∧ isEOPR y = true := by
  simp only [isEOPR, Bool.or_eq_true, Bool.and_eq_true, beq_iff_eq, bne_iff_ne] at eopr ⊢
  obtain last | ⟨other, -⟩ := eopr
  · refine ⟨x - 2048, by omega, ?_, ?_, .inr ⟨?_, ?_⟩⟩
    all_goals simp only [Agree, bit, bitRange] at *; omega
  · refine ⟨x + 2048, ?_, by omega, ?_, .inl ?_⟩
    all_goals simp only [Agree, bit, bitRange] at *; omega

lemma exists_lowest (bound : x < 2 ^ 16) : ∃ y < 2 ^ 16, y ≠ x ∧ Agree x y 15 1 := by
  obtain clear | set : x % 2 = 0 ∨ x % 2 = 1 := by omega
  · refine ⟨x + 1, by omega, by omega, ?_⟩
    simp only [Agree, bitRange]
    omega
  · refine ⟨x - 1, by omega, by omega, ?_⟩
    simp only [Agree, bitRange]
    omega

lemma exists_recoded (bound : x < 2 ^ 16) (few : combined x < 5) :
    ∃ y < 2 ^ 16, y ≠ x ∧ Agree x y 15 11 ∧ Agree x y 4 0 ∧ combined x = combined y := by
  have sum := combined_add (show combined x < 9 by omega)
  have five := bitRange_lt x 5 5
  obtain set | clear : bit x 5 = 1 ∨ bit x 5 = 0 := by simp only [bit] at *; omega
  · refine ⟨x + 288, ?_, by omega, ?_, ?_, ?_⟩
    all_goals simp only [Agree, combined, bit, bitRange] at *; omega
  · refine ⟨x - 288, ?_, ?_, ?_, ?_, ?_⟩
    all_goals simp only [Agree, combined, bit, bitRange] at *; omega

lemma Agree.combined_eq (same : Agree x y 10 5) : combined x = combined y := by
  have code : bitRange x 10 6 = bitRange y 10 6 := same.sub (by decide) (by decide)
  have five : bit x 5 = bit y 5 := same.sub (by decide) (by decide)
  rw [combined, combined, code, five]

lemma Agree.decode3ROperands_eq (same : Agree x y 10 0) (pre : Operands) :
    decode3ROperands pre x = decode3ROperands pre y := by
  have code : bitRange x 10 6 = bitRange y 10 6 := same.sub (by decide) (by decide)
  have first : bitRange x 5 4 = bitRange y 5 4 := same.sub (by decide) (by decide)
  have snd : bitRange x 3 2 = bitRange y 3 2 := same.sub (by decide) (by decide)
  have third : bitRange x 1 0 = bitRange y 1 0 := same.sub (by decide) (by decide)
  simp only [decode3ROperands, code, first, snd, third]

lemma decode2ROperands_eq (same : combined x = combined y) (bits : Agree x y 3 0) (pre : Operands) :
    decode2ROperands pre x = decode2ROperands pre y := by
  have first : bitRange x 3 2 = bitRange y 3 2 := bits.sub (by decide) (by decide)
  have snd : bitRange x 1 0 = bitRange y 1 0 := bits.sub (by decide) (by decide)
  simp only [decode2ROperands, same, first, snd]

lemma Encoding.Matches.flipped (m : e.Matches type low high) (same : Agree low low' 10 0)
    (eopr : isEOPR low = true) (eopr' : isEOPR low' = true) (long : e.isLong = true) :
    e.Matches type low' high ∧ e.codes low' high = e.codes low high := by
  have code : bitRange low' 10 6 = bitRange low 10 6 := (same.sub (by decide) (by decide)).symm
  have four : bit low' 4 = bit low 4 := (same.sub (by decide) (by decide)).symm
  have pair : combined low' = combined low := (same.sub (by decide) (by decide) : Agree low low' 10 5).combined_eq.symm
  have triple := same.decode3ROperands_eq
  have two := decode2ROperands_eq pair.symm (same.sub (by decide) (by decide))
  have notPfix : ¬isPFIX low = true := fun pfix => by
    simp only [isPFIX, isEOPR, Bool.and_eq_true, Bool.or_eq_true, beq_iff_eq, bne_iff_ne] at pfix eopr
    omega
  cases e with
  | r0 | r1 | r2 | looseR2 | r3 | ru6 | anyRu6 | u6 | u10 => cases long
  | lru6 | anyLru6 | lu6 | lu10 => exact absurd m.1 notPfix
  | _ =>
    simp only [Encoding.Matches, Encoding.codes, Encoding.operands, decodeL4ROperands, decodeL5ROperands,
      decodeL6ROperands, testL6R, testL5R, testL4R, testL3R, testL2R, code, four, pair, triple, two] at m ⊢
    exact ⟨⟨eopr', m.2⟩, trivial⟩

/-- A word of a layout that leaves something open is not the only one with its operands. -/
lemma exists_copy (m : e.Matches type low high) (loose : e.Loose type low high) (lowBound : low < 2 ^ 16)
    (highBound : high < 2 ^ 16) :
    ∃ low' < 2 ^ 16, ∃ high' < 2 ^ 16, (low' ≠ low ∨ high' ≠ high) ∧ (e.isLong = false → high' = high) ∧
      e.Matches type low' high' ∧ e.codes low' high' = e.codes low high := by
  have long {p : Prop} : true = false → p := (absurd · Bool.true_eq_false.mp)
  cases e with
  | looseR2 =>
    obtain ⟨top, -, two, four⟩ := m
    obtain ⟨xs2A, few⟩ := loose
    obtain ⟨low', bound, ne, top', bits, code⟩ := exists_recoded lowBound few
    have four' : bit low 4 = bit low' 4 := bits.sub (by decide) (by decide)
    refine ⟨low', bound, high, highBound, .inl ne, fun _ => rfl, ⟨top' ▸ top, fun _ => xs2A, ?_, four' ▸ four⟩, ?_⟩
    · rwa [test2R, ← code]
    · simp only [Encoding.codes, Encoding.operands, decode2ROperands_eq code (bits.sub (by decide) (by decide))]
  | l0r =>
    -- nothing is an operand, so that any two words of the layout are copies of each other
    by_cases zero : high = 0
    · exact ⟨0xffff, by decide, 1, by decide, .inr (by omega), long, by simp [Encoding.Matches]; decide, rfl⟩
    · exact ⟨0xffff, by decide, 0, by decide, .inr (by omega), long, by simp [Encoding.Matches]; decide, rfl⟩
  | looseL3r =>
    obtain ⟨high', bound, ne, same⟩ := exists_lowest highBound
    obtain ⟨eopr, top, three⟩ := m
    have top' : bitRange high 15 11 = bitRange high' 15 11 := same.sub (by decide) (by decide)
    have fixed : bitRange high 10 4 = bitRange high' 10 4 := same.sub (by decide) (by decide)
    refine ⟨low, lowBound, high', bound, .inr ne, long, ⟨eopr, top' ▸ top, ?_⟩, rfl⟩
    rwa [testL3R, ← fixed]
  | untestedL3r =>
    obtain ⟨high', bound, ne, same⟩ := exists_lowest highBound
    have top : bitRange high 15 11 = bitRange high' 15 11 := same.sub (by decide) (by decide)
    exact ⟨low, lowBound, high', bound, .inr ne, long, ⟨m.1, top ▸ m.2⟩, rfl⟩
  | l5r top bit4 =>
    obtain ten | ⟨notFirst, few⟩ := loose
    · obtain ⟨low', bound, ne, same, eopr'⟩ := exists_flipped lowBound m.1 ten
      exact ⟨low', bound, high, highBound, .inl ne, long, m.flipped same m.1 eopr' rfl⟩
    · obtain ⟨eopr, top, -, five, four⟩ := m
      obtain ⟨high', bound, ne, top', bits, code⟩ := exists_recoded highBound few
      have four' : bit high 4 = bit high' 4 := bits.sub (by decide) (by decide)
      have pair := decode2ROperands_eq code (bits.sub (by decide) (by decide)) .cleared
      have fourth : (decode2ROperands .cleared high).op0 = (decode2ROperands .cleared high').op0 := by rw [pair]
      have fifth : (decode2ROperands .cleared high).op1 = (decode2ROperands .cleared high').op1 := by rw [pair]
      refine ⟨low, lowBound, high', bound, .inr ne, long,
        ⟨eopr, top' ▸ top, fun zero => absurd zero notFirst, ?_, four' ▸ four⟩, ?_⟩
      · rwa [testL5R, ← code]
      · simp only [decode2ROperands] at fourth fifth
        simp only [Encoding.codes, Encoding.operands, decodeL5ROperands, fourth, fifth]
  | l2r | l3r | l4r | l6r =>
    obtain ⟨low', bound, ne, same, eopr'⟩ := exists_flipped lowBound m.1 loose
    exact ⟨low', bound, high, highBound, .inl ne, long, m.flipped same m.1 eopr' rfl⟩
  | _ => exact absurd loose id

end

end Axe
