import Mathlib.Data.BitVec
import Mathlib.Data.Nat.Digits.Defs
import Mathlib.Tactic.LinearCombination

/-! The instructions for long arithmetic, and numbers of any length that are worked on word by word with them. A number
is the list of its words, the least significant one first. -/

namespace Axe

open BitVec

/-- The low and the high word of a 64-bit `Result`. -/
def halves (result : BitVec 64) : BitVec 32 × BitVec 32 := (result.setWidth 32, (result >>> 32).setWidth 32)

/-- The sum and the carry. -/
def ladd (carry x y : BitVec 32) : BitVec 32 × BitVec 32 :=
  halves (x.setWidth 64 + y.setWidth 64 + (carry &&& 1).setWidth 64)

/-- The difference and the borrow. -/
def lsub (borrow x y : BitVec 32) : BitVec 32 × BitVec 32 :=
  let (low, high) := halves (x.setWidth 64 - y.setWidth 64 - (borrow &&& 1).setWidth 64)
  (low, high &&& 1)

/-- A product with two words added to it. -/
def lmul (x y a b : BitVec 32) : BitVec 32 × BitVec 32 :=
  halves (x.setWidth 64 * y.setWidth 64 + a.setWidth 64 + b.setWidth 64)

/-- The quotient and the remainder, or the arithmetic exception. -/
def ldivu (high low divisor : BitVec 32) : Option (BitVec 32 × BitVec 32) :=
  if divisor ≤ high then none
  else
    let dividend := low.setWidth 64 + high.setWidth 64 <<< 32
    some ((dividend / divisor.setWidth 64).setWidth 32, (dividend % divisor.setWidth 64).setWidth 32)

/-- The pair of a high and a low word is limited to the given number of bits above the low word. -/
def lsats (op0 op1 width : BitVec 32) : BitVec 32 × BitVec 32 :=
  if 0 < width ∧ width < 32 then
    let signWord := op0.sshiftRight (width - 1).toNat
    if op0.msb then
      if signWord ≠ ~~~0#32 then (~~~0#32 <<< (width - 1).toNat, 0) else (op0, op1)
    else
      if signWord ≠ 0 then (~~~(~~~0#32 <<< (width - 1).toNat), ~~~0#32) else (op0, op1)
  else (op0, op1)

/-- The words that an instruction gives for pairs of words, each time with what it handed on before. -/
def chain (instr : BitVec 32 → BitVec 32 → BitVec 32 → BitVec 32 × BitVec 32) :
    BitVec 32 → List (BitVec 32 × BitVec 32) → List (BitVec 32) × BitVec 32
  | handed, [] => ([], handed)
  | handed, (x, y) :: pairs =>
    let rest := chain instr (instr handed x y).2 pairs
    ((instr handed x y).1 :: rest.1, rest.2)

/-- `LMUL` by one factor, with the second number added. -/
def multiply (factor high : BitVec 32) (pairs : List (BitVec 32 × BitVec 32)) : List (BitVec 32) × BitVec 32 :=
  chain (fun high x a => lmul x factor a high) high pairs

/-- `LDIVU` from the most significant word down, each remainder the high word of the next dividend. -/
def divide (divisor high : BitVec 32) : List (BitVec 32) → Option (List (BitVec 32) × BitVec 32)
  | [] => some ([], high)
  | low :: above => do
    let (quotients, rem) ← divide divisor high above
    let (quot, rem) ← ldivu rem low divisor
    return (quot :: quotients, rem)

def number (words : List (BitVec 32)) : Nat := Nat.ofDigits (2 ^ 32) (words.map BitVec.toNat)

variable (x y a b carry : BitVec 32)

lemma number_cons (words : List (BitVec 32)) : number (x :: words) = x.toNat + 2 ^ 32 * number words := by
  simp [number, Nat.ofDigits_cons]

lemma halves_exact (res : BitVec 64) :
    (halves res).1.toNat + 2 ^ 32 * (halves res).2.toNat = res.toNat := by
  have := res.isLt
  simp only [halves, toNat_setWidth, toNat_ushiftRight, Nat.shiftRight_eq_div_pow]
  omega

lemma toNat_and_one : (carry &&& 1).toNat = carry.toNat % 2 := by
  rw [toNat_and]
  exact Nat.and_one_is_mod _

lemma ladd_exact : (ladd carry x y).1.toNat + 2 ^ 32 * ((ladd carry x y).2.toNat % 2) =
    x.toNat + y.toNat + carry.toNat % 2 := by
  have exact := halves_exact (x.setWidth 64 + y.setWidth 64 + (carry &&& 1).setWidth 64)
  simp only [toNat_add, toNat_setWidth, toNat_and_one] at exact
  rw [ladd]
  omega

lemma lsub_exact : x.toNat + 2 ^ 32 * ((lsub carry x y).2.toNat % 2) =
    (lsub carry x y).1.toNat + y.toNat + carry.toNat % 2 := by
  have exact := halves_exact (x.setWidth 64 - y.setWidth 64 - (carry &&& 1).setWidth 64)
  simp only [toNat_sub, toNat_setWidth, toNat_and_one] at exact
  simp only [lsub, toNat_and_one]
  omega

lemma lmul_exact :
    (lmul x y a b).1.toNat + 2 ^ 32 * (lmul x y a b).2.toNat = x.toNat * y.toNat + a.toNat + b.toNat := by
  have small : x.toNat * y.toNat ≤ (2 ^ 32 - 1) * (2 ^ 32 - 1) := Nat.mul_le_mul (by omega) (by omega)
  have exact := halves_exact (x.setWidth 64 * y.setWidth 64 + a.setWidth 64 + b.setWidth 64)
  simp only [toNat_add, toNat_mul, toNat_setWidth] at exact
  rw [lmul, exact]
  rw [Nat.mod_eq_of_lt (a := x.toNat) (by omega), Nat.mod_eq_of_lt (a := y.toNat) (by omega)]
  omega

lemma ldivu_exact {high divisor : BitVec 32} (less : high < divisor) (low : BitVec 32) :
    ∃ quot rem, ldivu high low divisor = some (quot, rem) ∧ rem < divisor ∧
      low.toNat + 2 ^ 32 * high.toNat = quot.toNat * divisor.toNat + rem.toNat := by
  have dividend : (low.setWidth 64 + high.setWidth 64 <<< 32).toNat = low.toNat + 2 ^ 32 * high.toNat := by
    simp only [toNat_add, toNat_shiftLeft, toNat_setWidth, Nat.shiftLeft_eq]
    omega
  have wide : (divisor.setWidth 64).toNat = divisor.toNat := by
    rw [toNat_setWidth]
    omega
  rw [lt_def] at less
  have small : (low.toNat + 2 ^ 32 * high.toNat) / divisor.toNat < 2 ^ 32 :=
    Nat.div_lt_of_lt_mul (by nlinarith [low.isLt])
  have rem := Nat.mod_lt (low.toNat + 2 ^ 32 * high.toNat) (Nat.zero_lt_of_lt less)
  refine ⟨_, _, if_neg (not_le.mpr less), ?_, ?_⟩
  · rw [lt_def, toNat_setWidth, toNat_umod, dividend, wide]
    omega
  · simp only [toNat_setWidth, toNat_umod, toNat_udiv, dividend, wide, Nat.mod_eq_of_lt small]
    rw [Nat.mod_eq_of_lt (rem.trans divisor.isLt)]
    exact (Nat.div_add_mod' _ _).symm

section

variable {instr : BitVec 32 → BitVec 32 → BitVec 32 → BitVec 32 × BitVec 32} (handed : BitVec 32)
  (pairs : List (BitVec 32 × BitVec 32))

lemma chain_length : (chain instr handed pairs).1.length = pairs.length := by
  induction pairs generalizing handed with
  | nil => rfl
  | cons pair pairs ih => simp [chain, ih]

lemma chain_handed {P : BitVec 32 → Prop} (init : P handed) (step : ∀ handed x y, P (instr handed x y).2) :
    P (chain instr handed pairs).2 := by
  induction pairs generalizing handed with
  | nil => exact init
  | cons pair pairs ih => exact ih _ (step ..)

/-- An instruction that is exact on words, what it hands on counted as `worth`, is exact on numbers. -/
lemma chain_linear {a b : Int} (worth : BitVec 32 → Int)
    (step : ∀ handed x y, ((instr handed x y).1.toNat : Int) + 2 ^ 32 * worth (instr handed x y).2 =
      a * x.toNat + b * y.toNat + worth handed) :
    (number (chain instr handed pairs).1 : Int) + 2 ^ (32 * pairs.length) * worth (chain instr handed pairs).2 =
      a * number (pairs.map Prod.fst) + b * number (pairs.map Prod.snd) + worth handed := by
  induction pairs generalizing handed with
  | nil => simp [chain, number]
  | cons pair pairs ih =>
    have first := step handed pair.1 pair.2
    have rest := ih (instr handed pair.1 pair.2).2
    simp only [chain, List.map_cons, number_cons, List.length_cons, Nat.mul_succ, pow_add]
    push_cast
    linear_combination first + 2 ^ 32 * rest

end

lemma number_append (words : List (BitVec 32)) :
    number (words ++ [x]) = number words + 2 ^ (32 * words.length) * x.toNat := by
  induction words with
  | nil => simp [number]
  | cons word words ih =>
    rw [List.cons_append, number_cons, number_cons, ih, List.length_cons, Nat.mul_succ, pow_add]
    ring

lemma ladd_linear : ((ladd carry x y).1.toNat : Int) + 2 ^ 32 * ((ladd carry x y).2.toNat % 2 : Nat) =
    1 * x.toNat + 1 * y.toNat + (carry.toNat % 2 : Nat) := by
  have exact := ladd_exact x y carry
  omega

lemma lsub_linear : ((lsub carry x y).1.toNat : Int) + 2 ^ 32 * -((lsub carry x y).2.toNat % 2 : Nat) =
    1 * x.toNat + -1 * y.toNat + -(carry.toNat % 2 : Nat) := by
  have exact := lsub_exact x y carry
  omega

lemma lmul_linear (factor high : BitVec 32) : ((lmul x factor a high).1.toNat : Int) +
    2 ^ 32 * (lmul x factor a high).2.toNat = factor.toNat * x.toNat + 1 * a.toNat + high.toNat := by
  have exact := lmul_exact x factor a high
  zify at exact
  linear_combination exact

theorem ladd_chain (pairs : List (BitVec 32 × BitVec 32)) (carry : BitVec 32) :
    number (chain ladd carry pairs).1 + 2 ^ (32 * pairs.length) * ((chain ladd carry pairs).2.toNat % 2) =
      number (pairs.map Prod.fst) + number (pairs.map Prod.snd) + carry.toNat % 2 := by
  have exact := chain_linear carry pairs (fun carry => (carry.toNat % 2 : Nat)) fun carry x y => ladd_linear x y carry
  zify
  push_cast at exact
  linear_combination exact

theorem lsub_chain (pairs : List (BitVec 32 × BitVec 32)) (borrow : BitVec 32) :
    number (pairs.map Prod.fst) + 2 ^ (32 * pairs.length) * ((chain lsub borrow pairs).2.toNat % 2) =
      number (chain lsub borrow pairs).1 + number (pairs.map Prod.snd) + borrow.toNat % 2 := by
  have exact := chain_linear borrow pairs (fun borrow => -(borrow.toNat % 2 : Nat))
    fun borrow x y => lsub_linear x y borrow
  zify
  push_cast at exact
  linear_combination -exact

theorem multiply_exact (factor : BitVec 32) (pairs : List (BitVec 32 × BitVec 32)) (high : BitVec 32) :
    number ((multiply factor high pairs).1 ++ [(multiply factor high pairs).2]) =
      number (pairs.map Prod.fst) * factor.toNat + number (pairs.map Prod.snd) + high.toNat := by
  have exact := chain_linear high pairs (fun high => high.toNat) fun high x a => lmul_linear x a factor high
  rw [number_append, multiply, chain_length]
  zify
  linear_combination exact

lemma divide_number {divisor high : BitVec 32} (less : high < divisor) (words : List (BitVec 32)) :
    ∃ quotients rem, divide divisor high words = some (quotients, rem) ∧ rem < divisor ∧
      number words + 2 ^ (32 * words.length) * high.toNat = number quotients * divisor.toNat + rem.toNat := by
  induction words with
  | nil => exact ⟨[], high, rfl, less, by simp [number]⟩
  | cons low above ih =>
    obtain ⟨quotients, rest, divided, restLess, rest_eq⟩ := ih
    obtain ⟨quot, rem, last, remLess, last_eq⟩ := ldivu_exact restLess low
    refine ⟨quot :: quotients, rem, by simp [divide, divided, last], remLess, ?_⟩
    rw [number_cons, number_cons, List.length_cons, Nat.mul_succ, pow_add]
    zify at rest_eq last_eq ⊢
    linear_combination last_eq + 2 ^ 32 * rest_eq

/-- With a first high word below the divisor the exception is never raised. -/
theorem divide_exact {divisor high : BitVec 32} (less : high < divisor) (words : List (BitVec 32)) :
    ∃ quotients rem, divide divisor high words = some (quotients, rem) ∧ rem < divisor ∧
      number (words ++ [high]) = number quotients * divisor.toNat + rem.toNat := by
  rw [number_append]
  exact divide_number less words

theorem divide_exact_three : ∃ quotients rem, divide 3 2 [5, 0] = some (quotients, rem) ∧ rem < 3 ∧
    number ([5, 0] ++ [2]) = number quotients * BitVec.toNat (3 : BitVec 32) + rem.toNat :=
  divide_exact (by decide) [5, 0]

theorem divide_multiply {factor high : BitVec 32} (less : high < factor) (words : List (BitVec 32)) :
    divide factor (multiply factor high (words.map (·, 0#32))).2 (multiply factor high (words.map (·, 0#32))).1 =
      some (words, high) := by
  induction words generalizing high with
  | nil => rfl
  | cons x words ih =>
    have exact := lmul_exact x factor 0#32 high
    rw [BitVec.lt_def] at less
    have handed : (lmul x factor 0#32 high).2 < factor := by
      have small := Nat.mul_le_mul_right factor.toNat (Nat.le_sub_one_of_lt x.isLt)
      rw [BitVec.lt_def]
      simp only [BitVec.toNat_ofNat] at exact
      omega
    obtain ⟨quot, rem, last, remLess, last_eq⟩ := ldivu_exact handed (lmul x factor 0#32 high).1
    rw [BitVec.lt_def] at remLess
    simp only [BitVec.toNat_ofNat] at exact
    -- The dividend is the product, and it has one remainder below the divisor.
    have rem_eq : rem.toNat = high.toNat := by
      rw [← Nat.mul_add_mod_of_lt remLess, ← last_eq, exact]
      exact Nat.mul_add_mod_of_lt less
    have quot_eq : quot.toNat = x.toNat := Nat.eq_of_mul_eq_mul_right (Nat.zero_lt_of_lt less) (by omega)
    have above := ih handed
    simp only [multiply] at above
    simp only [multiply, List.map_cons, chain, divide, above, Option.bind_eq_bind, Option.bind_some, last]
    rw [BitVec.eq_of_toNat_eq rem_eq, BitVec.eq_of_toNat_eq quot_eq]
    rfl

theorem divide_multiply_three : divide 3 (multiply 3 2 [(5, 0), (0, 0)]).2 (multiply 3 2 [(5, 0), (0, 0)]).1 =
    some ([5, 0], 2) :=
  divide_multiply (by decide) [5, 0]

/-! ### Saturation -/

/-- The number nearest to a given one among those that fit in 32 bits and `width` more. -/
def saturated (width : Nat) (value : Int) : Int := max (-2 ^ (31 + width)) (min value (2 ^ (31 + width) - 1))

lemma toInt_pair (op0 op1 : BitVec 32) : (op0 ++ op1).toInt = 2 ^ 32 * op0.toInt + op1.toNat := by
  rw [toInt_append]
  simp

/-- The sign word of `LSATS` tells whether the high word fits. -/
lemma signWord_iff (op0 : BitVec 32) (k : Nat) :
    (op0.sshiftRight k = ~~~0#32 ↔ -2 ^ k ≤ op0.toInt ∧ op0.toInt < 0) ∧
      (op0.sshiftRight k = 0 ↔ 0 ≤ op0.toInt ∧ op0.toInt < 2 ^ k) := by
  have pos : (0 : Int) < 2 ^ k := Int.pow_pos (by decide)
  have word : (op0.sshiftRight k).toInt = op0.toInt / 2 ^ k := by
    rw [toInt_sshiftRight, Int.shiftRight_eq_div_pow]
    simp
  have lower := Int.le_ediv_iff_mul_le (a := -1) (b := op0.toInt) pos
  have zero := Int.le_ediv_iff_mul_le (a := 0) (b := op0.toInt) pos
  have upper := Int.ediv_lt_iff_lt_mul (a := op0.toInt) (b := 1) pos
  rw [← toInt_inj, ← toInt_inj, word, show (~~~0#32).toInt = -1 by decide, show (0 : BitVec 32).toInt = 0 by decide]
  omega

lemma lsats_saturates {width : BitVec 32} (positive : width ≠ 0) (op0 op1 : BitVec 32) :
    ((lsats op0 op1 width).1 ++ (lsats op0 op1 width).2).toInt = saturated width.toNat (op0 ++ op1).toInt := by
  have low := op1.isLt
  have bound : op0.toInt < 2 ^ 31 ∧ -2 ^ 31 ≤ op0.toInt := ⟨toInt_lt, le_toInt op0⟩
  have pos : 0 < width.toNat := Nat.pos_of_ne_zero fun zero => positive (eq_of_toNat_eq zero)
  rw [lsats, saturated]
  split
  · rename_i inside
    obtain ⟨k, count, less⟩ : ∃ k, width.toNat = k + 1 ∧ k < 31 := by
      have small : width.toNat < 32 := inside.2
      exact ⟨width.toNat - 1, by omega, by omega⟩
    have shift : (width - 1).toNat = k := by
      rw [toNat_sub]
      simp
      omega
    have power : (2 : Int) ^ (31 + width.toNat) = 2 ^ 32 * 2 ^ k := by
      rw [count, ← pow_add]
      congr 1
      omega
    have ends : ∀ k < 31, (~~~0#32 <<< k).toInt = -2 ^ k ∧ (~~~(~~~0#32 <<< k)).toInt = 2 ^ k - 1 := by decide
    obtain ⟨bottom, top⟩ := ends k less
    obtain ⟨negative, nonnegative⟩ := signWord_iff op0 k
    have unit : (0 : Int) < 2 ^ k := Int.pow_pos (by decide)
    rw [shift, power, toInt_pair op0 op1]
    dsimp only
    rw [msb_eq_toInt]
    split_ifs with sign cut cut
    · have sign := of_decide_eq_true sign
      have less := mt negative.mpr cut
      rw [toInt_pair, bottom, show (0 : BitVec 32).toNat = 0 by decide]
      omega
    · have fits := negative.mp (not_ne_iff.mp cut)
      dsimp only
      rw [toInt_pair]
      omega
    · have sign := of_decide_eq_false (eq_false_of_ne_true sign)
      have greater := mt nonnegative.mpr cut
      rw [toInt_pair, top, show (~~~0#32).toNat = 2 ^ 32 - 1 by decide]
      omega
    · have fits := nonnegative.mp (not_ne_iff.mp cut)
      dsimp only
      rw [toInt_pair]
      omega
  · rename_i outside
    have wide : 32 ≤ width.toNat := by
      by_contra less
      exact outside ⟨by simpa [lt_def] using pos, by rw [lt_def]; simpa using less⟩
    have room : (2 : Int) ^ 63 ≤ 2 ^ (31 + width.toNat) := pow_le_pow_right₀ (by decide) (by omega)
    dsimp only
    rw [toInt_pair]
    omega

lemma lsats_zero (op0 op1 : BitVec 32) : lsats op0 op1 0 = (op0, op1) := if_neg (by simp)

lemma ladd_carry : (ladd carry x y).2.toNat < 2 := by
  have exact := halves_exact (x.setWidth 64 + y.setWidth 64 + (carry &&& 1).setWidth 64)
  simp only [toNat_add, toNat_setWidth, toNat_and_one] at exact
  rw [ladd]
  omega

lemma lsub_borrow : (lsub carry x y).2.toNat < 2 := by
  simp only [lsub, toNat_and_one]
  omega

lemma ladd_sum (pairs : List (BitVec 32 × BitVec 32)) :
    number (chain ladd 0#32 pairs).1 + 2 ^ (32 * pairs.length) * (chain ladd 0#32 pairs).2.toNat =
      number (pairs.map Prod.fst) + number (pairs.map Prod.snd) := by
  have exact := chain_linear 0#32 pairs (fun carry => (carry.toNat % 2 : Nat)) fun carry x y => ladd_linear x y carry
  have carried : (chain ladd 0#32 pairs).2.toNat < 2 :=
    chain_handed 0#32 pairs (P := fun carry => carry.toNat < 2) (by decide) fun carry x y => ladd_carry x y carry
  rw [Nat.mod_eq_of_lt carried, toNat_zero, Nat.zero_mod] at exact
  zify
  linear_combination exact

lemma lsub_difference (pairs : List (BitVec 32 × BitVec 32)) :
    number (pairs.map Prod.fst) + 2 ^ (32 * pairs.length) * (chain lsub 0#32 pairs).2.toNat =
      number (chain lsub 0#32 pairs).1 + number (pairs.map Prod.snd) := by
  have exact := chain_linear 0#32 pairs (fun borrow => -(borrow.toNat % 2 : Nat))
    fun borrow x y => lsub_linear x y borrow
  have borrowed : (chain lsub 0#32 pairs).2.toNat < 2 :=
    chain_handed 0#32 pairs (P := fun borrow => borrow.toNat < 2) (by decide) fun borrow x y => lsub_borrow x y borrow
  rw [Nat.mod_eq_of_lt borrowed, toNat_zero, Nat.zero_mod] at exact
  zify
  linear_combination -exact

lemma number_zeros (n : Nat) : number (List.replicate n 0#32) = 0 := by
  induction n with
  | zero => rfl
  | succ n ih => rw [List.replicate_succ, number_cons, ih, toNat_zero, Nat.mul_zero]

lemma multiply_word (factor : BitVec 32) (words : List (BitVec 32)) :
    number ((multiply factor 0#32 (words.map (·, 0#32))).1 ++ [(multiply factor 0#32 (words.map (·, 0#32))).2]) =
      number words * factor.toNat := by
  have exact := chain_linear 0#32 (words.map (·, 0#32)) (fun high => high.toNat)
    fun high x a => lmul_linear x a factor high
  rw [List.map_map, List.map_map, Function.comp_def, Function.comp_def, List.map_id', List.map_const', number_zeros,
    toNat_zero] at exact
  rw [number_append, multiply, chain_length]
  zify
  linear_combination exact

/-- Chains of `LADD`, `LSUB`, `LMUL` and `LDIVU` are exact, and `LSATS` limits a pair of words to 32 bits and `width`
more, unless the width is 0: then it does nothing. -/
theorem long_arithmetic_exact (pairs : List (BitVec 32 × BitVec 32)) (words : List (BitVec 32)) (factor : BitVec 32)
    {divisor : BitVec 32} (nonzero : divisor ≠ 0) (op0 op1 width : BitVec 32) :
    number (chain ladd 0#32 pairs).1 + 2 ^ (32 * pairs.length) * (chain ladd 0#32 pairs).2.toNat =
        number (pairs.map Prod.fst) + number (pairs.map Prod.snd) ∧
      number (pairs.map Prod.fst) + 2 ^ (32 * pairs.length) * (chain lsub 0#32 pairs).2.toNat =
        number (chain lsub 0#32 pairs).1 + number (pairs.map Prod.snd) ∧
      number ((multiply factor 0#32 (words.map (·, 0#32))).1 ++ [(multiply factor 0#32 (words.map (·, 0#32))).2]) =
        number words * factor.toNat ∧
      (∀ x y a b, (lmul x y a b).1.toNat + 2 ^ 32 * (lmul x y a b).2.toNat =
        x.toNat * y.toNat + a.toNat + b.toNat) ∧
      (∃ quotients rem, divide divisor 0#32 words = some (quotients, rem) ∧ rem < divisor ∧
        number words = number quotients * divisor.toNat + rem.toNat) ∧
      ((lsats op0 op1 width).1 ++ (lsats op0 op1 width).2).toInt =
        if width = 0 then (op0 ++ op1).toInt else saturated width.toNat (op0 ++ op1).toInt := by
  refine ⟨ladd_sum pairs, lsub_difference pairs, multiply_word factor words, lmul_exact, ?_, ?_⟩
  · have positive : 0#32 < divisor := Nat.pos_of_ne_zero fun zero => nonzero (eq_of_toNat_eq zero)
    obtain ⟨quotients, rem, divided, less, exact⟩ := divide_number positive words
    exact ⟨quotients, rem, divided, less, by simpa using exact⟩
  · split
    · rename_i none
      rw [none, lsats_zero]
    · rename_i some
      exact lsats_saturates some op0 op1

/-- A width of one leaves 33 bits, and the sign is one of them. -/
theorem long_arithmetic_one : ((lsats 2 0 1).1 ++ (lsats 2 0 1).2).toInt = 2 ^ 32 - 1 ∧
    ∃ quotients rem, divide 3 0#32 [0, 1] = some (quotients, rem) ∧ rem < (3 : BitVec 32) ∧
      number [0, 1] = number quotients * BitVec.toNat (3 : BitVec 32) + rem.toNat := by
  obtain ⟨-, -, -, -, divided, limited⟩ := long_arithmetic_exact [] [0, 1] 0 (show (3 : BitVec 32) ≠ 0 by decide) 2 0 1
  exact ⟨limited, divided⟩

/-- A number that does not fit in 32 bits is left by a width of 0. -/
theorem lsats_zero_unlimited : ((lsats 1 0 0).1 ++ (lsats 1 0 0).2).toInt = 2 ^ 32 ∧
    saturated 0 ((1 : BitVec 32) ++ (0 : BitVec 32)).toInt = 2 ^ 31 - 1 := by
  decide

end Axe
