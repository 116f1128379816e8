import Mathlib.Data.BitVec
import Mathlib.Tactic.IntervalCases

/-! `ZIP` and `UNZIP`: the bits of two words interleaved in groups, and taken apart again. Of a pair the second word
has the lower bits. -/

namespace Axe

namespace Zip

open BitVec

/-- The variables of the two loops. -/
structure Loop where
  op0shift : BitVec 32
  op1shift : BitVec 32
  op0 : BitVec 32 := 0
  op1 : BitVec 32 := 0

/-- The values of `i` in `for (i = 0; i < limit; i += step)`. -/
def indices (limit step : Nat) : List Nat := List.range' 0 ((limit + step - 1) / step) step

def mask (spacing : Nat) : BitVec 32 := 1#32 <<< spacing - 1#32

def zipped (spacing : Nat) (op0shift op1shift : BitVec 32) : BitVec 32 :=
  (op0shift &&& mask spacing) <<< spacing ||| op1shift &&& mask spacing

def zipRound (spacing : Nat) (st : Loop) (i : Nat) : Loop :=
  let zipped := zipped spacing st.op0shift st.op1shift
  { op0shift := st.op0shift >>> spacing
    op1shift := st.op1shift >>> spacing
    op0 := if i < 32 then st.op0 else st.op0 ||| zipped <<< (i - 32)
    op1 := if i < 32 then st.op1 ||| zipped <<< i else st.op1 }

def zip (op2 : Nat) (op0 op1 : BitVec 32) : BitVec 32 × BitVec 32 :=
  let spacing := 2 ^ op2
  if op2 < 5 then
    let st := (indices 64 (spacing * 2)).foldl (zipRound spacing) { op0shift := op0, op1shift := op1 }
    (st.op0, st.op1)
  else (op0, op1)

def unzipRound (spacing : Nat) (st : Loop) (i : Nat) : Loop :=
  let value := if i < 16 then st.op1shift else st.op0shift
  { op0shift := if i < 16 then st.op0shift else st.op0shift >>> (spacing * 2)
    op1shift := if i < 16 then st.op1shift >>> (spacing * 2) else st.op1shift
    op0 := st.op0 ||| (value >>> spacing &&& mask spacing) <<< i
    op1 := st.op1 ||| (value &&& mask spacing) <<< i }

/-- For a spacing that is not legal both words are cleared. -/
def unzip (op2 : Nat) (op0 op1 : BitVec 32) : BitVec 32 × BitVec 32 :=
  let spacing := 2 ^ op2
  if op2 < 5 then
    let st := (indices 32 spacing).foldl (unzipRound spacing) { op0shift := op0, op1shift := op1 }
    (st.op0, st.op1)
  else (0, 0)

variable {s k m r : Nat} {x y : BitVec 32} {st : Loop}

lemma getLsbD_mask (legal : s < 5) (j : Nat) : (mask (2 ^ s)).getLsbD j = decide (j < 2 ^ s) := by
  have bits : ∀ s < 5, ∀ j < 32, (mask (2 ^ s)).getLsbD j = decide (j < 2 ^ s) := by decide
  by_cases inside : j < 32
  · exact bits s legal j inside
  · have small : 2 ^ s ≤ 2 ^ 4 := Nat.pow_le_pow_right (by decide) (by omega)
    rw [getLsbD_of_ge _ _ (by omega), decide_eq_false (by omega)]

/-! ### Zipping -/

lemma getLsbD_zipped (legal : s < 5) (j : Nat) : (zipped (2 ^ s) x y).getLsbD j =
    if j < 2 ^ s then y.getLsbD j else decide (j < 2 ^ s * 2) && x.getLsbD (j - 2 ^ s) := by
  have small : 2 ^ s ≤ 2 ^ 4 := Nat.pow_le_pow_right (by decide) (by omega)
  simp only [zipped, getLsbD_or, getLsbD_shiftLeft, getLsbD_and, getLsbD_mask legal]
  split
  · rename_i first
    simp [first]
  · rename_i past
    by_cases second : j < 2 ^ s * 2
    · simp [past, second, show j < 32 by omega, show j - 2 ^ s < 2 ^ s by omega]
    · simp [past, second, show ¬j - 2 ^ s < 2 ^ s by omega]

/-- A word of few bits is put into one of the words of a pair. -/
lemma getLsbD_insert (op0 op1 word : BitVec 32) {i width : Nat} (fits : i < 32 → i + width ≤ 32)
    (narrow : ∀ j, width ≤ j → word.getLsbD j = false) {j : Nat} (inside : j < 64) :
    ((if i < 32 then op0 else op0 ||| word <<< (i - 32)) ++
      (if i < 32 then op1 ||| word <<< i else op1)).getLsbD j =
      ((op0 ++ op1).getLsbD j || (decide (i ≤ j) && word.getLsbD (j - i))) := by
  simp only [getLsbD_append]
  by_cases low : i < 32
  · rw [if_pos low, if_pos low]
    split
    · rename_i below
      rw [getLsbD_or, getLsbD_shiftLeft, decide_eq_true below, Bool.true_and, ← decide_not]
      simp only [Nat.not_lt]
    · rw [narrow (j - i) (by omega), Bool.and_false, Bool.or_false]
  · rw [if_neg low, if_neg low]
    split
    · rw [decide_eq_false (by omega), Bool.false_and, Bool.or_false]
    · rw [getLsbD_or, getLsbD_shiftLeft, decide_eq_true (by omega), Bool.true_and, ← decide_not,
        Nat.sub_sub_sub_cancel_right (by omega)]
      congr 3
      simp only [eq_iff_iff]
      omega

/-- The variables of `ZIP` after `k` rounds, in which the groups below `2 * k` have been put in their places. -/
structure Zipped (s : Nat) (x y : BitVec 32) (k : Nat) (st : Loop) : Prop where
  op0shift : st.op0shift = x >>> (2 ^ s * k)
  op1shift : st.op1shift = y >>> (2 ^ s * k)
  groups : ∀ m r, r < 2 ^ s → 2 ^ s * m + r < 64 → (st.op0 ++ st.op1).getLsbD (2 ^ s * m + r) =
    (decide (m < 2 * k) && (if m % 2 = 0 then y else x).getLsbD (2 ^ s * (m / 2) + r))

lemma Zipped.step (legal : s < 5) (prior : Zipped s x y k st) :
    Zipped s x y (k + 1) (zipRound (2 ^ s) st (2 ^ s * 2 * k)) := by
  refine ⟨?_, ?_, fun m r small inside => ?_⟩
  · simp only [zipRound, prior.op0shift, ← shiftRight_add, Nat.mul_succ]
  · simp only [zipRound, prior.op1shift, ← shiftRight_add, Nat.mul_succ]
  · have fits : 2 ^ s * 2 * k < 32 → 2 ^ s * 2 * k + 2 ^ s * 2 ≤ 32 := by interval_cases s <;> omega
    have narrow (j : Nat) (outside : 2 ^ s * 2 ≤ j) :
        (zipped (2 ^ s) st.op0shift st.op1shift).getLsbD j = false := by
      rw [getLsbD_zipped legal, if_neg (by omega), decide_eq_false (by omega), Bool.false_and]
    refine (getLsbD_insert st.op0 st.op1 _ fits narrow inside).trans ?_
    rw [prior.groups m r small inside, getLsbD_zipped legal, prior.op0shift, prior.op1shift, getLsbD_ushiftRight,
      getLsbD_ushiftRight, Nat.mul_assoc]
    obtain early | rfl | rfl | late : m < 2 * k ∨ m = 2 * k ∨ m = 2 * k + 1 ∨ 2 * k + 2 ≤ m := by omega
    · have below := Nat.mul_le_mul_left (2 ^ s) (Nat.succ_le_of_lt early)
      rw [Nat.mul_succ] at below
      simp [early, show ¬2 ^ s * (2 * k) ≤ 2 ^ s * m + r by omega, show m < 2 * (k + 1) by omega]
    · simp [small]
    · have index : 2 ^ s * (2 * k + 1) + r - 2 ^ s * (2 * k) = 2 ^ s + r := by
        rw [Nat.mul_succ]
        omega
      have half : (2 * k + 1) / 2 = k := by omega
      simp [index, half, show 2 ^ s * (2 * k) ≤ 2 ^ s * (2 * k + 1) + r by omega,
        show 2 ^ s + r < 2 ^ s * 2 by omega, show 2 * k + 1 < 2 * (k + 1) by omega]
    · have above := Nat.mul_le_mul_left (2 ^ s) late
      rw [Nat.mul_add] at above
      simp [show ¬m < 2 * k by omega, show ¬m < 2 * (k + 1) by omega,
        show ¬2 ^ s * m + r - 2 ^ s * (2 * k) < 2 ^ s by omega,
        show ¬2 ^ s * m + r - 2 ^ s * (2 * k) < 2 ^ s * 2 by omega]

lemma zipped_rounds (legal : s < 5) (x y : BitVec 32) (n : Nat) :
    Zipped s x y n ((List.range' 0 n (2 ^ s * 2)).foldl (zipRound (2 ^ s)) { op0shift := x, op1shift := y }) := by
  induction n with
  | zero => exact ⟨by simp, by simp, by simp⟩
  | succ k ih =>
    rw [List.range'_concat, List.foldl_append, List.foldl_cons, List.foldl_nil, Nat.zero_add]
    exact ih.step legal

/-- The groups of the first word have odd numbers in the zipped pair, those of the second even ones. -/
lemma zip_groups (legal : s < 5) (x y : BitVec 32) (small : r < 2 ^ s) (inside : 2 ^ s * m + r < 64) :
    ((zip s x y).1 ++ (zip s x y).2).getLsbD (2 ^ s * m + r) =
      (if m % 2 = 0 then y else x).getLsbD (2 ^ s * (m / 2) + r) := by
  have all : m < 2 * ((64 + 2 ^ s * 2 - 1) / (2 ^ s * 2)) := by interval_cases s <;> omega
  rw [zip, if_pos legal]
  rw [indices, (zipped_rounds legal x y _).groups m r small inside, decide_eq_true all, Bool.true_and]

/-! ### Unzipping -/

/-- The variables of `UNZIP` after `k` rounds. What is shifted is the second word in the first half of them. -/
structure Unzipped (s : Nat) (x y : BitVec 32) (k : Nat) (st : Loop) : Prop where
  op0shift : st.op0shift = x >>> (2 ^ s * 2 * (k - 16 / 2 ^ s))
  op1shift : st.op1shift = y >>> (2 ^ s * 2 * min k (16 / 2 ^ s))
  op0 : ∀ m r, r < 2 ^ s → 2 ^ s * m + r < 32 →
    st.op0.getLsbD (2 ^ s * m + r) = (decide (m < k) && (x ++ y).getLsbD (2 ^ s * (2 * m + 1) + r))
  op1 : ∀ m r, r < 2 ^ s → 2 ^ s * m + r < 32 →
    st.op1.getLsbD (2 ^ s * m + r) = (decide (m < k) && (x ++ y).getLsbD (2 ^ s * (2 * m) + r))

/-- The word that a round of `UNZIP` reads begins with the two groups of the pair that it is for. -/
lemma Unzipped.value (legal : s < 5) (within : 2 ^ s * k < 32) (prior : Unzipped s x y k st) {j : Nat}
    (inside : j < 2 ^ s * 2) : (if 2 ^ s * k < 16 then st.op1shift else st.op0shift).getLsbD j =
      (x ++ y).getLsbD (2 ^ s * (2 * k) + j) := by
  have half : 2 ^ s * k < 16 ↔ k < 16 / 2 ^ s := by interval_cases s <;> omega
  rw [getLsbD_append]
  split
  · rename_i first
    have all : min k (16 / 2 ^ s) = k := Nat.min_eq_left (half.mp first).le
    have low : 2 ^ s * (2 * k) + j < 32 := by interval_cases s <;> omega
    rw [prior.op1shift, getLsbD_ushiftRight, all, if_pos low, Nat.mul_assoc]
  · rename_i second
    have high : 2 ^ s * 2 * (k - 16 / 2 ^ s) + 32 = 2 ^ s * (2 * k) := by interval_cases s <;> omega
    rw [prior.op0shift, getLsbD_ushiftRight, if_neg (by omega)]
    congr 1
    omega

/-- A group is put into a word at the place that is free for it. -/
lemma getLsbD_group (legal : s < 5) (word value : BitVec 32) (small : r < 2 ^ s) (inside : 2 ^ s * m + r < 32) :
    (word ||| (value &&& mask (2 ^ s)) <<< (2 ^ s * k)).getLsbD (2 ^ s * m + r) =
      (word.getLsbD (2 ^ s * m + r) || (decide (m = k) && value.getLsbD r)) := by
  rw [getLsbD_or, getLsbD_shiftLeft, decide_eq_true inside, Bool.true_and, getLsbD_and, getLsbD_mask legal]
  congr 1
  obtain early | rfl | late : m < k ∨ m = k ∨ k + 1 ≤ m := by omega
  · have below := Nat.mul_le_mul_left (2 ^ s) (Nat.succ_le_of_lt early)
    rw [Nat.mul_succ] at below
    simp [show 2 ^ s * m + r < 2 ^ s * k by omega, show m ≠ k by omega]
  · simp [small]
  · have above := Nat.mul_le_mul_left (2 ^ s) late
    rw [Nat.mul_succ] at above
    simp [show ¬2 ^ s * m + r - 2 ^ s * k < 2 ^ s by omega, show m ≠ k by omega]

lemma Unzipped.step (legal : s < 5) (within : 2 ^ s * k < 32) (prior : Unzipped s x y k st) :
    Unzipped s x y (k + 1) (unzipRound (2 ^ s) st (2 ^ s * k)) := by
  have half : 2 ^ s * k < 16 ↔ k < 16 / 2 ^ s := by interval_cases s <;> omega
  -- the group that the round writes is one of those below `k + 1`
  have grown (m : Nat) (old new : Bool) (reads : m = k → new = old) :
      (decide (m < k) && old || (decide (m = k) && new)) = (decide (m < k + 1) && old) := by
    by_cases here : m = k
    · simp [here, reads here]
    · simp [here, show m < k + 1 ↔ m < k by omega]
  refine ⟨?_, ?_, fun m r small inside => ?_, fun m r small inside => ?_⟩
  · simp only [unzipRound]
    split
    · rename_i first
      have left := half.mp first
      rw [prior.op0shift, show k - 16 / 2 ^ s = 0 by omega, show k + 1 - 16 / 2 ^ s = 0 by omega]
    · rename_i second
      have right := mt half.mpr second
      rw [prior.op0shift, ← shiftRight_add, ← Nat.mul_succ, show (k - 16 / 2 ^ s).succ = k + 1 - 16 / 2 ^ s by omega]
  · simp only [unzipRound]
    split
    · rename_i first
      have left := half.mp first
      rw [prior.op1shift, ← shiftRight_add, ← Nat.mul_succ,
        show (min k (16 / 2 ^ s)).succ = min (k + 1) (16 / 2 ^ s) by omega]
    · rename_i second
      have right := mt half.mpr second
      rw [prior.op1shift, show min k (16 / 2 ^ s) = min (k + 1) (16 / 2 ^ s) by omega]
  · refine (getLsbD_group legal _ _ small inside).trans ?_
    rw [prior.op0 m r small inside, getLsbD_ushiftRight]
    refine grown m _ _ fun here => ?_
    rw [prior.value legal within (by omega), here, Nat.mul_succ, Nat.add_assoc]
  · refine (getLsbD_group legal _ _ small inside).trans ?_
    rw [prior.op1 m r small inside]
    refine grown m _ _ fun here => ?_
    rw [prior.value legal within (by omega), here]

lemma unzipped_rounds (legal : s < 5) (x y : BitVec 32) (n : Nat) (within : 2 ^ s * n ≤ 32) :
    Unzipped s x y n ((List.range' 0 n (2 ^ s)).foldl (unzipRound (2 ^ s)) { op0shift := x, op1shift := y }) := by
  induction n with
  | zero => exact ⟨by simp, by simp, by simp, by simp⟩
  | succ k ih =>
    rw [Nat.mul_succ] at within
    have positive := Nat.two_pow_pos s
    rw [List.range'_concat, List.foldl_append, List.foldl_cons, List.foldl_nil, Nat.zero_add]
    exact (ih (by omega)).step legal (by omega)

lemma unzip_groups (legal : s < 5) (x y : BitVec 32) (small : r < 2 ^ s) (inside : 2 ^ s * m + r < 32) :
    (unzip s x y).1.getLsbD (2 ^ s * m + r) = (x ++ y).getLsbD (2 ^ s * (2 * m + 1) + r) ∧
      (unzip s x y).2.getLsbD (2 ^ s * m + r) = (x ++ y).getLsbD (2 ^ s * (2 * m) + r) := by
  have rounds : 2 ^ s * ((32 + 2 ^ s - 1) / 2 ^ s) = 32 := by interval_cases s <;> rfl
  have all : m < (32 + 2 ^ s - 1) / 2 ^ s := by interval_cases s <;> omega
  have done := unzipped_rounds legal x y _ rounds.le
  rw [unzip, if_pos legal]
  constructor
  · rw [indices, done.op0 m r small inside, decide_eq_true all, Bool.true_and]
  · rw [indices, done.op1 m r small inside, decide_eq_true all, Bool.true_and]

/-! ### Both -/

lemma exists_group (s j : Nat) : ∃ m r, r < 2 ^ s ∧ j = 2 ^ s * m + r :=
  ⟨j / 2 ^ s, j % 2 ^ s, Nat.mod_lt _ (Nat.two_pow_pos s), (Nat.div_add_mod ..).symm⟩

lemma unzip_zip (legal : s < 5) (x y : BitVec 32) : unzip s (zip s x y).1 (zip s x y).2 = (x, y) := by
  have pair (m r : Nat) (inside : 2 ^ s * m + r < 32) (small : r < 2 ^ s) : 2 ^ s * (2 * m + 1) + r < 64 := by
    interval_cases s <;> omega
  refine Prod.ext (eq_of_getLsbD_eq fun j inside => ?_) (eq_of_getLsbD_eq fun j inside => ?_)
  · obtain ⟨m, r, small, rfl⟩ := exists_group s j
    rw [(unzip_groups legal _ _ small inside).1, zip_groups legal x y small (pair m r inside small),
      if_neg (by omega), show (2 * m + 1) / 2 = m by omega]
  · obtain ⟨m, r, small, rfl⟩ := exists_group s j
    have fits := pair m r inside small
    rw [Nat.mul_succ] at fits
    rw [(unzip_groups legal _ _ small inside).2, zip_groups legal x y small (by omega), if_pos (by omega),
      show 2 * m / 2 = m by omega]

lemma zip_unzip (legal : s < 5) (x y : BitVec 32) : zip s (unzip s x y).1 (unzip s x y).2 = (x, y) := by
  have joined : (zip s (unzip s x y).1 (unzip s x y).2).1 ++ (zip s (unzip s x y).1 (unzip s x y).2).2 = x ++ y := by
    refine eq_of_getLsbD_eq fun j inside => ?_
    obtain ⟨m, r, small, rfl⟩ := exists_group s j
    have half : 2 ^ s * (m / 2) + r < 32 := by interval_cases s <;> omega
    obtain ⟨first, second⟩ := unzip_groups legal x y small half
    rw [zip_groups legal _ _ small inside]
    split
    · rw [second, show 2 * (m / 2) = m by omega]
    · rw [first, show 2 * (m / 2) + 1 = m by omega]
  refine Prod.ext (eq_of_getLsbD_eq fun j inside => ?_) (eq_of_getLsbD_eq fun j inside => ?_)
  · have same := congrArg (getLsbD · (j + 32)) joined
    simpa only [getLsbD_append, if_neg (show ¬j + 32 < 32 by omega), Nat.add_sub_cancel] using same
  · have same := congrArg (getLsbD · j) joined
    simpa only [getLsbD_append, if_pos inside] using same

end Zip

example : Zip.zip 4 0x12345678 0x9abcdef0 = (0x12349abc, 0x5678def0) := by decide

end Axe
