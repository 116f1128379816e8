import Mathlib.Tactic.SplitIfs

/-! A shift register with feedback. Bits enter at the top and leave at the bottom, and each one bit
that leaves is fed back through a polynomial. -/

namespace ShiftRegister

open BitVec

variable {w v : Nat} (poly : BitVec w)

def shift (reg : BitVec w) (bit : Bool) : BitVec w :=
  let shifted := reg >>> 1 ||| (if bit then BitVec.twoPow w (w - 1) else 0)
  if reg.getLsbD 0 then shifted ^^^ poly else shifted

/-- The lowest bits of the data enter, the least significant one first. -/
def feed : Nat → BitVec w → BitVec v → BitVec w
  | 0, reg, _ => reg
  | n + 1, reg, data => feed n (shift poly reg (data.getLsbD 0)) (data >>> 1)

variable {poly}

lemma feed_congr {v' : Nat} {n : Nat} {reg : BitVec w} {data : BitVec v} {data' : BitVec v'}
    (same : ∀ i < n, data.getLsbD i = data'.getLsbD i) : feed poly n reg data = feed poly n reg data' := by
  induction n generalizing reg data data' with
  | zero => rfl
  | succ n ih =>
    rw [feed, feed, same 0 (Nat.zero_lt_succ n)]
    refine ih fun i isIn => ?_
    simpa [Nat.add_comm] using same (i + 1) (Nat.succ_lt_succ isIn)

lemma feed_add (m n : Nat) (reg : BitVec w) (data : BitVec v) :
    feed poly (m + n) reg data = feed poly n (feed poly m reg data) (data >>> m) := by
  induction m generalizing reg data with
  | zero => simp [feed]
  | succ m ih => rw [Nat.add_right_comm, feed, ih, feed, ← shiftRight_add, Nat.add_comm 1 m]

lemma getLsbD_shift (reg : BitVec w) (bit : Bool) {j : Nat} (isIn : j < w) :
    (shift poly reg bit).getLsbD j =
      ((if j + 1 = w then bit else reg.getLsbD (j + 1)) ^^ (reg.getLsbD 0 && poly.getLsbD j)) := by
  have into : (reg >>> 1 ||| (if bit then twoPow w (w - 1) else 0)).getLsbD j =
      if j + 1 = w then bit else reg.getLsbD (j + 1) := by
    split_ifs with enters last last
    · simp [← last, enters]
    · have below : w - 1 ≠ j := by omega
      simp [getLsbD_twoPow, below, Nat.add_comm 1 j]
    · simp [← last, enters, Nat.add_comm 1 j]
    · simp [Nat.add_comm 1 j]
  rw [shift]
  cases reg.getLsbD 0 with
  | false => simpa using into
  | true => rw [if_pos rfl, getLsbD_xor, into, Bool.true_and]

lemma shift_xor (first snd : BitVec w) (bit other : Bool) :
    shift poly (first ^^^ snd) (bit ^^ other) = shift poly first bit ^^^ shift poly snd other := by
  apply eq_of_getLsbD_eq
  intro j isIn
  rw [getLsbD_xor, getLsbD_shift _ _ isIn, getLsbD_shift _ _ isIn, getLsbD_shift _ _ isIn]
  simp only [getLsbD_xor, Bool.and_xor_distrib_right]
  split
  · simp only [Bool.xor_assoc, Bool.xor_left_comm]
  · simp only [Bool.xor_assoc, Bool.xor_left_comm]

lemma feed_xor (n : Nat) (first snd : BitVec w) (data other : BitVec v) :
    feed poly n (first ^^^ snd) (data ^^^ other) = feed poly n first data ^^^ feed poly n snd other := by
  induction n generalizing first snd data other with
  | zero => rfl
  | succ n ih => rw [feed, getLsbD_xor, shift_xor, ushiftRight_xor_distrib, ih, feed, feed]

lemma getLsbD_feed {n : Nat} {reg : BitVec w} {data : BitVec v} (fits : n ≤ w)
    (clear : ∀ i < n, reg.getLsbD i = false) {j : Nat} (isIn : j < w) : (feed poly n reg data).getLsbD j =
      if j + n < w then reg.getLsbD (j + n) else data.getLsbD (j + n - w) := by
  induction n generalizing reg data with
  | zero => simp [feed, isIn]
  | succ n ih =>
    have next (i : Nat) (before : i < n) : (shift poly reg (data.getLsbD 0)).getLsbD i = false := by
      rw [getLsbD_shift _ _ (by omega), clear 0 (by omega), if_neg (by omega), clear (i + 1) (by omega)]
      rfl
    rw [feed, ih (by omega) next]
    split_ifs with old newer last
    · rw [getLsbD_shift _ _ old, clear 0 (by omega), if_neg (by omega)]
      simp [Nat.add_assoc]
    · rw [getLsbD_shift _ _ old, clear 0 (by omega), if_pos (by omega)]
      simp [show j + (n + 1) - w = 0 by omega]
    · omega
    · rw [getLsbD_ushiftRight]
      congr 1
      omega

end ShiftRegister
