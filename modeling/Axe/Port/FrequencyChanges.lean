import Axe.Port.Signals
import Mathlib.Data.Nat.Prime.Basic

/-! Changes of the frequency of a signal: the phase is kept modulo the new period, in 32 bits. -/

namespace Axe
namespace Signal

/-- The signal goes on with the value it had at the time, changes next after the half period and every half
period after that. -/
structure Restarts (pre post : Signal) (t h : Nat) : Prop where
  value : post.getValue t = pre.getValue t
  changes : 0 < h → t + h < 2 ^ 64 ∧ ∀ time, t < time → time < 2 ^ 64 → (post.Changes time ↔ h ∣ time - t)

def changeFrequency (sig : Signal) (time halfPeriod : Nat) : Option Signal :=
  -- There is no return after the assignment for a half period of zero; the period is a word.
  let start := if sig.getValue time ≠ 0 then (time + halfPeriod) % 2 ^ 64 else time
  let period := halfPeriod * 2 % 2 ^ 32
  if period = 0 then none else some { halfPeriod := halfPeriod, value := start % period }

variable {sig : Signal}

lemma getValue_le_one (clock : 0 < sig.halfPeriod) (time : Nat) : sig.getValue time ≤ 1 := by
  rw [getValue, if_neg clock.ne']
  omega

lemma runs_of_changes {t h : Nat} (clock : 0 < sig.halfPeriod)
    (changes : ∀ time, t < time → time < 2 ^ 64 → (sig.Changes time ↔ h ∣ time - t)) :
    sig.Runs t h (sig.getValue t) := by
  intro n fits
  have bound := getValue_le_one clock
  induction n with
  | zero => simpa using (Nat.mod_eq_of_lt (Nat.lt_succ_of_le (bound t))).symm
  | succ n ih =>
    have step := changes (t + (n + 1)) (by omega) fits
    have less := bound (t + (n + 1))
    have prior : t + (n + 1) - 1 = t + n := by omega
    rw [Changes, prior, ih (by omega), Nat.add_sub_cancel_left] at step
    rw [Nat.succ_div]
    split
    case isTrue divides => have := step.2 divides; omega
    case isFalse stays => have := mt step.1 stays; omega

lemma dvd_of_odd {h : Nat} (odd : (2 ^ 64 - h) / h % 2 = 1) (odd' : (2 ^ 64 - 1) / h % 2 = 1) : h ∣ 2 ^ 64 := by
  have last : 2 ^ 64 / h = (2 ^ 64 - 1) / h + if h ∣ 2 ^ 64 then 1 else 0 := Nat.succ_div
  have first : (2 ^ 64 - h * 1) / h = 2 ^ 64 / h - 1 := Nat.sub_mul_div ..
  rw [Nat.mul_one] at first
  by_contra part
  rw [if_neg part] at last
  omega

lemma period_dvd {h : Nat} (divides : h ∣ 2 ^ 64) (word : h < 2 ^ 32) : h * 2 ∣ 2 ^ 32 := by
  obtain ⟨k, -, rfl⟩ := (Nat.dvd_prime_pow Nat.prime_two).1 divides
  have : k < 32 := (Nat.pow_lt_pow_iff_right (by decide)).1 word
  exact Nat.pow_dvd_pow 2 this

section

variable {h w t : Nat} (pos : 0 < h)
include pos

lemma getValue_before {time : Nat} (begun : time < w) (fits : w < 2 ^ 64) :
    (mk h w).getValue time = (2 ^ 64 - (w - time)) / h % 2 := by
  have ago : (time + 2 ^ 64 - w) % 2 ^ 64 = 2 ^ 64 - (w - time) := by omega
  simp only [getValue, pos.ne', if_false, ago]

/-- With such a half period it does not matter that the time before the phase wraps around. -/
lemma getValue_of_dvd {time : Nat} (divides : h ∣ 2 ^ 64) (word : h < 2 ^ 32) :
    (mk h w).getValue time = (time + 2 ^ 64 - w) / h % 2 := by
  obtain ⟨k, whole⟩ := period_dvd divides word
  have wraps : 2 ^ 64 = h * (2 * (k * 2 ^ 32)) := by
    rw [← Nat.mul_assoc, ← Nat.mul_assoc, ← whole]
    rfl
  have split := Nat.mod_add_div (time + 2 ^ 64 - w) (2 ^ 64)
  simp only [getValue, pos.ne', if_false]
  conv_rhs => rw [← split, wraps, Nat.mul_assoc h, Nat.add_mul_div_left _ _ pos, Nat.mul_assoc 2,
    Nat.add_mul_mod_self_left, ← wraps]

/-- A clock that has started runs as it should if its phase is a number of whole periods back. -/
lemma runs_iff_of_started {init : Nat} (begun : w ≤ t) (bound : init ≤ 1) (fits : t + h < 2 ^ 64) :
    (mk h w).Runs t h init ↔ 2 * h ∣ t + init * h - w := by
  have value (n : Nat) (fits : t + n < 2 ^ 64) : (mk h w).getValue (t + n) = (t - w + n) / h % 2 := by
    rw [getValue_of_started pos (by dsimp only; omega) fits]
    rw [Nat.sub_add_comm begun]
  constructor
  · intro course
    have now := course 0 (by omega)
    rw [value 0 (by omega)] at now
    have next : (mk h w).Changes (t + h) :=
      (course.changes_iff (by omega) fits).2 (Nat.add_sub_cancel_left .. ▸ Nat.dvd_refl h)
    have whole : h ∣ t + h - w := (changes_iff_dvd pos (by dsimp only; omega) fits).1 next
    rw [Nat.sub_add_comm begun, Nat.dvd_add_self_right] at whole
    obtain ⟨k, phase⟩ := whole
    rw [Nat.add_zero, phase, Nat.mul_div_cancel_left _ pos, Nat.zero_div] at now
    refine ⟨(k + init) / 2, ?_⟩
    have even : k + init = 2 * ((k + init) / 2) := by omega
    rw [show t + init * h - w = t - w + init * h by omega, phase, Nat.mul_comm init, ← Nat.mul_add,
      Nat.mul_comm 2, Nat.mul_assoc, ← even]
  · rintro ⟨k, phase⟩ n fits
    have back : t - w + n = n + h * (2 * k - init) := by
      rw [Nat.mul_sub, ← Nat.mul_assoc, Nat.mul_comm h 2, ← phase, Nat.mul_comm h]
      omega
    have enough : init ≤ 2 * k := by
      by_contra few
      have : k = 0 := by omega
      subst this
      rw [Nat.mul_zero] at phase
      have : init * h = h := by rw [show init = 1 by omega, Nat.one_mul]
      omega
    rw [value n fits, back, Nat.add_mul_div_left _ _ pos]
    omega

lemma runs_iff_of_not_started (early : t < w) (near : w ≤ t + h) (fits : t + h < 2 ^ 64) (word : h < 2 ^ 32) :
    (mk h w).Runs t h 1 ↔ w = t + h ∧ h ∣ 2 ^ 64 := by
  constructor
  · intro course
    have atPhase := course (w - t) (by omega)
    rw [Nat.add_sub_cancel' early.le, getValue_of_started pos (Nat.le_refl w) (by omega)] at atPhase
    have whole : w = t + h := by
      by_contra part
      rw [Nat.div_eq_of_lt (by omega : w - t < h)] at atPhase
      simp at atPhase
    subst whole
    refine ⟨rfl, dvd_of_odd ?_ ?_⟩
    · have first := course 0 (by omega)
      rwa [getValue_before pos (by omega) fits, Nat.add_zero, Nat.add_sub_cancel_left, Nat.zero_div] at first
    · have last := course (h - 1) (by omega)
      rwa [getValue_before pos (by omega) fits, Nat.div_eq_of_lt (by omega : h - 1 < h),
        show t + h - (t + (h - 1)) = 1 by omega] at last
  · rintro ⟨rfl, divides⟩ n fits
    obtain ⟨k, whole⟩ := period_dvd divides word
    have back : t + n + 2 ^ 64 - (t + h) = n + h * (2 * (k * 2 ^ 32) - 1) := by
      rw [Nat.mul_sub, ← Nat.mul_assoc, ← Nat.mul_assoc, ← whole]
      omega
    have : 0 < k := Nat.pos_of_ne_zero fun none => by simp [none] at whole
    rw [getValue_of_dvd pos divides word, back, Nat.add_mul_div_left _ _ pos]
    omega

end

lemma flip_getValue (fits : sig.halfPeriod = 0 ∨ sig.halfPeriod ∣ 2 ^ 64) (word : sig.halfPeriod < 2 ^ 32)
    (valueWord : sig.value < 2 ^ 32) (time : Nat) :
    sig.flipLeastSignificantBit.getValue time = sig.getValue time ^^^ 1 := by
  obtain ⟨h, v⟩ := sig
  dsimp only at fits word valueWord
  by_cases pos : 0 < h
  case neg => simp [flipLeastSignificantBit, getValue, show h = 0 by omega]
  have divides : h ∣ 2 ^ 64 := fits.resolve_left pos.ne'
  obtain ⟨k, whole⟩ := period_dvd divides word
  have flipped : (mk h v).flipLeastSignificantBit = mk h ((v + h) % 2 ^ 32) := by
    simp [flipLeastSignificantBit, pos.ne']
  have less := Nat.mod_lt (v + h) (Nat.two_pow_pos 32)
  have shift : time + 2 ^ 64 - (v + h) % 2 ^ 32 + h * 1 = time + 2 ^ 64 - v + h * (2 * (k * ((v + h) / 2 ^ 32))) := by
    rw [← Nat.mul_assoc, ← Nat.mul_assoc, ← whole]
    have := Nat.mod_add_div (v + h) (2 ^ 32)
    omega
  have halves := congrArg (· / h) shift
  simp only [Nat.add_mul_div_left _ _ pos] at halves
  rw [flipped, getValue_of_dvd pos divides word, getValue_of_dvd pos divides word]
  rcases Nat.mod_two_eq_zero_or_one ((time + 2 ^ 64 - v) / h) with even | odd
  · rw [even, show (time + 2 ^ 64 - (v + h) % 2 ^ 32) / h % 2 = 1 by omega]; rfl
  · rw [odd, show (time + 2 ^ 64 - (v + h) % 2 ^ 32) / h % 2 = 0 by omega]; rfl

lemma dvd_of_same_values {h lo hi : Nat} (pos : 0 < h) (word : h < 2 ^ 32) (less : lo < hi) (upper : hi < 2 ^ 32)
    (same : ∀ time < 2 ^ 64, (mk h lo).getValue time = (mk h hi).getValue time) : h ∣ 2 ^ 64 := by
  have course : (mk h lo).Runs hi h 0 := fun n fits => by
    rw [same _ fits, getValue_of_started pos (Nat.le_add_right ..) fits, Nat.add_sub_cancel_left, Nat.add_zero]
  obtain ⟨k, periods⟩ := (runs_iff_of_started pos less.le (by decide) (by omega)).1 course
  rw [Nat.zero_mul, Nat.add_zero] at periods
  obtain ⟨j, rfl⟩ := Nat.exists_eq_succ_of_ne_zero (n := k) fun none => by simp [none] at periods; omega
  rw [Nat.mul_succ, Nat.mul_comm 2 h, Nat.mul_assoc] at periods
  -- The half period before the later phase is a high one of the clock with the earlier phase.
  have high {y : Nat} (some : 0 < y) (upTo : y ≤ h) : (2 ^ 64 - y) / h % 2 = 1 := by
    have pre := same (hi - y) (by omega)
    have back : hi - y - lo = h - y + h * (2 * j + 1) := by rw [Nat.mul_succ]; omega
    rw [getValue_before (w := hi) pos (by omega) (by omega), getValue_of_started pos (by dsimp only; omega) (by omega),
      Nat.sub_sub_self (by omega)] at pre
    rw [← pre, back, Nat.add_mul_div_left _ _ pos, Nat.div_eq_of_lt (by omega)]
    omega
  exact dvd_of_odd (high pos (Nat.le_refl h)) (high Nat.one_pos pos)

def start (sig : Signal) : Nat := if sig.isClock then sig.value else 0

/-- The laws of changes of the frequency and of inversions. -/
structure ChangesRight (sig : Signal) (t h : Nat) : Prop where
  restarts : ∃ post, sig.changeFrequency t h = some post ∧ sig.Restarts post t h
  flip : ∀ time < 2 ^ 64, sig.flipLeastSignificantBit.start ≤ time →
    sig.flipLeastSignificantBit.getValue time = sig.getValue time ^^^ 1
  flip_flip : ∀ time < 2 ^ 64,
    sig.flipLeastSignificantBit.flipLeastSignificantBit.getValue time = sig.getValue time

/-- The signal is 0 or 1, the period is no multiple of 2^32 and the next change is in time; whole periods are taken
off the time for the phase, and a phase that is later than the time does not matter. -/
structure ChangeFits (sig : Signal) (t h : Nat) : Prop where
  bit : sig.getValue t ≤ 1
  period : h * 2 % 2 ^ 32 ≠ 0
  inTime : t + h < 2 ^ 64
  whole : 2 * h ∣ t + sig.getValue t * h - (t + sig.getValue t * h) % (h * 2 % 2 ^ 32)
  late : sig.getValue t = 1 → t + h < h * 2 % 2 ^ 32 → h ∣ 2 ^ 64
  flips : sig.halfPeriod = 0 ∨ sig.halfPeriod ∣ 2 ^ 64

lemma restarts_iff_runs {pre post : Signal} {t h : Nat} (clock : 0 < post.halfPeriod) (pos : 0 < h)
    (fits : t + h < 2 ^ 64) :
    pre.Restarts post t h ↔ pre.getValue t ≤ 1 ∧ post.Runs t h (pre.getValue t) := by
  constructor
  · rintro ⟨value, changes⟩
    exact ⟨value ▸ getValue_le_one clock t, value ▸ runs_of_changes clock (changes pos).2⟩
  · rintro ⟨bit, course⟩
    refine ⟨?_, fun _ => ⟨fits, fun time => course.changes_iff⟩⟩
    have now := course 0 (by omega)
    rwa [Nat.add_zero, Nat.zero_div, Nat.zero_add, Nat.mod_eq_of_lt (by omega)] at now

lemma flips_back_iff (word : sig.halfPeriod < 2 ^ 32) (valueWord : sig.value < 2 ^ 32) :
    (∀ time < 2 ^ 64, sig.flipLeastSignificantBit.flipLeastSignificantBit.getValue time = sig.getValue time) ↔
      sig.halfPeriod = 0 ∨ sig.halfPeriod ∣ 2 ^ 64 := by
  constructor
  · intro same
    obtain ⟨h, v⟩ := sig
    dsimp only at word valueWord
    by_cases pos : 0 < h
    case neg => exact .inl (Nat.eq_zero_of_not_pos pos)
    simp only [flipLeastSignificantBit, pos.ne', if_false] at same
    rcases Nat.lt_trichotomy v (((v + h) % 2 ^ 32 + h) % 2 ^ 32) with later | equal | prior
    · exact .inr (dvd_of_same_values pos word later (Nat.mod_lt _ (by decide)) fun time fits => (same time fits).symm)
    · obtain rfl : h = 2 ^ 31 := by omega
      exact .inr (Nat.pow_dvd_pow 2 (by decide))
    · exact .inr (dvd_of_same_values pos word prior valueWord same)
  · intro fits time _
    have same : sig.flipLeastSignificantBit.halfPeriod = sig.halfPeriod := by
      rw [flipLeastSignificantBit]; split <;> rfl
    have less : sig.flipLeastSignificantBit.value < 2 ^ 32 := by
      rw [flipLeastSignificantBit]
      split
      · exact Nat.xor_lt_two_pow valueWord (by decide)
      · exact Nat.mod_lt _ (by decide)
    rw [flip_getValue (same ▸ fits) (same ▸ word) less, flip_getValue fits word valueWord, Nat.xor_assoc]
    exact Nat.xor_zero _

/-- The phase of the new clock leaves the course as it has to be. -/
lemma runs_phase_iff {t h init p : Nat} (pos : 0 < h) (word : h < 2 ^ 32) (some : p ≠ 0)
    (bit : init ≤ 1) (fits : t + h < 2 ^ 64) : (mk h ((t + init * h) % p)).Runs t h init ↔
      2 * h ∣ t + init * h - (t + init * h) % p ∧ (init = 1 → t + h < p → h ∣ 2 ^ 64) := by
  by_cases started : (t + init * h) % p ≤ t
  · rw [runs_iff_of_started pos started bit fits, iff_self_and]
    rintro - rfl below
    rw [Nat.one_mul, Nat.mod_eq_of_lt below] at started
    omega
  · have one : init = 1 := by
      by_contra zero
      have := Nat.mod_le (t + init * h) p
      rw [show init = 0 by omega, Nat.zero_mul] at this started
      omega
    subst one
    rw [Nat.one_mul] at started ⊢
    have upTo := Nat.mod_le (t + h) p
    rw [runs_iff_of_not_started pos (by omega) upTo fits word]
    constructor
    · rintro ⟨phase, divides⟩
      rw [phase, Nat.sub_self]
      exact ⟨Nat.dvd_zero _, fun _ _ => divides⟩
    · rintro ⟨whole, late⟩
      have phase : (t + h) % p = t + h := by
        have := Nat.eq_zero_of_dvd_of_lt whole (by omega)
        omega
      exact ⟨phase, late rfl (phase ▸ Nat.mod_lt _ (Nat.pos_of_ne_zero some))⟩

theorem changesRight_iff (sig : Signal) (t h : Nat) (word : sig.halfPeriod < 2 ^ 32) (valueWord : sig.value < 2 ^ 32)
    (newWord : h < 2 ^ 32) : sig.ChangesRight t h ↔ sig.ChangeFits t h := by
  have starts (fits : t + h < 2 ^ 64) (bit : sig.getValue t ≤ 1) :
      (if sig.getValue t ≠ 0 then (t + h) % 2 ^ 64 else t) = t + sig.getValue t * h := by
    split
    · rw [show sig.getValue t = 1 by omega, Nat.one_mul, Nat.mod_eq_of_lt fits]
    · rw [show sig.getValue t = 0 by omega, Nat.zero_mul, Nat.add_zero]
  constructor
  · rintro ⟨⟨post, changed, restarts⟩, -, back⟩
    simp only [changeFrequency] at changed
    split at changed
    case isTrue => nomatch changed
    case isFalse some =>
      have pos : 0 < h := Nat.pos_of_ne_zero fun zero => some (by rw [zero]; rfl)
      have fits := (restarts.changes pos).1
      cases changed
      obtain ⟨bit, course⟩ := (restarts_iff_runs pos pos fits).1 restarts
      rw [starts fits bit] at course
      obtain ⟨whole, late⟩ := (runs_phase_iff pos newWord some bit fits).1 course
      exact ⟨bit, some, fits, whole, late, (flips_back_iff word valueWord).1 back⟩
  · rintro ⟨bit, some, fits, whole, late, flips⟩
    have pos : 0 < h := Nat.pos_of_ne_zero fun zero => some (by rw [zero]; rfl)
    refine ⟨⟨_, if_neg some, (restarts_iff_runs pos pos fits).2 ⟨bit, ?_⟩⟩,
      fun time _ _ => flip_getValue flips word valueWord time, (flips_back_iff word valueWord).2 flips⟩
    rw [starts fits bit]
    exact (runs_phase_iff pos newWord some bit fits).2 ⟨whole, late⟩

/-- A clock block whose source pin is high is set to the reference clock, divided by six. -/
theorem phase_too_late : ¬ (mk 0 1).ChangesRight 4 12 := fun right => by
  obtain ⟨post, changed, restarts⟩ := right.restarts
  obtain rfl : mk 12 16 = post := Option.some.inj changed
  exact absurd restarts.value (by decide)

theorem change_in_time : (mk 0 1).ChangesRight 100 12 :=
  (changesRight_iff _ 100 12 (by decide) (by decide) (by decide)).2
    ⟨by decide, by decide, by decide, by decide, by decide, .inl rfl⟩

end Signal
end Axe
