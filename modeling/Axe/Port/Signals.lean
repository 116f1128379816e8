import Axe.Port.EdgeFrames
import Mathlib.Algebra.Order.Interval.Finset.SuccPred
import Mathlib.Data.Nat.SuccPred
import Mathlib.Order.Interval.Finset.Nat

/-! The edges of a signal, against the waveform that `getValue` gives. -/

namespace Axe

open Edge (EdgeType)

namespace Signal

def Changes (sig : Signal) (time : Nat) : Prop :=
  sig.getValue time ≠ sig.getValue (time - 1)

instance (sig : Signal) : DecidablePred sig.Changes :=
  fun time => inferInstanceAs (Decidable (sig.getValue time ≠ sig.getValue (time - 1)))

/-- How often the value changes after the time `t`, up to the time `u`. -/
def numChanges (sig : Signal) (t u : Nat) : Nat := ((Finset.Ioc t u).filter sig.Changes).card

/-- The course of a signal that has the value `initial` at the time `t` and flips every `h` from then on. -/
def Runs (sig : Signal) (t h initial : Nat) : Prop :=
  ∀ n, t + n < 2 ^ 64 → sig.getValue (t + n) = (n / h + initial) % 2

lemma Runs.changes_iff {sig : Signal} {t h init time : Nat} (course : sig.Runs t h init)
    (later : t < time) (fits : time < 2 ^ 64) : sig.Changes time ↔ h ∣ time - t := by
  obtain ⟨k, rfl⟩ := Nat.exists_eq_add_of_lt later
  rw [Changes, Nat.add_sub_cancel, course k (by omega), Nat.add_assoc, course (k + 1) (by omega),
    Nat.add_sub_cancel_left, Nat.succ_div]
  split
  case isTrue divides => simpa [divides] using by omega
  case isFalse stays => simpa using stays

section

variable {sig : Signal} (clock : 0 < sig.halfPeriod)
include clock

lemma getValue_of_started {time : Nat} (started : sig.value ≤ time) (fits : time < 2 ^ 64) :
    sig.getValue time = (time - sig.value) / sig.halfPeriod % 2 := by
  rw [getValue, if_neg clock.ne', show time + 2 ^ 64 - sig.value = time - sig.value + 2 ^ 64 by omega,
    Nat.add_mod_right, Nat.mod_eq_of_lt (show time - sig.value < 2 ^ 64 by omega)]

lemma changes_iff_dvd {time : Nat} (started : sig.value < time) (fits : time < 2 ^ 64) :
    sig.Changes time ↔ sig.halfPeriod ∣ time - sig.value := by
  have course : sig.Runs sig.value sig.halfPeriod 0 := fun n fits => by
    rw [getValue_of_started clock (Nat.le_add_right ..) fits, Nat.add_sub_cancel_left, Nat.add_zero]
  exact course.changes_iff started fits

lemma div_add_numChanges {t : Nat} (started : sig.value ≤ t) (n : Nat) (fits : t + n < 2 ^ 64) :
    (t - sig.value) / sig.halfPeriod + sig.numChanges t (t + n) =
      (t + n - sig.value) / sig.halfPeriod := by
  induction n with
  | zero => simp [numChanges]
  | succ n ih =>
    have step : t + (n + 1) - sig.value = t + n - sig.value + 1 := by omega
    rw [step, Nat.succ_div, ← step, ← ih (by omega), numChanges, numChanges, ← Nat.add_assoc t n 1,
      ← Finset.insert_Ioc_right_eq_Ioc_add_one (Nat.le_add_right t n), Finset.filter_insert]
    have last := changes_iff_dvd clock (show sig.value < t + n + 1 by omega) (by omega)
    split
    case isTrue changes =>
      rw [if_pos (last.1 changes), Finset.card_insert_of_notMem (by simp)]
      omega
    case isFalse stays => rw [if_neg fun divides => stays (last.2 divides)]; rfl

lemma numChanges_eq {t u : Nat} (started : sig.value ≤ t) (later : t ≤ u) (fits : u < 2 ^ 64) :
    sig.numChanges t u = (u - sig.value) / sig.halfPeriod - (t - sig.value) / sig.halfPeriod := by
  obtain ⟨n, rfl⟩ := Nat.exists_eq_add_of_le later
  have := div_add_numChanges clock started n fits
  omega

end

lemma iterate_next (edge : EdgeIterator) (n : Nat) : EdgeIterator.next^[n] edge = edge.add n := by
  induction n with
  | zero => exact edge.add_zero.symm
  | succ n ih => rw [Function.iterate_succ_apply', ih, edge.add_succ]

section

variable (sig : Signal) (t n : Nat)

lemma add_time_getEdgeIterator : ((sig.getEdgeIterator t).add n).time =
      sig.value + (1 + (t - sig.value) / sig.halfPeriod + n) * sig.halfPeriod := by
  rw [EdgeIterator.add, getEdgeIterator, getNextEdge, Nat.add_mul _ n, Nat.mul_comm n, Nat.add_assoc]

lemma add_type_getEdgeIterator : ((sig.getEdgeIterator t).add n).type = .rising ↔
      (1 + (t - sig.value) / sig.halfPeriod + n) % 2 = 1 := by
  simp only [EdgeIterator.add, getEdgeIterator, getNextEdge]
  split <;> split <;> simp only [Edge.flip, reduceCtorEq, false_iff, true_iff] <;> omega

/-- The edge is the change of the value that comes `n` changes after the next one. -/
structure IsChange (edge : EdgeIterator) : Prop where
  changes : sig.Changes edge.time
  later : t < edge.time
  number : sig.numChanges t edge.time = n + 1
  rising : edge.type = .rising ↔ sig.getValue edge.time = 1

end

section

variable {sig : Signal} (clock : 0 < sig.halfPeriod) {t : Nat} (started : sig.value ≤ t)
include clock started

lemma isChange_add (n : Nat) (fits : ((sig.getEdgeIterator t).add n).time < 2 ^ 64) :
    sig.IsChange t n ((sig.getEdgeIterator t).add n) := by
  have time := sig.add_time_getEdgeIterator t n
  have type := sig.add_type_getEdgeIterator t n
  set edge := (sig.getEdgeIterator t).add n
  set past := (t - sig.value) / sig.halfPeriod with pastEq
  have phase : edge.time - sig.value = (1 + past + n) * sig.halfPeriod := by omega
  have number : (edge.time - sig.value) / sig.halfPeriod = 1 + past + n := by
    rw [phase, Nat.mul_div_cancel _ clock]
  have later : t < edge.time := by
    have less : t - sig.value < (1 + past + n) * sig.halfPeriod :=
      Nat.lt_mul_of_div_lt (by omega) clock
    omega
  refine ⟨(changes_iff_dvd clock (by omega) fits).2 ⟨_, phase.trans (Nat.mul_comm ..)⟩, later, ?_, ?_⟩
  · rw [numChanges_eq clock started later.le fits, number, ← pastEq]
    omega
  · rw [type, getValue_of_started clock (by omega) fits, number]

lemma getNextEdge_isLeast (fits : (sig.getNextEdge t).time < 2 ^ 64) :
    IsLeast {time | t < time ∧ sig.Changes time} (sig.getNextEdge t).time := by
  have upd := isChange_add clock started 0
  rw [EdgeIterator.add_zero] at upd
  refine ⟨⟨(upd fits).later, (upd fits).changes⟩, fun time ⟨later, changes⟩ => ?_⟩
  by_contra earlier
  obtain ⟨k, phase⟩ := (changes_iff_dvd clock (by omega) (by omega)).1 changes
  have past : (t - sig.value) / sig.halfPeriod < k := Nat.div_lt_of_lt_mul (by omega)
  have upTo : (1 + (t - sig.value) / sig.halfPeriod) * sig.halfPeriod ≤ k * sig.halfPeriod :=
    Nat.mul_le_mul_right _ (by omega)
  rw [Nat.mul_comm] at phase
  exact earlier (by simp only [getNextEdge]; omega)

/-- The closed forms for the edges of a clock find the changes of its value. -/
theorem edges_are_changes : ((sig.getNextEdge t).time < 2 ^ 64 →
      IsLeast {time | t < time ∧ sig.Changes time} (sig.getNextEdge t).time ∧
        ((sig.getNextEdge t).type = .rising ↔ sig.getValue (sig.getNextEdge t).time = 1)) ∧
    (∀ n, (sig.getEdgeIterator t).add n = EdgeIterator.next^[n] (sig.getEdgeIterator t) ∧
      (((sig.getEdgeIterator t).add n).time < 2 ^ 64 → sig.IsChange t n ((sig.getEdgeIterator t).add n))) ∧
    ∀ u, t ≤ u → (sig.getEdgeIterator u).time < 2 ^ 64 →
      (sig.getEdgeIterator u).sub (sig.getEdgeIterator t) = sig.numChanges t u := by
  refine ⟨fun fits => ⟨getNextEdge_isLeast clock started fits, ?_⟩,
    fun n => ⟨(iterate_next _ n).symm, isChange_add clock started n⟩, fun u later fits => ?_⟩
  · have change := isChange_add clock started 0
    rw [EdgeIterator.add_zero] at change
    exact (change fits).rising
  · have change := isChange_add clock (started.trans later) 0
    rw [EdgeIterator.add_zero] at change
    rw [numChanges_eq clock started later ((change fits).later.trans fits), EdgeIterator.sub, getEdgeIterator,
      getEdgeIterator, getNextEdge, getNextEdge]
    rw [Nat.add_sub_add_left, ← Nat.sub_mul, Nat.mul_div_cancel _ clock, Nat.add_sub_add_left]

end

theorem fourth_edge_is_change : (Signal.mk 4 2).IsChange 5 3 (((Signal.mk 4 2).getEdgeIterator 5).add 3) :=
  ((edges_are_changes (by decide) (by decide)).2.1 3).2 (by decide)

end Signal
end Axe
