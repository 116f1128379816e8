import Axe.System.Clocks
import Mathlib.Data.BitVec

/-! When a timer becomes ready. Its condition compares 32-bit tick counts around the clock, and
the time to wait is computed with 32-bit numbers of cycles. -/

namespace Axe

open BitVec

namespace Timer

def ticksToGo (timer : Timer) (time : Nat) : Nat := (timer.data + 1 - ticks time).toNat

/-- The time that `getEarliestReadyTime` returns is later and the condition is met then, but in no earlier tick. -/
structure EarliestReady (timer : Timer) (time : Nat) : Prop where
  later : time < timer.getEarliestReadyTime time
  met : timer.conditionMet (timer.getEarliestReadyTime time) = true
  first : ∀ prior, time ≤ prior → prior < timer.getEarliestReadyTime time →
    prior / cyclesPerTick < timer.getEarliestReadyTime time / cyclesPerTick → timer.conditionMet prior = false

def MetSoon (timer : Timer) (time : Nat) : Prop :=
  ∃ later < 2 ^ 64, time ≤ later ∧ later / cyclesPerTick ≤ time / cyclesPerTick + 2 ^ 31 ∧
    timer.conditionMet later = true

variable {timer : Timer} {time : Nat}

lemma ticks_toNat (time : Nat) : (ticks time).toNat = time / cyclesPerTick % 2 ^ 32 := toNat_ofNat _ _

lemma ticksToGo_eq (timer : Timer) (time : Nat) :
    timer.ticksToGo time = (timer.data.toNat + 1 + (2 ^ 32 - time / cyclesPerTick % 2 ^ 32)) % 2 ^ 32 := by
  have one : (1 : BitVec 32).toNat = 1 := rfl
  rw [ticksToGo, toNat_sub, toNat_add, ticks_toNat, one]
  omega

lemma toInt_pos_iff (value : BitVec 32) : 0 < value.toInt ↔ 0 < value.toNat ∧ value.toNat < 2 ^ 31 := by
  have small := value.isLt
  rw [toInt_eq_toNat_cond]
  split <;> omega

/-- The condition is not met from 2^31 + 1 ticks before the one after the data on. -/
lemma conditionMet_iff (after : timer.after = true) :
    timer.conditionMet time = true ↔ timer.ticksToGo time = 0 ∨ 2 ^ 31 + 1 < timer.ticksToGo time := by
  have data := timer.data.isLt
  rw [conditionMet, after, ticksToGo_eq]
  simp only [Bool.not_true, Bool.false_or, decide_eq_true_eq, toInt_pos_iff, toNat_sub, ticks_toNat]
  omega

section

variable (pending : timer.conditionMet time = false)
include pending

lemma after_of_not_met : timer.after = true := by
  by_contra full
  rw [conditionMet, Bool.eq_false_iff.mpr full] at pending
  cases pending

lemma ticksToGo_of_not_met : 1 ≤ timer.ticksToGo time ∧ timer.ticksToGo time ≤ 2 ^ 31 + 1 := by
  have after := after_of_not_met pending
  rw [← Bool.not_eq_true, conditionMet_iff after] at pending
  omega

lemma conditionMet_later (few : timer.ticksToGo time ≤ 2 ^ 31)
    {later : Nat} (ahead : time / cyclesPerTick ≤ later / cyclesPerTick)
    (near : later / cyclesPerTick < time / cyclesPerTick + 2 ^ 31) :
    timer.conditionMet later = true ↔ time / cyclesPerTick + timer.ticksToGo time ≤ later / cyclesPerTick := by
  have some := (ticksToGo_of_not_met pending).1
  rw [conditionMet_iff (after_of_not_met pending)]
  rw [ticksToGo_eq] at few some ⊢
  rw [ticksToGo_eq]
  omega

lemma getEarliestReadyTime_eq (word : time < 2 ^ 64) : timer.getEarliestReadyTime time =
      (time + (timer.ticksToGo time * 4 % 2 ^ 32 +
        if 2 ^ 31 ≤ timer.ticksToGo time * 4 % 2 ^ 32 then 2 ^ 64 - 2 ^ 32 else 0)) % 2 ^ 64 := by
  have cycles : ((timer.data + 1 - ticks time) * BitVec.ofNat 32 cyclesPerTick).toNat =
      timer.ticksToGo time * 4 % 2 ^ 32 := toNat_mul _ _
  rw [getEarliestReadyTime, pending, if_neg Bool.false_ne_true]
  rw [toNat_add, toNat_ofNat, Nat.mod_eq_of_lt word, toNat_signExtend, toNat_setWidth,
    msb_eq_decide, cycles]
  simp only [decide_eq_true_eq]
  split <;> omega

/-- With fewer than 2^29 ticks to go the cycles to wait fit in a signed number. -/
lemma getEarliestReadyTime_of_few (few : timer.ticksToGo time < 2 ^ 29)
    (room : time + timer.ticksToGo time * cyclesPerTick < 2 ^ 64) :
    timer.getEarliestReadyTime time = time + timer.ticksToGo time * cyclesPerTick := by
  unfold cyclesPerTick at room ⊢
  rw [getEarliestReadyTime_eq pending (by omega), if_neg (by omega)]
  omega

lemma not_met_of_many (word : time < 2 ^ 64)
    (many : 2 ^ 29 ≤ timer.ticksToGo time) (atMost : timer.ticksToGo time ≤ 2 ^ 31) :
    timer.conditionMet (timer.getEarliestReadyTime time) = false := by
  rw [Bool.eq_false_iff, ne_eq, conditionMet_iff (after_of_not_met pending), getEarliestReadyTime_eq pending word,
    ticksToGo_eq _ (_ % 2 ^ 64)]
  have go := timer.ticksToGo_eq time
  unfold cyclesPerTick at go ⊢
  split <;> omega

lemma ticksToGo_of_metSoon (soon : timer.MetSoon time) :
    timer.ticksToGo time ≤ 2 ^ 31 ∧ time + timer.ticksToGo time * cyclesPerTick < 2 ^ 64 := by
  obtain ⟨later, word, ahead, near, met⟩ := soon
  have bds := ticksToGo_of_not_met pending
  rw [conditionMet_iff (after_of_not_met pending)] at met
  rw [ticksToGo_eq] at met bds ⊢
  unfold cyclesPerTick at *
  omega

end

theorem earliestReady_iff (word : time < 2 ^ 64) (pending : timer.conditionMet time = false)
    (soon : timer.MetSoon time) : timer.EarliestReady time ↔ timer.ticksToGo time < 2 ^ 29 := by
  obtain ⟨atMost, room⟩ := ticksToGo_of_metSoon pending soon
  constructor
  · intro ready
    by_contra many
    have unmet := not_met_of_many pending word (Nat.not_lt.mp many) atMost
    rw [ready.met] at unmet
    cases unmet
  · intro few
    have some := (ticksToGo_of_not_met pending).1
    have ready := getEarliestReadyTime_of_few pending few room
    have tick : timer.getEarliestReadyTime time / cyclesPerTick = time / cyclesPerTick + timer.ticksToGo time := by
      rw [ready, Nat.add_mul_div_right _ _ (by decide)]
    refine ⟨?_, ?_, ?_⟩
    · rw [ready]
      unfold cyclesPerTick
      omega
    · rw [conditionMet_later pending atMost (by omega) (by omega)]
      omega
    · intro prior since _ before
      have ahead : time / cyclesPerTick ≤ prior / cyclesPerTick := Nat.div_le_div_right since
      rw [Bool.eq_false_iff, ne_eq, conditionMet_later pending atMost ahead (by omega)]
      omega

/-- A wait for ten ticks. -/
theorem earliestReady_ten : let timer : Timer := { after := true, data := 9 }
    timer.conditionMet 3 = false ∧ timer.MetSoon 3 ∧ timer.EarliestReady 3 := by
  intro timer
  have pending : timer.conditionMet 3 = false := by decide
  have soon : timer.MetSoon 3 := ⟨43, by decide, by decide, by decide, by decide⟩
  exact ⟨pending, soon, (earliestReady_iff (by decide) pending soon).mpr (by decide)⟩

/-- A wait for 2^29 ticks, of ten nanoseconds each: the number of cycles is negative, and the wake-up would be almost
2^64 cycles later, in a tick that is not after the data. -/
theorem long_wait_lost : let timer : Timer := { after := true, data := 2 ^ 29 - 1 }
    timer.conditionMet 0 = false ∧ timer.MetSoon 0 ∧ timer.getEarliestReadyTime 0 = 2 ^ 64 - 2 ^ 31 ∧
      timer.conditionMet (2 ^ 64 - 2 ^ 31) = false ∧ ¬timer.EarliestReady 0 := by
  intro timer
  have lost : timer.getEarliestReadyTime 0 = 2 ^ 64 - 2 ^ 31 := by decide
  have unmet : timer.conditionMet (2 ^ 64 - 2 ^ 31) = false := by decide
  refine ⟨by decide, ⟨2 ^ 31, by decide, by decide, by decide, by decide⟩, lost, unmet, fun ready => ?_⟩
  have met := ready.met
  rw [lost, unmet] at met
  cases met

end Timer

end Axe
