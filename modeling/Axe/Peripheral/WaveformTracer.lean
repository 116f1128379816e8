import Mathlib.Data.Nat.Digits.Lemmas

/-! The identifier codes of the ports in a VCD file: the index of the port in base 94, the least
significant digit first. -/

namespace Axe.WaveformTracer

def offset : Nat := '!'.toNat

def base : Nat := '~'.toNat - '!'.toNat + 1

/-- The loop of `makeIdentifier`. -/
def pushDigits (index : Nat) : List Char :=
  if index = 0 then [] else Char.ofNat (offset + index % base) :: pushDigits (index / base)
termination_by index
decreasing_by exact Nat.div_lt_self (by omega) (by decide)

def makeIdentifier (index : Nat) : List Char :=
  if index = 0 then [Char.ofNat offset] else pushDigits index

/-- What `add` gives the ports, after some calls; `makeIdentifier` takes the index as an `unsigned`. -/
def identifiers : Nat → List (List Char)
  | 0 => []
  | n + 1 => identifiers n ++ [makeIdentifier ((identifiers n).length % 2 ^ 32)]

lemma pushDigits_eq (index : Nat) :
    pushDigits index = (Nat.digits base index).map fun digit => Char.ofNat (offset + digit) := by
  induction index using Nat.strongRecOn with
  | ind index ih =>
    rw [pushDigits]
    split
    next zero => simp [zero]
    next positive =>
      have pos : 0 < index := Nat.pos_of_ne_zero positive
      rw [Nat.digits_def' (by decide) pos, ih _ (Nat.div_lt_self pos (by decide))]
      rfl

/-- Zero has a digit too, so that no identifier is empty, and no other one has a zero in its last place. -/
lemma makeIdentifier_eq (index : Nat) : ∃ digits, digits ≠ [] ∧ (∀ digit ∈ digits, digit < base) ∧
    Nat.ofDigits base digits = index ∧ makeIdentifier index = digits.map fun digit => Char.ofNat (offset + digit) := by
  rw [makeIdentifier]
  split
  next zero => exact ⟨[0], by decide, by decide, zero.symm, rfl⟩
  next pos =>
    refine ⟨Nat.digits base index, ?_, fun _ => Nat.digits_lt_base (by decide), Nat.ofDigits_digits base index,
      pushDigits_eq index⟩
    exact mt Nat.digits_eq_nil_iff_eq_zero.mp pos

lemma ofNat_digit : ∀ digit : Fin base, (Char.ofNat (offset + digit)).toNat - offset = digit ∧
    '!' ≤ Char.ofNat (offset + digit) ∧ Char.ofNat (offset + digit) ≤ '~' := by
  decide

/-- The index is read back from its identifier. -/
lemma ofDigits_makeIdentifier (index : Nat) :
    Nat.ofDigits base ((makeIdentifier index).map fun c => c.toNat - offset) = index := by
  obtain ⟨digits, -, small, value, made⟩ := makeIdentifier_eq index
  rw [made, List.map_map, List.map_congr_left fun digit mem => (ofNat_digit ⟨digit, small digit mem⟩).1, List.map_id']
  exact value

lemma identifiers_eq (n : Nat) : identifiers n = (List.range n).map fun index => makeIdentifier (index % 2 ^ 32) := by
  induction n with
  | zero => rfl
  | succ n ih => simp [identifiers, ih, List.range_succ]

/-- Identifiers are made of printable characters, no two indices have the same one, and so no two ports. -/
theorem identifiers_distinct :
    (∀ index, makeIdentifier index ≠ [] ∧ ∀ c ∈ makeIdentifier index, '!' ≤ c ∧ c ≤ '~') ∧
      makeIdentifier.Injective ∧ ∀ n ≤ 2 ^ 32, (identifiers n).Nodup := by
  have injective : makeIdentifier.Injective := fun i j same => by
    rw [← ofDigits_makeIdentifier i, same, ofDigits_makeIdentifier]
  refine ⟨fun index => ?_, injective, fun n small => ?_⟩
  · obtain ⟨digits, some, small, -, made⟩ := makeIdentifier_eq index
    rw [made]
    refine ⟨mt List.map_eq_nil_iff.mp some, fun c mem => ?_⟩
    obtain ⟨digit, isDigit, rfl⟩ := List.mem_map.mp mem
    exact (ofNat_digit ⟨digit, small digit isDigit⟩).2
  · rw [identifiers_eq]
    refine List.nodup_range.map_on fun i memI j memJ same => ?_
    rw [List.mem_range] at memI memJ
    have := injective same
    omega

end Axe.WaveformTracer
