import Mathlib.Data.BitVec

/-! The `.trap_info` section of an ELF file: compile units, each with its size, its version and, in version 1, entries
that give the position of a description for a pc. The section is searched whenever a trap is reported. -/

namespace Axe

namespace TrapInfo

/-- Nothing if a byte outside of the section would be read. -/
def read32le (sect : List (BitVec 8)) (pos : Nat) : Option (BitVec 32) :=
  match sect.drop pos with
  | a :: b :: c :: d :: _ => some (d ++ c ++ b ++ a)
  | _ => none

/-- The loop over the entries of the unit at `start`, with `left` of them still to come. -/
def searchEntries (sect : List (BitVec 8)) (start : Nat) (spc : BitVec 32) : (left i : Nat) →
    Option (Option (BitVec 32))
  | 0, _ => some none
  | left + 1, i => do
    let address ← read32le sect (start + 8 + i * 8)
    if address = spc then
      let strp ← read32le sect (start + 8 + i * 8 + 4)
      return some strp
    searchEntries sect start spc left (i + 1)

/-- What is found in the unit at `start`, and where the search goes on. -/
def getDescriptionFromCompileUnit (sect : List (BitVec 8)) (start : Nat) (spc : BitVec 32) :
    Option (Option (BitVec 32) × Nat) := do
  let maxLength := sect.length - start
  if maxLength < 8 then return (none, sect.length)
  let size ← read32le sect start
  let version ← read32le sect (start + 4)
  if size < 8 ∨ maxLength < size.toNat then return (none, sect.length)
  let found ← (if version = 1 then searchEntries sect start spc ((size - 8) / 8).toNat 0 else some none)
  return (found, if found.isSome then start else start + size.toNat)

lemma unit_advances {sect : List (BitVec 8)} {start next : Nat} {spc : BitVec 32}
    (searched : getDescriptionFromCompileUnit sect start spc = some (none, next)) :
    next = sect.length ∨ start < next ∧ next ≤ sect.length := by
  simp only [getDescriptionFromCompileUnit, Option.pure_def, Option.bind_eq_bind] at searched
  split at searched
  · cases searched
    exact .inl rfl
  · obtain ⟨size, -, searched⟩ := Option.bind_eq_some_iff.mp searched
    obtain ⟨version, -, searched⟩ := Option.bind_eq_some_iff.mp searched
    split at searched
    case isTrue =>
      cases searched
      exact .inl rfl
    case isFalse wellFormed =>
      obtain ⟨found, -, searched⟩ := Option.bind_eq_some_iff.mp searched
      cases searched
      rw [not_or, BitVec.not_lt, BitVec.le_def] at wellFormed
      have eight : (8 : BitVec 32).toNat = 8 := rfl
      have shorter : start < start + size.toNat ∧ start + size.toNat ≤ sect.length := by omega
      exact .inr shorter

/-- The outer result is nothing if a byte outside of the section is read, the inner one if nothing is found. -/
def getStringPtrFromTrapInfoSection (sect : List (BitVec 8)) (spc : BitVec 32) (start : Nat) :
    Option (Option (BitVec 32)) :=
  if start = sect.length then some none
  else
    match searched : getDescriptionFromCompileUnit sect start spc with
    | none => none
    | some (some strp, _) => some (some strp)
    | some (none, next) =>
      have := unit_advances searched
      getStringPtrFromTrapInfoSection sect spc next
  termination_by if start = sect.length then 0 else sect.length - start + 1
  decreasing_by grind

/-! ### The units of a section -/

def bytes32 (x : BitVec 32) : List (BitVec 8) :=
  [x.extractLsb' 0 8, x.extractLsb' 8 8, x.extractLsb' 16 8, x.extractLsb' 24 8]

/-- A unit, with the bytes behind its size and its version. -/
structure CompileUnit where
  version : BitVec 32
  body : List (BitVec 8)
  fits : body.length + 8 < 2 ^ 32

/-- The pcs and the positions of their descriptions; bytes that do not make up an entry stand behind the last one. -/
def entriesOf : List (BitVec 8) → List (BitVec 32 × BitVec 32)
  | a :: b :: c :: d :: e :: f :: g :: h :: rest => (d ++ c ++ b ++ a, h ++ g ++ f ++ e) :: entriesOf rest
  | _ => []

namespace CompileUnit

variable (unit : CompileUnit)

def bytes : List (BitVec 8) := bytes32 (BitVec.ofNat 32 (unit.body.length + 8)) ++ bytes32 unit.version ++ unit.body

def entries : List (BitVec 32 × BitVec 32) := if unit.version = 1 then entriesOf unit.body else []

lemma length_bytes : unit.bytes.length = unit.body.length + 8 := by
  simp [bytes, bytes32]

end CompileUnit

def lookup (entries : List (BitVec 32 × BitVec 32)) (spc : BitVec 32) : Option (BitVec 32) :=
  (entries.find? (·.1 = spc)).map Prod.snd

section

variable {sect rest : List (BitVec 8)} {pos start : Nat} {spc : BitVec 32}

lemma read32le_append (word : BitVec 32) (here : sect.drop pos = bytes32 word ++ rest) :
    read32le sect pos = some word := by
  rw [read32le, here]
  refine congrArg some (BitVec.eq_of_getLsbD_eq fun i inside => ?_)
  simp only [BitVec.getLsbD_append, BitVec.getLsbD_extractLsb']
  grind

lemma bytes32_append (a b c d : BitVec 8) : bytes32 (d ++ c ++ b ++ a) = [a, b, c, d] := by
  simp only [bytes32, List.cons.injEq, and_true]
  refine ⟨?_, ?_, ?_, ?_⟩
  all_goals
    refine BitVec.eq_of_getLsbD_eq fun i inside => ?_
    simp only [BitVec.getLsbD_append, BitVec.getLsbD_extractLsb']
    grind

lemma lookup_append (first others : List (BitVec 32 × BitVec 32)) (spc : BitVec 32) :
    lookup (first ++ others) spc = (lookup first spc).or (lookup others spc) := by
  rw [lookup, List.find?_append, Option.map_or]
  rfl

lemma eight_bytes {bytes : List (BitVec 8)} (long : 8 ≤ bytes.length) : ∃ a b c d e f g h rest,
    bytes = a :: b :: c :: d :: e :: f :: g :: h :: rest := by
  rcases bytes with _ | ⟨a, _ | ⟨b, _ | ⟨c, _ | ⟨d, _ | ⟨e, _ | ⟨f, _ | ⟨g, _ | ⟨h, rest⟩⟩⟩⟩⟩⟩⟩⟩
  all_goals first | exact ⟨_, _, _, _, _, _, _, _, _, rfl⟩ | simp at long

/-- The loop finds the first entry for the pc, and all that it reads is in the body. -/
lemma searchEntries_eq {body : List (BitVec 8)} {i : Nat} (here : sect.drop (start + 8 + i * 8) = body ++ rest) :
    searchEntries sect start spc (body.length / 8) i = some (lookup (entriesOf body) spc) := by
  fun_induction entriesOf body generalizing i with
  | case1 a b c d e f g h tail ih =>
    have count : (a :: b :: c :: d :: e :: f :: g :: h :: tail).length / 8 = tail.length / 8 + 1 := by
      simp only [List.length_cons]
      omega
    have address : read32le sect (start + 8 + i * 8) = some (d ++ c ++ b ++ a) := by
      rw [read32le, here]
      rfl
    have strp : read32le sect (start + 8 + i * 8 + 4) = some (h ++ g ++ f ++ e) := by
      rw [read32le, ← List.drop_drop, here]
      rfl
    have next : sect.drop (start + 8 + (i + 1) * 8) = tail ++ rest := by
      rw [show start + 8 + (i + 1) * 8 = start + 8 + i * 8 + 8 by omega, ← List.drop_drop, here]
      rfl
    rw [count, searchEntries, address, Option.bind_eq_bind, Option.bind_some, strp]
    by_cases same : d ++ c ++ b ++ a = spc
    · simp [same, lookup]
    · simpa [same, lookup] using ih next
  | case2 body short =>
    have few : body.length < 8 := by
      by_contra long
      obtain ⟨a, b, c, d, e, f, g, h, tail, rfl⟩ := eight_bytes (Nat.le_of_not_lt long)
      exact short a b c d e f g h tail rfl
    rw [Nat.div_eq_of_lt few]
    rfl

lemma compileUnit_eq {unit : CompileUnit} (here : sect.drop start = unit.bytes ++ rest) :
    getDescriptionFromCompileUnit sect start spc = some (lookup unit.entries spc,
      if (lookup unit.entries spc).isSome then start else start + unit.bytes.length) := by
  have room := congrArg List.length here
  rw [List.length_drop, List.length_append, unit.length_bytes] at room
  have fits := unit.fits
  have toNat : (BitVec.ofNat 32 (unit.body.length + 8)).toNat = unit.body.length + 8 := by
    rw [BitVec.toNat_ofNat]
    omega
  rw [CompileUnit.bytes, List.append_assoc, List.append_assoc] at here
  have size := read32le_append _ here
  have second : sect.drop (start + 4) = bytes32 unit.version ++ (unit.body ++ rest) := by
    rw [← List.drop_drop, here]
    rfl
  have version := read32le_append _ second
  have third : sect.drop (start + 8 + 0 * 8) = unit.body ++ rest := by
    rw [show start + 8 + 0 * 8 = start + 4 + 4 by omega, ← List.drop_drop, second]
    rfl
  have count : ((BitVec.ofNat 32 (unit.body.length + 8) - 8) / 8).toNat = unit.body.length / 8 := by
    have eight : (8 : BitVec 32).toNat = 8 := rfl
    rw [BitVec.toNat_udiv, BitVec.toNat_sub_of_le (by rw [BitVec.le_def]; omega), toNat, eight, Nat.add_sub_cancel]
  have found : (if unit.version = 1 then searchEntries sect start spc (unit.body.length / 8) 0 else some none) =
      some (lookup unit.entries spc) := by
    rw [CompileUnit.entries]
    split
    · exact searchEntries_eq third
    · rfl
  have wellFormed : ¬(BitVec.ofNat 32 (unit.body.length + 8) < 8 ∨
      sect.length - start < (BitVec.ofNat 32 (unit.body.length + 8)).toNat) := by
    have eight : (8 : BitVec 32).toNat = 8 := rfl
    rw [BitVec.lt_def, toNat]
    omega
  simp only [getDescriptionFromCompileUnit, Option.pure_def, Option.bind_eq_bind]
  rw [if_neg (by omega), size, Option.bind_some, version, Option.bind_some, if_neg wellFormed, count, found, toNat,
    Option.bind_some, unit.length_bytes]

lemma malformed_eq (malformed : ∀ unit : CompileUnit, ¬unit.bytes <+: sect.drop start) :
    getDescriptionFromCompileUnit sect start spc = some (none, sect.length) := by
  have length : (sect.drop start).length = sect.length - start := List.length_drop
  simp only [getDescriptionFromCompileUnit, Option.pure_def, Option.bind_eq_bind]
  by_cases short : sect.length - start < 8
  · rw [if_pos short]
  · obtain ⟨a, b, c, d, e, f, g, h, body, is⟩ := eight_bytes (length ▸ Nat.le_of_not_lt short)
    have size : read32le sect start = some (d ++ c ++ b ++ a) := by
      rw [read32le, is]
    have version : read32le sect (start + 4) = some (h ++ g ++ f ++ e) := by
      rw [read32le, ← List.drop_drop, is]
      rfl
    rw [if_neg short, size, Option.bind_some, version, Option.bind_some]
    refine if_pos (Classical.byContradiction fun wellFormed => ?_)
    -- The bytes would begin with a unit of this size.
    have eight : (8 : BitVec 32).toNat = 8 := rfl
    have bound := (d ++ c ++ b ++ a).isLt
    rw [BitVec.lt_def, eight, ← length, is] at wellFormed
    simp only [List.length_cons] at wellFormed
    have fits : (body.take ((d ++ c ++ b ++ a).toNat - 8)).length + 8 < 2 ^ 32 := by
      rw [List.length_take]
      omega
    have taken : (body.take ((d ++ c ++ b ++ a).toNat - 8)).length + 8 = (d ++ c ++ b ++ a).toNat := by
      rw [List.length_take]
      omega
    refine malformed ⟨h ++ g ++ f ++ e, body.take ((d ++ c ++ b ++ a).toNat - 8), fits⟩ ?_
    rw [CompileUnit.bytes, taken, BitVec.ofNat_toNat, BitVec.setWidth_eq, bytes32_append, bytes32_append, is]
    exact List.prefix_append_right_inj [a, b, c, d, e, f, g, h] |>.mpr (List.take_prefix ..)

lemma search_step (within : start ≠ sect.length) {found : Option (BitVec 32)} {next : Nat}
    (searched : getDescriptionFromCompileUnit sect start spc = some (found, next)) :
    getStringPtrFromTrapInfoSection sect spc start =
      if found.isSome then some found else getStringPtrFromTrapInfoSection sect spc next := by
  rw [getStringPtrFromTrapInfoSection, if_neg within]
  split
  all_goals
    rename_i is
    rw [searched] at is
    cases is
  all_goals rfl

/-- The search from a unit on finds the first entry of the units that follow. -/
lemma search_eq {units : List CompileUnit} (here : sect.drop start = units.flatMap CompileUnit.bytes ++ rest)
    (malformed : ∀ unit : CompileUnit, ¬unit.bytes <+: rest) :
    getStringPtrFromTrapInfoSection sect spc start = some (lookup (units.flatMap CompileUnit.entries) spc) := by
  induction units generalizing start with
  | nil =>
    have ended : getStringPtrFromTrapInfoSection sect spc sect.length = some none := by
      rw [getStringPtrFromTrapInfoSection, if_pos rfl]
    rw [List.flatMap_nil, List.nil_append] at here
    by_cases last : start = sect.length
    · exact last ▸ ended
    · exact (search_step last (malformed_eq (here ▸ malformed))).trans ended
  | cons unit units ih =>
    rw [List.flatMap_cons, List.append_assoc] at here
    have room := congrArg List.length here
    rw [List.length_drop, List.length_append, unit.length_bytes] at room
    have behind : sect.drop (start + unit.bytes.length) = units.flatMap CompileUnit.bytes ++ rest := by
      rw [← List.drop_drop, here, List.drop_left]
    have others := ih behind
    rw [List.flatMap_cons, lookup_append, search_step (by omega) (compileUnit_eq here)]
    cases lookup unit.entries spc with
    | none => exact others
    | some strp => rfl

lemma exists_units (bytes : List (BitVec 8)) : ∃ (units : List CompileUnit) (rest : List (BitVec 8)),
    bytes = units.flatMap CompileUnit.bytes ++ rest ∧ ∀ unit : CompileUnit, ¬unit.bytes <+: rest := by
  induction length : bytes.length using Nat.strong_induction_on generalizing bytes with
  | _ n ih =>
    by_cases starts : ∃ unit : CompileUnit, unit.bytes <+: bytes
    · obtain ⟨unit, tail, rfl⟩ := starts
      have shorter : tail.length < n := by
        rw [← length, List.length_append, unit.length_bytes]
        omega
      obtain ⟨units, rest, split, malformed⟩ := ih _ shorter tail rfl
      exact ⟨unit :: units, rest, by rw [List.flatMap_cons, List.append_assoc, ← split], malformed⟩
    · exact ⟨[], bytes, rfl, not_exists.mp starts⟩

end

/-- Every section is a list of units up to bytes that no unit begins with, and the search reads only bytes of the
section and finds the first entry for the pc in these units. -/
theorem trap_info_found (sect : List (BitVec 8)) :
    (∃ (units : List CompileUnit) (rest : List (BitVec 8)),
      sect = units.flatMap CompileUnit.bytes ++ rest ∧ ∀ unit : CompileUnit, ¬unit.bytes <+: rest) ∧
    ∀ (units : List CompileUnit) (rest : List (BitVec 8)), sect = units.flatMap CompileUnit.bytes ++ rest →
      (∀ unit : CompileUnit, ¬unit.bytes <+: rest) → ∀ spc,
        getStringPtrFromTrapInfoSection sect spc 0 = some (lookup (units.flatMap CompileUnit.entries) spc) :=
  ⟨exists_units sect, fun _ _ split malformed _ => search_eq split malformed⟩

end TrapInfo

end Axe
