import Mathlib

/-! Port arguments: `core:port[begin:end]`, as they are parsed, printed and resolved. A string is the
list of its characters. -/

namespace Axe

/-- What comes before the first of these characters, and what after it. -/
def splitFirst (c : Char) : List Char → Option (List Char × List Char)
  | [] => none
  | x :: s => if x = c then some ([], s) else (splitFirst c s).map fun parts => (x :: parts.1, parts.2)

def splitLast (c : Char) (s : List Char) : Option (List Char × List Char) :=
  (splitFirst c s.reverse).map fun parts => (parts.2.reverse, parts.1.reverse)

def toSignedChar (val : Int) : Int := (val + 128) % 256 - 128

def toUnsigned (val : Int) : Nat := (val % 2 ^ 32).toNat

/-- `strtol` in base 10: the value and what follows it. -/
def strtol (s : List Char) : Int × List Char :=
  let text := s.dropWhile fun c => c.toNat = 32 || (9 ≤ c.toNat && c.toNat ≤ 13)
  let (sign, text) : Int × List Char :=
    match text with
    | '-' :: text => (-1, text)
    | '+' :: text => (1, text)
    | text => (1, text)
  let digits := text.takeWhile Char.isDigit
  if digits = [] then (0, s)
  else (sign * (digits.foldl (fun val c => val * 10 + (c.toNat - 48)) 0 : Nat), text.dropWhile Char.isDigit)

def parsePortOffset (s : List Char) : Option Int :=
  let (val, rest) := strtol (s.takeWhile (· ≠ '\x00'))
  if ¬ (-2 ^ 63 ≤ val ∧ val < 2 ^ 63) ∨ rest ≠ [] then none
  else if val < 0 ∨ 127 < val then none
  else some val

structure PortArg where
  core : List Char
  port : List Char
  beginOffset : Int
  endOffset : Int
  deriving DecidableEq

namespace PortArg

/-- The part of `parse` that takes the index off. -/
def parseIndex (s : List Char) : Option (List Char × List Char) :=
  if s.getLast? = some ']' then (splitLast '[' s.dropLast).filter fun parts => parts.2 ≠ [] else some (s, [])

/-- The part of `parse` that reads the index. -/
def parseBounds (idx : List Char) : Option (Int × Int) :=
  if idx = [] then some (0, -1)
  else
    match splitFirst ':' idx with
    | some (lower, upper) =>
      if lower = [] ∨ upper = [] then none
      else
        match parsePortOffset lower, parsePortOffset upper with
        | some lowerBound, some upperBound => if upperBound ≤ lowerBound then none else some (lowerBound, upperBound)
        | _, _ => none
    | none => (parsePortOffset idx).map fun lowerBound => (lowerBound, toSignedChar (lowerBound + 1))

/-- The part of `parse` that takes the core off. -/
def parseCore (port : List Char) : Option (List Char × List Char) :=
  match splitFirst ':' port with
  | some (core, identifier) => if core = [] then none else some (core, identifier)
  | none => some ([], port)

def parse (s : List Char) : Option PortArg :=
  if s = [] then none
  else do
    let (port, idx) ← parseIndex s
    let (lowerBound, upperBound) ← parseBounds idx
    let (core, identifier) ← parseCore port
    some ⟨core, identifier, lowerBound, upperBound⟩

/-- The slice between the brackets. -/
def dumpBounds (beginOffset endOffset : Int) : List Char :=
  Nat.toDigits 10 (toUnsigned beginOffset) ++
    if endOffset ≠ beginOffset + 1 then ':' :: Nat.toDigits 10 (toUnsigned endOffset) else []

def dump (arg : PortArg) : List Char :=
  (if arg.core ≠ [] then arg.core ++ [':'] else []) ++ arg.port ++
    if arg.beginOffset ≠ 0 ∨ arg.endOffset ≠ -1 then '[' :: dumpBounds arg.beginOffset arg.endOffset ++ [']']
    else []

/-- `lookup`, given the width of the port that is found. -/
def lookup (arg : PortArg) (w : Nat) : Option (Nat × Nat) :=
  let adjustedEndOffset := if arg.endOffset = -1 then toSignedChar w else arg.endOffset
  if arg.endOffset ≠ -1 ∧ w < toUnsigned adjustedEndOffset then none
  else if adjustedEndOffset ≤ arg.beginOffset then none
  else some (toUnsigned arg.beginOffset, toUnsigned adjustedEndOffset)

/-- Printed, the argument is read back, and where it is found it is a slice of the port. -/
def Sound (arg : PortArg) : Prop :=
  parse arg.dump = some arg ∧
    ∀ w fst last, arg.lookup w = some (fst, last) → fst < last ∧ last ≤ w

/-- The index is a single offset, the largest. -/
def LoneLargest (s : List Char) : Prop :=
  (parseIndex s).any fun parts => splitFirst ':' parts.2 = none ∧ parsePortOffset parts.2 = some 127
  deriving Decidable

lemma splitFirst_eq_some {c : Char} {s fst rest : List Char} :
    splitFirst c s = some (fst, rest) ↔ c ∉ fst ∧ s = fst ++ c :: rest := by
  induction s generalizing fst with
  | nil => simp [splitFirst]
  | cons x s ih =>
    rw [splitFirst]
    by_cases same : x = c
    · cases fst <;> simp_all [eq_comm]
    · cases fst with
      | nil => simp [same]
      | cons y fst => simp [same, ih, and_assoc]; grind

lemma splitLast_append {c : Char} {fst rest : List Char} (none : c ∉ rest) :
    splitLast c (fst ++ c :: rest) = some (fst, rest) := by
  have back : splitFirst c (rest.reverse ++ c :: fst.reverse) = some (rest.reverse, fst.reverse) :=
    splitFirst_eq_some.mpr ⟨by simpa using none, rfl⟩
  simp [splitLast, back]

lemma splitFirst_of_notMem {c : Char} {s : List Char} (none : c ∉ s) : splitFirst c s = .none := by
  induction s with
  | nil => rfl
  | cons x s ih =>
    obtain ⟨other, rest⟩ := not_or.mp (mt List.mem_cons.mpr none)
    rw [splitFirst, if_neg (Ne.symm other), ih rest]
    rfl

lemma offset_bounds {s : List Char} {val : Int} (got : parsePortOffset s = some val) :
    0 ≤ val ∧ val ≤ 127 := by
  dsimp only [parsePortOffset] at got
  split_ifs at got
  grind

lemma offset_toDigits : ∀ n : Fin 128, parsePortOffset (Nat.toDigits 10 n) = some (n.val : Int) ∧
    '[' ∉ Nat.toDigits 10 n.val ∧ ':' ∉ Nat.toDigits 10 n.val ∧ Nat.toDigits 10 n.val ≠ [] := by
  decide +kernel

lemma parseCore_text {port core identifier : List Char} (got : parseCore port = some (core, identifier)) :
    (if core ≠ [] then core ++ [':'] else []) ++ identifier = port := by
  unfold parseCore at got
  split at got
  next split =>
    obtain ⟨-, rfl⟩ := splitFirst_eq_some.mp split
    grind
  next => grind

/-- No index, a slice, or the largest offset alone, to which the next one is no `signed char`. -/
lemma parseBounds_cases {idx : List Char} {lower upper : Int}
    (got : parseBounds idx = some (lower, upper)) :
    idx = [] ∧ lower = 0 ∧ upper = -1 ∨
      idx ≠ [] ∧ 0 ≤ lower ∧ lower < upper ∧ upper ≤ 127 ∧
        ¬ (splitFirst ':' idx = none ∧ parsePortOffset idx = some 127) ∨
      idx ≠ [] ∧ lower = 127 ∧ upper = -128 ∧ splitFirst ':' idx = none ∧ parsePortOffset idx = some 127 := by
  unfold parseBounds at got
  split_ifs at got with empty
  · grind
  · cases split : splitFirst ':' idx with
    | none =>
      rw [split] at got
      obtain ⟨val, read, same⟩ := Option.map_eq_some_iff.mp got
      obtain ⟨rfl, rfl⟩ := Prod.mk.inj same
      have := offset_bounds read
      dsimp only [toSignedChar]
      by_cases val = 127
      · right; right; simp_all
      · right; left
        refine ⟨empty, by omega, by omega, by omega, ?_⟩
        simp_all
    | some parts =>
      have : ∀ s val, parsePortOffset s = some val → 0 ≤ val ∧ val ≤ 127 := fun _ _ => offset_bounds
      grind

lemma parseIndex_append {port idx : List Char} (none : '[' ∉ idx) (some : idx ≠ []) :
    parseIndex (port ++ '[' :: idx ++ [']']) = .some (port, idx) := by
  rw [parseIndex, if_pos List.getLast?_concat, List.dropLast_concat, splitLast_append none]
  simp [some]

/-- A slice is printed as it is read. -/
lemma parseBounds_printed {lower upper : Int} (fst : 0 ≤ lower) (order : lower < upper) (last : upper ≤ 127) :
    '[' ∉ dumpBounds lower upper ∧ dumpBounds lower upper ≠ [] ∧
      parseBounds (dumpBounds lower upper) = some (lower, upper) := by
  obtain ⟨l, rfl⟩ := Int.eq_ofNat_of_zero_le fst
  obtain ⟨u, rfl⟩ := Int.eq_ofNat_of_zero_le (show 0 ≤ upper by omega)
  have unsigned (n : Nat) (small : n ≤ 127) : toUnsigned n = n := by simp [toUnsigned]; omega
  obtain ⟨readL, noneL, noColon, someL⟩ := offset_toDigits ⟨l, by omega⟩
  obtain ⟨readU, noneU, -, someU⟩ := offset_toDigits ⟨u, by omega⟩
  simp only at readL noneL noColon someL readU noneU someU
  rw [dumpBounds, unsigned l (by omega), unsigned u (by omega)]
  by_cases next : (u : Int) = l + 1
  · simp [next, parseBounds, someL, noneL, splitFirst_of_notMem noColon, readL, toSignedChar]
    omega
  · have split : splitFirst ':' (Nat.toDigits 10 l ++ ':' :: Nat.toDigits 10 u) = _ :=
      splitFirst_eq_some.mpr ⟨noColon, rfl⟩
    simp [next, parseBounds, someL, someU, noneL, noneU, split, readL, readU]
    omega

lemma lookup_slice {arg : PortArg} (fst : 0 ≤ arg.beginOffset) (last : arg.endOffset ≤ 127) {w b e : Nat}
    (found : arg.lookup w = some (b, e)) : b < e ∧ e ≤ w := by
  dsimp only [lookup, toUnsigned, toSignedChar] at found
  split_ifs at found <;> cases found <;> omega

/-- An argument reads back and resolves as it should unless its index is a lone 127. -/
theorem sound_iff {s : List Char} {arg : PortArg} (parsed : parse s = some arg) : arg.Sound ↔ ¬ LoneLargest s := by
  unfold parse at parsed
  split_ifs at parsed with empty
  simp only [Option.bind_eq_bind, Option.bind_eq_some_iff, Option.some.injEq, Prod.exists] at parsed
  obtain ⟨port, idx, indexed, lower, upper, bounds, core, identifier, cored, rfl⟩ := parsed
  have text := parseCore_text cored
  have lone : LoneLargest s ↔ splitFirst ':' idx = none ∧ parsePortOffset idx = some 127 := by
    simp [LoneLargest, indexed]
  rw [lone, Sound, dump, text]
  obtain ⟨rfl, rfl, rfl⟩ | ⟨-, fst, order, last, plain⟩ | ⟨-, rfl, rfl, single, largest⟩ :=
    parseBounds_cases bounds
  · have bare : s = port ∧ s.getLast? ≠ some ']' := by
      unfold parseIndex at indexed
      split_ifs at indexed with closed
      · simp [Option.filter_eq_some_iff] at indexed
      · simp_all
    obtain ⟨rfl, open_⟩ := bare
    refine iff_of_true ⟨?_, fun _ _ _ => lookup_slice (by simp) (by simp)⟩ (by decide)
    simp [parse, empty, parseIndex, open_, bounds, cored]
  · obtain ⟨none, some, read⟩ := parseBounds_printed fst order last
    refine iff_of_true ⟨?_, fun _ _ _ => lookup_slice fst last⟩ plain
    rw [if_pos (.inr (by dsimp only; omega)), ← List.append_assoc, parse, if_neg (by simp),
      parseIndex_append none some]
    simp [read, cored]
  · refine iff_of_false (fun sound => ?_) (fun other => other ⟨single, largest⟩)
    obtain ⟨none, some, unread⟩ : '[' ∉ dumpBounds 127 (-128) ∧ dumpBounds 127 (-128) ≠ [] ∧
        parseBounds (dumpBounds 127 (-128)) = none := by decide +kernel
    have read := sound.1
    rw [if_pos (.inr (by simp)), ← List.append_assoc, parse, if_neg (by simp), parseIndex_append none some] at read
    simp [unread] at read

theorem sound_named_slice : (PortArg.mk "stdcore[0]".toList "XS1_PORT_8A".toList 2 3).Sound :=
  (sound_iff (s := "stdcore[0]:XS1_PORT_8A[2]".toList) (by decide +kernel)).mpr (by decide +kernel)

/-- `p[127]` is printed as `p[127:4294967168]`. -/
theorem largest_offset_unsound :
    parse "p[127]".toList = some ⟨[], ['p'], 127, -128⟩ ∧ ¬ (PortArg.mk [] ['p'] 127 (-128)).Sound := by
  refine ⟨by decide +kernel, fun sound => ?_⟩
  have := sound.1
  revert this
  decide +kernel

end PortArg
end Axe
