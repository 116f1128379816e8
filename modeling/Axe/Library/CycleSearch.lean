import Mathlib.Combinatorics.Pigeonhole

/-! Following a path of hops that may run in a circle. A tortoise waits at a place of the path
and is moved up to the traveller when the number of hops reaches the leap count, which is
doubled then. The counters are machine words. -/

namespace CycleSearch

/-- What is found at a place: the path ends here, or it goes on. -/
inductive Hop (Place Result : Type*) where
  | stop (res : Result)
  | onward (next : Place)

variable {Place Result : Type*} (hop : Place → Hop Place Result)

def next (place : Place) : Option Place :=
  match hop place with
  | .stop _ => none
  | .onward place => some place

def path (start : Place) : Nat → Option Place
  | 0 => some start
  | i + 1 => (path start i).bind (next hop)

def EndsWith (start : Place) (res : Result) : Prop :=
  ∃ i place, path hop start i = some place ∧ hop place = .stop res

def Endless (start : Place) : Prop := ∀ i, (path hop start i).isSome = true

structure State (Place : Type*) where
  place : Place
  tortoise : Place
  hops : Nat
  leapCount : Nat

section

variable [DecidableEq Place] (looped : Result) (wordSize : Nat)

def round (st : State Place) : Except Result (State Place) :=
  match hop st.place with
  | .stop res => .error res
  | .onward place =>
    let hops := (st.hops + 1) % wordSize
    if place = st.tortoise then .error looped
    else if hops = st.leapCount then .ok ⟨place, place, hops, st.leapCount * 2 % wordSize⟩
    else .ok ⟨place, st.tortoise, hops, st.leapCount⟩

def search : Nat → State Place → Option Result
  | 0, _ => none
  | rounds + 1, st =>
    match round hop looped wordSize st with
    | .error res => some res
    | .ok st => search rounds st

def initial (start : Place) (leapCount : Nat) : State Place := ⟨start, start, 0, leapCount⟩

end

section

variable {hop} {start : Place}

lemma path_succ_of_stop {i : Nat} {place : Place} {res : Result} (here : path hop start i = some place)
    (stop : hop place = .stop res) : path hop start (i + 1) = none := by
  simp [path, here, next, stop]

lemma path_none_of_le {i j : Nat} (ended : path hop start i = none) (le : i ≤ j) : path hop start j = none := by
  induction le with
  | refl => exact ended
  | step le ih => simp [path, ih]

lemma path_add {i j : Nat} (same : path hop start i = path hop start j) (k : Nat) :
    path hop start (i + k) = path hop start (j + k) := by
  induction k with
  | zero => exact same
  | succ k ih =>
    show (path hop start (i + k)).bind (next hop) = (path hop start (j + k)).bind (next hop)
    rw [ih]

lemma endless_of_repeat {i j : Nat} {place : Place} (pre : i < j) (fst : path hop start i = some place)
    (again : path hop start j = some place) : Endless hop start := by
  -- The path is there at every multiple of the period, and it has no holes.
  have rounds (n : Nat) : path hop start (i + n * (j - i)) = some place := by
    induction n with
    | zero => simpa using fst
    | succ n ih =>
      have same := path_add (again.trans fst.symm) (n * (j - i))
      have later : i + (n + 1) * (j - i) = j + n * (j - i) := by
        rw [Nat.add_mul, Nat.one_mul]
        omega
      rw [later, same, ih]
  intro k
  rw [Option.isSome_iff_ne_none]
  intro ended
  have beyond : k ≤ i + k * (j - i) := by
    have : k * 1 ≤ k * (j - i) := Nat.mul_le_mul_left k (by omega)
    omega
  have none := path_none_of_le ended beyond
  rw [rounds k] at none
  cases none

lemma Endless.repeats (endless : Endless hop start) (places : Finset Place)
    (isIn : ∀ i place, path hop start i = some place → place ∈ places) :
    ∃ i j, i < j ∧ j ≤ places.card ∧ path hop start i = path hop start j := by
  have visits (i : Nat) : (path hop start i).get (endless i) ∈ places := isIn i _ (by simp)
  have crowded : places.card < (Finset.range (places.card + 1)).card := by simp
  obtain ⟨i, small, j, small', differ, same⟩ := Finset.exists_ne_map_eq_of_card_lt_of_maps_to crowded
    fun i _ => visits i
  have equal : path hop start i = path hop start j := by
    rw [← Option.some_get (endless i), ← Option.some_get (endless j), same]
  rw [Finset.mem_range] at small small'
  rcases Nat.lt_or_gt_of_ne differ with pre | post
  · exact ⟨i, j, pre, by omega, equal⟩
  · exact ⟨j, i, post, by omega, equal.symm⟩

lemma EndsWith.unique {fst snd : Result} (one : EndsWith hop start fst) (other : EndsWith hop start snd) :
    fst = snd := by
  obtain ⟨i, place, here, stop⟩ := one
  obtain ⟨j, place', here', stop'⟩ := other
  have same : i = j := by
    rcases Nat.lt_trichotomy i j with less | equal | greater
    · have none := path_none_of_le (path_succ_of_stop here stop) less
      rw [here'] at none
      cases none
    · exact equal
    · have none := path_none_of_le (path_succ_of_stop here' stop') greater
      rw [here] at none
      cases none
  subst same
  rw [here] at here'
  cases here'
  rw [stop] at stop'
  cases stop'
  rfl

lemma EndsWith.not_endless {res : Result} (ends : EndsWith hop start res) : ¬ Endless hop start := by
  obtain ⟨i, place, here, stop⟩ := ends
  intro endless
  have there := endless (i + 1)
  rw [path_succ_of_stop here stop] at there
  cases there

variable (hop) in
lemma endless_or_ends (start : Place) : Endless hop start ∨ ∃ res, EndsWith hop start res := by
  by_cases endless : Endless hop start
  · exact .inl endless
  · right
    have ended : ∃ i, path hop start i = none := by
      simpa [Endless] using endless
    obtain ⟨i, none⟩ := ended
    induction i with
    | zero => cases none
    | succ i ih =>
      cases here : path hop start i with
      | none => exact ih here
      | some place =>
        cases step : hop place with
        | stop res => exact ⟨res, i, place, here, step⟩
        | onward further => simp [path, here, next, step] at none

end

section

variable {hop} {looped : Result} {wordSize : Nat} {start : Place}

def Right (hop : Place → Hop Place Result) (looped : Result) (start : Place) (res : Result) : Prop :=
  EndsWith hop start res ∨ res = looped ∧ Endless hop start

lemma Right.eq_iff {res other : Result} (right : Right hop looped start res) :
    res = other ↔ Right hop looped start other := by
  constructor
  · rintro rfl
    exact right
  · intro snd
    rcases right with ends | ⟨isLooped, endless⟩
    · rcases snd with same | ⟨-, endless⟩
      · exact ends.unique same
      · exact absurd endless ends.not_endless
    · rcases snd with ends | ⟨same, -⟩
      · exact absurd endless ends.not_endless
      · rw [isLooped, same]

/-- After `i` rounds the traveller is at place `i` of the path and the tortoise at a place not after it. As long as
the counters do not wrap, the leap count is a power of two above the hops, and from the first leap on the tortoise
is at half of it. -/
structure Follows (hop : Place → Hop Place Result) (start : Place) (fst last i mark : Nat) (st : State Place) :
    Prop where
  place : path hop start i = some st.place
  tortoise : path hop start mark = some st.tortoise
  behind : mark ≤ i
  counted : i < 2 ^ last → st.hops = i ∧
    ∃ k, fst ≤ k ∧ st.leapCount = 2 ^ k ∧ i < 2 ^ k ∧ (k = fst ∨ 2 * mark = 2 ^ k)

variable {fst last i mark : Nat} {st post : State Place}

lemma follows_initial (start : Place) (fst last : Nat) :
    Follows hop start fst last 0 0 (initial start (2 ^ fst)) where
  place := rfl
  tortoise := rfl
  behind := Nat.le_refl 0
  counted _ := ⟨rfl, fst, Nat.le_refl _, rfl, Nat.two_pow_pos fst, .inl rfl⟩

variable [DecidableEq Place]

/-- Whatever ends a round is right about the path. -/
lemma Follows.right (follows : Follows hop start fst last i mark st) {res : Result}
    (left : round hop looped wordSize st = .error res) : Right hop looped start res := by
  unfold round at left
  cases step : hop st.place with
  | stop found =>
    rw [step] at left
    cases left
    exact .inl ⟨i, st.place, follows.place, step⟩
  | onward place =>
    rw [step] at left
    dsimp only at left
    by_cases again : place = st.tortoise
    · rw [if_pos again] at left
      cases left
      have here : path hop start (i + 1) = some st.tortoise := by
        simp [path, follows.place, next, step, again]
      exact .inr ⟨rfl, endless_of_repeat (Nat.lt_succ_of_le follows.behind) follows.tortoise here⟩
    · rw [if_neg again] at left
      split at left <;> cases left

lemma round_ok (goes : round hop looped wordSize st = .ok post) :
    hop st.place = .onward post.place ∧ post.place ≠ st.tortoise ∧ post.hops = (st.hops + 1) % wordSize ∧
      if post.hops = st.leapCount then
        post.tortoise = post.place ∧ post.leapCount = st.leapCount * 2 % wordSize
      else post.tortoise = st.tortoise ∧ post.leapCount = st.leapCount := by
  unfold round at goes
  cases step : hop st.place with
  | stop found =>
    rw [step] at goes
    cases goes
  | onward place =>
    rw [step] at goes
    dsimp only at goes
    by_cases again : place = st.tortoise
    · rw [if_pos again] at goes
      cases goes
    · rw [if_neg again] at goes
      by_cases leaps : (st.hops + 1) % wordSize = st.leapCount
      · rw [if_pos leaps] at goes
        cases goes
        exact ⟨rfl, again, rfl, by rw [if_pos leaps]; exact ⟨rfl, rfl⟩⟩
      · rw [if_neg leaps] at goes
        cases goes
        exact ⟨rfl, again, rfl, by rw [if_neg leaps]; exact ⟨rfl, rfl⟩⟩

lemma Follows.advance (follows : Follows hop start fst last i mark st) (room : 2 ^ last < wordSize)
    (goes : round hop looped wordSize st = .ok post) : ∃ mark, Follows hop start fst last (i + 1) mark post := by
  obtain ⟨onward, -, hops, leap⟩ := round_ok goes
  have here : path hop start (i + 1) = some post.place := by simp [path, follows.place, next, onward]
  -- The hops are counted as long as the next one still fits.
  have cnt (small : i + 1 < 2 ^ last) : post.hops = i + 1 := by
    rw [hops, (follows.counted (by omega)).1, Nat.mod_eq_of_lt (by omega)]
  by_cases leaps : post.hops = st.leapCount
  · rw [if_pos leaps] at leap
    refine ⟨i + 1, here, leap.1 ▸ here, Nat.le_refl _, fun small => ⟨cnt small, ?_⟩⟩
    obtain ⟨-, k, above, count, -⟩ := follows.counted (by omega)
    have mark : i + 1 = 2 ^ k := by rw [← count, ← leaps, cnt small]
    have below : 2 ^ (k + 1) ≤ 2 ^ last := by
      apply Nat.pow_le_pow_right (by decide)
      exact (Nat.pow_lt_pow_iff_right (by decide)).mp (mark ▸ small)
    have doubled : 2 ^ k * 2 = 2 ^ (k + 1) := rfl
    refine ⟨k + 1, by omega, ?_, by omega, .inr (by omega)⟩
    rw [leap.2, count, doubled, Nat.mod_eq_of_lt (by omega)]
  · rw [if_neg leaps] at leap
    refine ⟨mark, here, leap.1 ▸ follows.tortoise, Nat.le_succ_of_le follows.behind, fun small => ⟨cnt small, ?_⟩⟩
    obtain ⟨-, k, above, count, below, half⟩ := follows.counted (by omega)
    have notYet : i + 1 ≠ 2 ^ k := by rw [← cnt small, ← count]; exact leaps
    exact ⟨k, above, by rw [leap.2, count], by omega, half⟩

/-- Either the search is over, and its result is right, or the traveller is that much further. -/
lemma Follows.run (next : Follows hop start fst last i mark st) (room : 2 ^ last < wordSize) (n : Nat) :
    (∃ res, search hop looped wordSize n st = some res ∧ Right hop looped start res) ∨
      ∃ mark post, Follows hop start fst last (i + n) mark post ∧
        ∀ more, search hop looped wordSize (n + more) st = search hop looped wordSize more post := by
  induction n generalizing i mark st with
  | zero => exact .inr ⟨mark, st, next, fun more => by rw [Nat.zero_add]⟩
  | succ n ih =>
    cases step : round hop looped wordSize st with
    | error res => exact .inl ⟨res, by simp [search, step], next.right step⟩
    | ok post =>
      obtain ⟨mark, further⟩ := next.advance room step
      rcases ih further with ⟨res, found, right⟩ | ⟨mark, last, furthest, same⟩
      · exact .inl ⟨res, by simp [search, step, found], right⟩
      · refine .inr ⟨mark, last, by rw [Nat.add_right_comm] at furthest; exact furthest, fun more => ?_⟩
        rw [Nat.succ_add]
        simp [search, step, same]

lemma search_mono {n more : Nat} {res : Result}
    (found : search hop looped wordSize n st = some res) (le : n ≤ more) :
    search hop looped wordSize more st = some res := by
  induction n generalizing st more with
  | zero => cases found
  | succ n ih =>
    obtain ⟨more, rfl⟩ := Nat.exists_eq_succ_of_ne_zero (Nat.ne_of_gt (Nat.lt_of_lt_of_le (Nat.succ_pos _) le))
    unfold search at found ⊢
    cases step : round hop looped wordSize st with
    | error left => rw [step] at found; exact found
    | ok post =>
      rw [step] at found
      exact ih found (Nat.le_of_succ_le_succ le)

/-- On an endless path the tortoise is met, at the latest once it waits inside the cycle for a whole turn. -/
lemma Follows.meets (early p : Nat) {k : Nat} (follows : Follows hop start fst (k + 1) i mark st)
    (atTurn : i + 1 = 2 ^ k + p) (above : fst ≤ k) (positive : 0 < p) (turn : p ≤ 2 ^ k)
    (isIn : early ≤ 2 ^ k) (cycle : path hop start early = path hop start (early + p)) :
    round hop looped wordSize st ≠ .ok post := by
  intro goes
  obtain ⟨onward, apart, -⟩ := round_ok goes
  have here : path hop start (i + 1) = some post.place := by simp [path, follows.place, next, onward]
  obtain ⟨-, leap, above', -, below, half⟩ := follows.counted (by omega)
  -- The hops lie between two powers of two, so the tortoise is at the lower one.
  have waits : mark = 2 ^ k := by
    have large : k < leap := (Nat.pow_lt_pow_iff_right (a := 2) (by decide)).mp (by omega)
    rcases half with same | half
    · omega
    · have behind := follows.behind
      have less : leap < k + 2 := by
        apply (Nat.pow_lt_pow_iff_right (a := 2) (by decide)).mp
        have fourfold : 2 ^ (k + 2) = 4 * 2 ^ k := by rw [Nat.pow_add]; omega
        omega
      have same : leap = k + 1 := by omega
      rw [same] at half
      omega
  have around := path_add cycle (2 ^ k - early)
  have turned : early + p + (2 ^ k - early) = i + 1 := by omega
  have wait : early + (2 ^ k - early) = mark := by omega
  rw [turned, wait, here, follows.tortoise] at around
  exact apart (Option.some.inj around).symm

variable (hop looped start fst) in
/-- The search ends, and what it returns is right. -/
lemma search_right (k : Nat) (places : Finset Place)
    (isIn : ∀ i place, path hop start i = some place → place ∈ places) (few : places.card ≤ 2 ^ k)
    (above : fst ≤ k) (room : 2 ^ (k + 1) < wordSize) : ∃ n res, (∀ more, n ≤ more →
      search hop looped wordSize more (initial start (2 ^ fst)) = some res) ∧ Right hop looped start res := by
  have begins : Follows hop start fst (k + 1) 0 0 (initial start (2 ^ fst)) := follows_initial start fst (k + 1)
  -- It is enough that some round does not go on.
  have enough (n : Nat) (stuck : ∀ mark st, Follows hop start fst (k + 1) n mark st →
      ∀ post, round hop looped wordSize st ≠ .ok post) : ∃ n res, (∀ more, n ≤ more →
      search hop looped wordSize more (initial start (2 ^ fst)) = some res) ∧ Right hop looped start res := by
    rcases begins.run room n with ⟨res, found, right⟩ | ⟨mark, st, next, rest⟩
    · exact ⟨n, res, fun more le => search_mono found le, right⟩
    · rw [Nat.zero_add] at next
      cases step : round hop looped wordSize st with
      | error res =>
        have found : search hop looped wordSize (n + 1) (initial start (2 ^ fst)) = some res := by
          rw [rest 1]
          simp [search, step]
        exact ⟨n + 1, res, fun more le => search_mono found le, next.right step⟩
      | ok post => exact absurd step (stuck mark st next post)
  rcases endless_or_ends hop start with endless | ⟨res, i, place, here, stop⟩
  · obtain ⟨early, late, pre, small, cycle⟩ := endless.repeats places isIn
    apply enough (2 ^ k + (late - early) - 1)
    intro mark st next post
    apply next.meets early (late - early) (by omega) above (by omega) (by omega) (by omega)
    rw [Nat.add_sub_cancel' (Nat.le_of_lt pre)]
    exact cycle
  · apply enough i
    intro mark st next post goes
    have same : st.place = place := by
      have there := next.place
      rw [here] at there
      exact (Option.some.inj there).symm
    obtain ⟨onward, -⟩ := round_ok goes
    rw [same, stop] at onward
    cases onward

end

end CycleSearch
