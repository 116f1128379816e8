import Mathlib.Logic.Function.Basic

/-! Pointers that are also kept at their targets. Each object points to at most one target,
and each target has a set of the objects that point to it. -/

namespace Backlinks

open Function

variable {A B : Type*} [DecidableEq A] [DecidableEq B]

def Paired (dst : A → Option B) (back : B → A → Bool) : Prop := ∀ a b, back b a = true ↔ dst a = some b

def mark (back : B → A → Bool) (b : B) (a : A) (listed : Bool) : B → A → Bool :=
  Function.update back b (Function.update (back b) a listed)

lemma mark_apply (back : B → A → Bool) (b b' : B) (a a' : A) (listed : Bool) :
    mark back b a listed b' a' = if b' = b ∧ a' = a then listed else back b' a' := by
  unfold mark
  by_cases sameTarget : b' = b
  · subst sameTarget
    by_cases same : a' = a
    · simp [same]
    · simp [same]
  · simp [sameTarget]

def unlist (dst : A → Option B) (back : B → A → Bool) (a : A) : B → A → Bool :=
  match dst a with
  | none => back
  | some b => mark back b a false

variable {dst : A → Option B} {back : B → A → Bool}

section

variable (paired : Paired dst back)
include paired

lemma Paired.unlist_apply (a a' : A) (b : B) : unlist dst back a b a' = true ↔ a' ≠ a ∧ dst a' = some b := by
  have listed := paired a' b
  unfold unlist
  cases ps : dst a with
  | none =>
    dsimp only
    rw [listed]
    refine ⟨fun ps' => ⟨?_, ps'⟩, And.right⟩
    rintro rfl
    cases ps.symm.trans ps'
  | some old =>
    dsimp only
    rw [mark_apply]
    split
    · rename_i here
      simp [here.2]
    · rename_i away
      rw [listed]
      refine ⟨fun ps' => ⟨?_, ps'⟩, And.right⟩
      rintro rfl
      exact away ⟨Option.some.inj (ps'.symm.trans ps), rfl⟩

lemma Paired.clear (a : A) : Paired (update dst a none) (unlist dst back a) := by
  intro a' b
  rw [paired.unlist_apply, update_apply]
  split <;> simp [*]

lemma Paired.redirect (a : A) (b : B) :
    Paired (update dst a (some b)) (mark (unlist dst back a) b a true) := by
  intro a' b'
  rw [mark_apply, update_apply]
  by_cases same : a' = a
  · subst same
    by_cases sameTarget : b' = b
    · simp [sameTarget]
    · have gone := paired.unlist_apply a' a' b'
      simp only [sameTarget, false_and, if_false, if_true, gone, ne_eq, not_true_eq_false, Option.some.injEq, false_iff]
      exact fun equal => sameTarget equal.symm
  · have kept := paired.unlist_apply a a' b'
    simp [same, kept]

/-- Point elsewhere without leaving the old set: that goes well only if the target stays the same. -/
lemma Paired.misdirect_iff {a : A} {old : B} (ps : dst a = some old) (b : B) :
    Paired (update dst a (some b)) (mark (mark back b a false) b a true) ↔ old = b := by
  constructor
  · intro after
    have listed : mark (mark back b a false) b a true old a = true := by
      rw [mark_apply, mark_apply]
      split
      · rfl
      · exact (paired a old).mpr ps
    have still := (after a old).mp listed
    rw [update_self] at still
    exact (Option.some.inj still).symm
  · rintro rfl
    have moved := paired.redirect a old
    unfold unlist at moved
    rw [ps] at moved
    exact moved

end

end Backlinks
