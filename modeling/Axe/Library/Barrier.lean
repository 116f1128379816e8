import Mathlib.Data.List.Nodup

/-! Members of a group that meet at a barrier, and the number of them that have
arrived. The members are a list without duplicates, over an arbitrary type. -/

namespace Barrier

open Function List

variable {Member : Type} {mems : List Member} {waits : Member → Bool} {t : Member}

def OthersWait (waits : Member → Bool) (mems : List Member) (t : Member) : Prop :=
  ∀ u ∈ mems, u ≠ t → waits u = true

lemma countP_congr {other : Member → Bool} (same : ∀ u ∈ mems, other u = waits u) :
    mems.countP other = mems.countP waits := by
  refine List.countP_congr fun u mem => ?_
  rw [same u mem]

lemma countP_lt_length (mem : t ∈ mems) (runs : waits t = false) : mems.countP waits < mems.length := by
  refine Nat.lt_of_le_of_ne countP_le_length fun all => ?_
  have wait := countP_eq_length.mp all t mem
  simp [runs] at wait

lemma countP_eq_zero (nobody : ∀ u ∈ mems, waits u = false) : mems.countP waits = 0 := by
  refine List.countP_eq_zero.mpr fun u mem => ?_
  simp [nobody u mem]

variable [DecidableEq Member]

instance (waits : Member → Bool) (mems : List Member) (t : Member) :
    Decidable (OthersWait waits mems t) :=
  inferInstanceAs (Decidable (∀ u ∈ mems, u ≠ t → waits u = true))

lemma countP_update_true (nodup : mems.Nodup) (mem : t ∈ mems) (runs : waits t = false) :
    mems.countP (update waits t true) = mems.countP waits + 1 := by
  induction mems with
  | nil => cases mem
  | cons first rest ih =>
    obtain ⟨new, nodup⟩ := nodup_cons.mp nodup
    by_cases here : t = first
    · subst here
      have others : rest.countP (update waits t true) = rest.countP waits := by
        refine countP_congr fun u inRest => ?_
        have apart : u ≠ t := fun same => new (same ▸ inRest)
        exact update_of_ne apart _ _
      simp [others, runs]
    · have inRest : t ∈ rest := (mem_cons.mp mem).resolve_left here
      have unmoved : update waits t true first = waits first := update_of_ne (Ne.symm here) _ _
      simp only [countP_cons, ih nodup inRest, unmoved]
      omega

lemma countP_update_false (nodup : mems.Nodup) (mem : t ∈ mems) (came : waits t = true) :
    mems.countP (update waits t false) + 1 = mems.countP waits := by
  have back : mems.countP (update (update waits t false) t true) =
      mems.countP (update waits t false) + 1 :=
    countP_update_true nodup mem (update_self _ _ _)
  rw [← back, update_idem, ← came, update_eq_self]

/-- The count tells a member whether it is the last to arrive. -/
lemma othersWait_iff (nodup : mems.Nodup) (mem : t ∈ mems) (runs : waits t = false) :
    OthersWait waits mems t ↔ ¬mems.countP waits + 1 < mems.length := by
  have came := countP_update_true nodup mem runs
  have bound := countP_lt_length mem runs
  have all : mems.countP (update waits t true) = mems.length ↔ OthersWait waits mems t := by
    rw [countP_eq_length]
    constructor
    · intro wait u inGroup other
      simpa [other] using wait u inGroup
    · intro wait u inGroup
      by_cases here : u = t
      · simp [here]
      · simpa [here] using wait u inGroup here
  rw [← all, came]
  omega

end Barrier
