import Mathlib.Logic.Basic

/-! Places that refer to names, and the names that are live. Names and places are
arbitrary. -/

structure References (Name Place : Type) where
  live : Name → Prop
  refers : Place → Name → Prop

namespace References

variable {Name Place : Type}

def Sound (refs : References Name Place) : Prop := ∀ place name, refs.refers place name → refs.live name

/-- A step keeps the references sound when it copies references or makes them to live
names, and ends the life only of names that nothing refers to afterwards. -/
lemma Sound.step {pre post : References Name Place} (sound : pre.Sound)
    (copied : ∀ place name, post.refers place name → (∃ origin, pre.refers origin name) ∨ post.live name)
    (kept : ∀ place name, post.refers place name → pre.live name → post.live name) : post.Sound := by
  intro place name ref
  rcases copied place name ref with ⟨origin, pre⟩ | live
  · exact kept place name ref (sound origin name pre)
  · exact live

end References
