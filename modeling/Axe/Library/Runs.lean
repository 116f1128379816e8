import Mathlib.Data.List.Basic

/-! Runs of a machine given by a total step function, and the guards its
labels meet along the way. A run is a left fold, so every prefix of a run is a
run and a fact proved of all final states is a fact about every state passed. -/

namespace Runs

variable {State Label : Type*}

/-- Every label of the list meets the guard in the state in which it is taken. -/
def Meets (step : State → Label → State) (guard : State → Label → Prop) : State → List Label → Prop
  | _, [] => True
  | st, lbl :: labels => guard st lbl ∧ Meets step guard (step st lbl) labels

variable {step : State → Label → State} {guard : State → Label → Prop}

instance decidableMeets [∀ st lbl, Decidable (guard st lbl)] :
    ∀ st labels, Decidable (Meets step guard st labels)
  | _, [] => isTrue trivial
  | st, lbl :: labels =>
    have := decidableMeets (step st lbl) labels
    inferInstanceAs (Decidable (guard st lbl ∧ Meets step guard (step st lbl) labels))

@[simp] lemma meets_nil (st : State) : Meets step guard st [] := trivial

@[simp] lemma meets_cons (st : State) (lbl : Label) (labels : List Label) :
    Meets step guard st (lbl :: labels) ↔ guard st lbl ∧ Meets step guard (step st lbl) labels := Iff.rfl

lemma meets_append (st : State) (fst snd : List Label) : Meets step guard st (fst ++ snd) ↔
      Meets step guard st fst ∧ Meets step guard (fst.foldl step st) snd := by
  induction fst generalizing st with
  | nil => simp
  | cons lbl labels ih => simp [ih, and_assoc]

variable {st : State} {labels : List Label}

/-- A guard that holds of every label after what comes before it is met. -/
lemma meets_of_prefix
    (holds : ∀ prior lbl, prior ++ [lbl] <+: labels → guard (prior.foldl step st) lbl) :
    Meets step guard st labels := by
  induction labels generalizing st with
  | nil => trivial
  | cons lbl labels ih =>
    refine ⟨holds [] lbl (by simp), ih fun prior other isPrefix => ?_⟩
    exact holds (lbl :: prior) other (by simpa using isPrefix)

lemma Meets.and {other : State → Label → Prop}
    (meets : Meets step guard st labels) (meetsOther : Meets step other st labels) :
    Meets step (fun st lbl => guard st lbl ∧ other st lbl) st labels := by
  induction labels generalizing st with
  | nil => trivial
  | cons lbl labels ih => exact ⟨⟨meets.1, meetsOther.1⟩, ih meets.2 meetsOther.2⟩

lemma Meets.mono {other : State → Label → Prop}
    (meets : Meets step guard st labels) (weaker : ∀ st lbl, guard st lbl → other st lbl) :
    Meets step other st labels := by
  induction labels generalizing st with
  | nil => trivial
  | cons lbl labels ih => exact ⟨weaker st lbl meets.1, ih meets.2⟩

/-- A run written down with the states it passes: each step meets the guard and leads to the next state. -/
def Traced (step : State → Label → State) (guard : State → Label → Prop) : State → List (Label × State) → Prop
  | _, [] => True
  | st, (lbl, next) :: rest => guard st lbl ∧ step st lbl = next ∧ Traced step guard next rest

lemma Traced.meets {script : List (Label × State)} (tr : Traced step guard st script) :
    Meets step guard st (script.map Prod.fst) := by
  induction script generalizing st with
  | nil => trivial
  | cons entry rest ih =>
    obtain ⟨lbl, next⟩ := entry
    obtain ⟨met, rfl, tr⟩ := tr
    exact ⟨met, ih tr⟩

lemma Traced.reaches {script : List (Label × State)} (tr : Traced step guard st script) :
    (script.map Prod.fst).foldl step st = (script.map Prod.snd).getLastD st := by
  induction script generalizing st with
  | nil => rfl
  | cons entry rest ih =>
    obtain ⟨lbl, next⟩ := entry
    obtain ⟨-, rfl, tr⟩ := tr
    simp only [List.map_cons, List.foldl_cons, ih tr]
    cases rest <;> rfl

lemma Meets.invariant {inv : State → Prop}
    (kept : ∀ st lbl, inv st → guard st lbl → inv (step st lbl))
    (meets : Meets step guard st labels) (init : inv st) : inv (labels.foldl step st) := by
  induction labels generalizing st with
  | nil => exact init
  | cons lbl labels ih => exact ih meets.2 (kept st lbl init meets.1)

def collect {Item : Type*} (step : State → Label → State) (emit : State → Label → List Item) :
    State → List Label → List Item
  | _, [] => []
  | st, lbl :: labels => emit st lbl ++ collect step emit (step st lbl) labels

lemma collect_append {Item : Type*} (emit : State → Label → List Item) (st : State) (fst snd : List Label) :
    collect step emit st (fst ++ snd) =
      collect step emit st fst ++ collect step emit (fst.foldl step st) snd := by
  induction fst generalizing st with
  | nil => rfl
  | cons lbl labels ih => simp [collect, ih]

lemma invariant {inv : State → Prop} (kept : ∀ st lbl, inv st → inv (step st lbl))
    (init : inv st) (labels : List Label) : inv (labels.foldl step st) := by
  induction labels generalizing st with
  | nil => exact init
  | cons lbl labels ih => exact ih (kept st lbl init)

/-- If each guarded step keeps what was taken and what is stored in balance with what was
delivered, so does each guarded run. -/
lemma Meets.balance {Item : Type*} (inv : State → Prop) {taken sent : State → Label → List Item}
    (put : State → List Item) (kept : ∀ st lbl, inv st → guard st lbl → inv (step st lbl))
    (balance : ∀ st lbl, inv st → guard st lbl →
      taken st lbl ++ put (step st lbl) = put st ++ sent st lbl)
    (meets : Meets step guard st labels) (init : inv st) :
    collect step taken st labels ++ put (labels.foldl step st) =
      put st ++ collect step sent st labels := by
  induction labels generalizing st with
  | nil => simp [collect]
  | cons lbl labels ih =>
    have rest := ih meets.2 (kept st lbl init meets.1)
    simp only [collect, List.foldl_cons, List.append_assoc]
    rw [rest, ← List.append_assoc, balance st lbl init meets.1, List.append_assoc]

lemma meets_true (st : State) (labels : List Label) : Meets step (fun _ _ => True) st labels := by
  induction labels generalizing st with
  | nil => trivial
  | cons lbl labels ih => exact ⟨trivial, ih _⟩

lemma collect_balance {Item : Type*} (inv : State → Prop) {taken sent : State → Label → List Item}
    (put : State → List Item) (preserved : ∀ st lbl, inv st → inv (step st lbl))
    (balance : ∀ st lbl, inv st →
      taken st lbl ++ put (step st lbl) = put st ++ sent st lbl)
    (init : inv st) (labels : List Label) :
    collect step taken st labels ++ put (labels.foldl step st) =
      put st ++ collect step sent st labels :=
  Meets.balance inv put (fun st lbl kept _ => preserved st lbl kept)
    (fun st lbl kept _ => balance st lbl kept) (meets_true st labels) init

/-- Where an admissible step keeps the property exactly when it meets the guard, and what is
known of the states is kept by such steps, an admissible run has the property in every state
it passes exactly when all its labels meet the guard. -/
lemma always_iff_meets {inv prop : State → Prop} {legal : State → Label → Prop}
    (kept : ∀ st lbl, inv st → legal st lbl → guard st lbl → inv (step st lbl))
    (exactly : ∀ st lbl, inv st → legal st lbl → prop st →
      (prop (step st lbl) ↔ guard st lbl))
    (st : State) (labels : List Label) (run : Meets step legal st labels)
    (init : inv st) (holds : prop st) :
    (∀ passed, passed <+: labels → prop (passed.foldl step st)) ↔ Meets step guard st labels := by
  induction labels generalizing st with
  | nil => simp [holds]
  | cons lbl labels ih =>
    have fst := exactly st lbl init run.1 holds
    have later (met : guard st lbl) := ih _ run.2 (kept st lbl init run.1 met)
    constructor
    · intro always
      have next : prop (step st lbl) := always [lbl] (by simp)
      have met := fst.mp next
      refine ⟨met, (later met next).mp fun passed isPrefix => ?_⟩
      exact always (lbl :: passed) (by simpa using isPrefix)
    · rintro ⟨met, rest⟩ passed isPrefix
      cases passed with
      | nil => exact holds
      | cons head passed =>
        obtain ⟨rfl, lt⟩ := List.cons_prefix_cons.mp isPrefix
        exact (later met (fst.mpr met)).mpr rest passed lt

end Runs
