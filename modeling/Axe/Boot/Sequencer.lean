import Mathlib.Data.List.Basic

/-! The boot sequence, and what is left of it for a boot from SPI. -/

namespace Axe

inductive BootSequenceStep where
  | elf (core elfSector : Nat) (loadImage useElfEntryPoint : Bool)
  | schedule (core address : Nat)
  | run (numDoneSyscalls : Nat)
  deriving DecidableEq, Repr

namespace BootSequenceStep

def isRun : BootSequenceStep → Bool
  | .run _ => true
  | _ => false

def schedules (entryPoint : Nat → Nat) : BootSequenceStep → List (Nat × Nat)
  | .elf core elfSector _ useElfEntryPoint => if useElfEntryPoint then [(core, entryPoint elfSector)] else []
  | .schedule core address => [(core, address)]
  | .run _ => []

def isElfOf (core : Nat) : BootSequenceStep → Bool
  | .elf c _ _ _ => c == core
  | _ => false

def address (romBase : Nat → Nat) : BootSequenceStep → Nat
  | .elf core _ _ _ => romBase core
  | .schedule _ address => address
  | .run _ => 0

def names (core : Nat) : BootSequenceStep → Bool
  | .elf c _ _ _ | .schedule c _ => c == core
  | .run _ => false

end BootSequenceStep

abbrev BootSequence := List BootSequenceStep

namespace BootSequencer

open BootSequenceStep

/-- The loop of `getPenultimateRunStep`; positions count from the beginning, and the end is the length. -/
def getPenultimateRunStepFrom (steps : BootSequence) : (it cnt : Nat) → Nat
  | 0, _ => steps.length
  | it + 1, cnt =>
    if (steps[it]?.any isRun) = true then if cnt + 1 = 2 then it else getPenultimateRunStepFrom steps it (cnt + 1)
    else getPenultimateRunStepFrom steps it cnt

def getPenultimateRunStep (steps : BootSequence) : Nat := getPenultimateRunStepFrom steps steps.length 0

def eraseAllButLastImage (steps : BootSequence) : BootSequence :=
  let eraseTo := getPenultimateRunStep steps
  if eraseTo = steps.length then steps else steps.drop eraseTo

def setEntryPointToRom (romBase : Nat → Nat) (steps : BootSequence) : BootSequence :=
  steps.flatMap fun
    | .elf core elfSector loadImage _ => [.elf core elfSector loadImage false, .schedule core (romBase core)]
    | step => [step]

def setLoadImages (value : Bool) (steps : BootSequence) : BootSequence :=
  steps.map fun
    | .elf core elfSector _ useElfEntryPoint => .elf core elfSector value useElfEntryPoint
    | step => step

def adjustForSPIBoot (romBase : Nat → Nat) (steps : BootSequence) : BootSequence :=
  setLoadImages false (setEntryPointToRom romBase (eraseAllButLastImage steps))

/-- The steps after the second-to-last RUN step, or all of them if there is only one. -/
inductive IsLastImage : BootSequence → BootSequence → Prop
  | only {steps : BootSequence} (one : steps.countP isRun = 1) : IsLastImage steps steps
  | later (prior : BootSequence) (n : Nat) {rest : BootSequence} (one : rest.countP isRun = 1) :
    IsLastImage (prior ++ .run n :: rest) rest

/-- What is claimed of a boot from SPI. -/
structure BootsLastImage (romBase entryPoint : Nat → Nat) (steps : BootSequence) : Prop where
  image : IsLastImage steps (eraseAllButLastImage steps)
  oneRun : (eraseAllButLastImage steps).countP isRun = 1
  scheduled : ∀ rest, IsLastImage steps rest → ∀ core, rest.any (isElfOf core) →
    ((adjustForSPIBoot romBase steps).flatMap (schedules entryPoint)).filter (·.1 == core) = [(core, romBase core)]

/-- The search stops at the second RUN step that it comes to, with the steps behind it counted. -/
lemma getPenultimateRunStepFrom_spec {steps : BootSequence} {it cnt : Nat} (isIn : it ≤ steps.length)
    (counted : (steps.drop it).countP isRun = cnt) (few : cnt < 2) :
    if steps.countP isRun < 2 then getPenultimateRunStepFrom steps it cnt = steps.length
    else (steps.drop (getPenultimateRunStepFrom steps it cnt)).countP isRun = 2 := by
  induction it generalizing cnt with
  | zero =>
    rw [List.drop_zero] at counted
    rw [if_pos (counted ▸ few)]
    rfl
  | succ it ih =>
    have step : (steps.drop it).countP isRun = cnt + if steps[it].isRun then 1 else 0 := by
      rw [List.drop_eq_getElem_cons isIn, List.countP_cons, counted]
    simp only [getPenultimateRunStepFrom, List.getElem?_eq_getElem isIn, Option.any_some]
    by_cases run : steps[it].isRun = true
    · rw [if_pos run] at step
      by_cases snd : cnt + 1 = 2
      · have all := (List.drop_sublist it steps).countP_le (p := isRun)
        simp only [run, snd, if_true, if_neg (show ¬steps.countP isRun < 2 by omega), step]
      · simpa only [run, snd, if_true, if_false] using ih (Nat.le_of_succ_le isIn) step (by omega)
    · rw [if_neg run, Nat.add_zero] at step
      simpa only [run, Bool.false_eq_true, if_false] using ih (Nat.le_of_succ_le isIn) step few

/-- With two RUN steps or more, the one that the search has found stays. -/
lemma eraseAllButLastImage_spec (steps : BootSequence) :
    if steps.countP isRun < 2 then eraseAllButLastImage steps = steps
    else (eraseAllButLastImage steps).countP isRun = 2 := by
  have none : (steps.drop steps.length).countP isRun = 0 := by simp
  have spec := getPenultimateRunStepFrom_spec (Nat.le_refl _) none Nat.zero_lt_two
  by_cases few : steps.countP isRun < 2
  · rw [if_pos few] at spec ⊢
    exact if_pos spec
  · rw [if_neg few] at spec ⊢
    have found : getPenultimateRunStep steps ≠ steps.length := fun all => by
      rw [getPenultimateRunStep] at all
      simp [all] at spec
    rwa [eraseAllButLastImage, if_neg found]

/-- Every step for the core schedules it once, at the ROM base unless it is a SCHEDULE step. -/
lemma schedules_fromRom (romBase entryPoint : Nat → Nat) (core : Nat) (steps : BootSequence) :
    ((setLoadImages false (setEntryPointToRom romBase steps)).flatMap (schedules entryPoint)).filter (·.1 == core) =
      (steps.filter (names core)).map fun step => (core, step.address romBase) := by
  induction steps with
  | nil => rfl
  | cons step steps ih =>
    simp only [setLoadImages, setEntryPointToRom] at ih
    cases step with
    | run n => simpa [setLoadImages, setEntryPointToRom, schedules, names] using ih
    | elf c | schedule c =>
      by_cases same : c = core
      · simpa [setLoadImages, setEntryPointToRom, schedules, names, address, same] using ih
      · simpa [setLoadImages, setEntryPointToRom, schedules, names, same] using ih

lemma IsLastImage.eq_of_one {steps rest : BootSequence} (last : IsLastImage steps rest)
    (one : steps.countP isRun = 1) : rest = steps := by
  cases last with
  | only => rfl
  | later prior n oneLater =>
    simp [List.countP_cons, isRun] at one
    omega

/-- A boot from SPI goes right for a sequence with one RUN step in which no core of an image has another ELF step or
a SCHEDULE step. -/
theorem bootsLastImage_iff (romBase entryPoint : Nat → Nat) (steps : BootSequence) (some : 1 ≤ steps.countP isRun) :
    BootsLastImage romBase entryPoint steps ↔
      steps.countP isRun = 1 ∧ ∀ core, steps.any (isElfOf core) → steps.countP (names core) = 1 := by
  have spec := eraseAllButLastImage_spec steps
  constructor
  · rintro ⟨-, oneRun, scheduled⟩
    have one : steps.countP isRun = 1 := by
      split at spec <;> omega
    rw [if_pos (by omega)] at spec
    refine ⟨one, fun core image => ?_⟩
    have once := congrArg List.length (scheduled steps (.only one) core image)
    rwa [adjustForSPIBoot, schedules_fromRom, spec, List.length_map, ← List.countP_eq_length_filter] at once
  · rintro ⟨one, once⟩
    rw [if_pos (by omega)] at spec
    refine ⟨spec.symm ▸ .only one, spec.symm ▸ one, fun rest last core image => ?_⟩
    rw [last.eq_of_one one] at image
    obtain ⟨step, only⟩ := List.length_eq_one_iff.1 (List.countP_eq_length_filter ▸ once core image)
    obtain ⟨elf, member, isElf⟩ := List.any_eq_true.1 image
    cases elf with
    | run | schedule => nomatch isElf
    | elf c sector load use =>
      obtain rfl : c = core := beq_iff_eq.1 isElf
      have : BootSequenceStep.elf c sector load use ∈ steps.filter (names c) :=
        List.mem_filter.2 ⟨member, beq_self_eq_true c⟩
      rw [only, List.mem_singleton] at this
      rw [adjustForSPIBoot, spec, schedules_fromRom, only, ← this]
      rfl

/-- Two images, of which the first is to be run before the second is loaded. -/
theorem earlier_run_stays :
    ¬BootsLastImage (fun _ => 0) (fun _ => 0) [.elf 0 0 true true, .run 1, .elf 0 1 true true, .run 1] :=
  fun right => absurd right.oneRun (by decide)

theorem one_image_boots :
    BootsLastImage (fun _ => 0xffffc000) (fun _ => 0x10000) [.elf 0 0 true true, .elf 1 1 true true, .run 2] :=
  (bootsLastImage_iff _ _ _ (by decide)).2 ⟨by decide, fun core image => by
    simp [isElfOf] at image
    rcases image with rfl | rfl <;> decide⟩

end BootSequencer

end Axe
