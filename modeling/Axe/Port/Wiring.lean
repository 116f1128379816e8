import Axe.Instruction.Decode
import Axe.Library.Backlinks
import Axe.Library.Runs

/-! How ports and clock blocks are wired to each other. Every wire is kept at both of its ends: by a
pointer at one of them and by membership in a set at the other. -/

namespace Axe

open Function

open Backlinks (mark unlist)

/-- The wires of all ports and clock blocks, a column for each field; sets are given by their members. -/
structure Wiring (P C : Type) where
  portInUse : P → Bool
  portWidth : P → Nat
  clock : P → C
  readyOutOf : P → Option P
  readyOutPorts : P → P → Bool
  sourceOf : P → C → Bool
  readyInOf : P → C → Bool
  clockInUse : C → Bool
  source : C → Option P
  readyIn : C → Option P
  divide : C → Nat
  ports : C → P → Bool

inductive WiringOp (P C : Type) where
  | setClk (p : P) (c : C)
  | setSource (c : C) (p : P)
  | setSourceRefClock (c : C)
  | setReady (q p : P)
  | setClockReady (c : C) (p : P)
  | setCInUse (p : P) (val : Bool)
  | setClockCInUse (c : C) (val : Bool)
  | setDivide (c : C) (newDivide : BitVec 8)

namespace Wiring

variable {P C : Type} [DecidableEq P] [DecidableEq C] (w : Wiring P C)

/-! ### Ports -/

def setClk (p : P) (c : C) : Wiring P C :=
  { w with
    clock := update w.clock p c
    ports := mark (mark w.ports (w.clock p) p false) c p true }

/-- A port that was ready-out of some port before is detached from the new one. -/
def setReady (q p : P) : Wiring P C :=
  if w.portWidth q ≠ 1 then w
  else
    let readyOutPorts :=
      if (w.readyOutOf q).isSome then mark w.readyOutPorts p q false else w.readyOutPorts
    { w with
      readyOutOf := update w.readyOutOf q (some p)
      readyOutPorts := mark readyOutPorts p q true }

def setCInUse (p : P) (val : Bool) : Wiring P C :=
  let w := { w with portInUse := update w.portInUse p val }
  if val then
    { w with
      readyOutOf := update w.readyOutOf p none
      readyOutPorts := unlist w.readyOutOf w.readyOutPorts p }
  else w

/-! ### Clock blocks -/

def setSource (c : C) (p : P) : Wiring P C :=
  if w.divide c ≠ 1 then w
  else
    { w with
      source := update w.source c (some p)
      sourceOf := mark (unlist w.source w.sourceOf c) p c true }

def setSourceRefClock (c : C) : Wiring P C :=
  { w with
    source := update w.source c none
    sourceOf := unlist w.source w.sourceOf c }

def setClockReady (c : C) (p : P) : Wiring P C :=
  if w.portWidth p ≠ 1 then w
  else
    { w with
      readyIn := update w.readyIn c (some p)
      readyInOf := mark (unlist w.readyIn w.readyInOf c) p c true }

def setClockCInUse (c : C) (val : Bool) : Wiring P C :=
  let w :=
    { w with
      divide := update w.divide c 1
      readyIn := update w.readyIn c none
      readyInOf := unlist w.readyIn w.readyInOf c }
  { w.setSourceRefClock c with clockInUse := update w.clockInUse c val }

def setDivide (type : NodeType) (c : C) (newDivide : BitVec 8) : Wiring P C :=
  if (w.source c).isSome ∧ type ≠ .xs2A then w
  else
    let divide := if newDivide = 0 then 1 else 2 * newDivide.toNat
    { w with divide := update w.divide c divide }

/-! ### Instructions -/

/-- An instruction checks that the resources it names are in use, but for the clock block of a port; one that fails
changes nothing. -/
def step (type : NodeType) : WiringOp P C → Wiring P C
  | .setClk p c => if w.portInUse p then w.setClk p c else w
  | .setSource c p =>
    if w.clockInUse c && w.portInUse p && w.portWidth p == 1 then w.setSource c p else w
  | .setSourceRefClock c => if w.clockInUse c then w.setSourceRefClock c else w
  | .setReady q p => if w.portInUse q && w.portInUse p then w.setReady q p else w
  | .setClockReady c p => if w.clockInUse c && w.portInUse p then w.setClockReady c p else w
  | .setCInUse p val => w.setCInUse p val
  | .setClockCInUse c val => w.setClockCInUse c val
  | .setDivide c newDivide => if w.clockInUse c then w.setDivide type c newDivide else w

structure Paired : Prop where
  readyOut : ∀ p q, w.readyOutPorts p q = true ↔ w.readyOutOf q = some p
  source : ∀ p c, w.sourceOf p c = true ↔ w.source c = some p
  readyIn : ∀ p c, w.readyInOf p c = true ↔ w.readyIn c = some p
  clock : ∀ p c, w.ports c p = true ↔ w.clock p = c

structure Initial (clkBlk0 : C) : Prop where
  clock : ∀ p, w.clock p = clkBlk0
  ports : ∀ c p, w.ports c p = true ↔ c = clkBlk0
  readyOut : ∀ p q, w.readyOutOf q = none ∧ w.readyOutPorts p q = false
  source : ∀ p c, w.source c = none ∧ w.sourceOf p c = false
  readyIn : ∀ p c, w.readyIn c = none ∧ w.readyInOf p c = false

/-- A port is made ready-out of another only if it is not ready-out of a third one. -/
def KeepsReadyOut : WiringOp P C → Prop
  | .setReady q p =>
    w.portInUse q = true → w.portInUse p = true → w.portWidth q = 1 →
      ∀ old, w.readyOutOf q = some old → old = p
  | _ => True

variable {w}

omit [DecidableEq P] [DecidableEq C] in
lemma Initial.paired {clkBlk0 : C} (init : w.Initial clkBlk0) : w.Paired := by
  constructor
  · intro p q
    simp [init.readyOut p q]
  · intro p c
    simp [init.source p c]
  · intro p c
    simp [init.readyIn p c]
  · intro p c
    rw [init.ports, init.clock]
    exact eq_comm

section

variable (paired : w.Paired)

include paired

lemma Paired.setClk (p : P) (c : C) : (w.setClk p c).Paired := by
  -- A port always has a clock block, so the pointer is never empty.
  have links : Backlinks.Paired (fun p => some (w.clock p)) w.ports := by
    intro p c
    rw [paired.clock, Option.some.injEq]
  have moved := links.redirect p c
  refine ⟨paired.readyOut, paired.source, paired.readyIn, fun p' c' => ?_⟩
  have mem : (mark (mark w.ports (w.clock p) p false) c p true) c' p' = true ↔
      update (fun p => some (w.clock p)) p (some c) p' = some c' := moved p' c'
  unfold Wiring.setClk
  dsimp only
  rw [mem, update_apply, update_apply]
  split <;> rw [Option.some.injEq]

lemma Paired.setSourceRefClock (c : C) : (w.setSourceRefClock c).Paired :=
  have links : Backlinks.Paired w.source w.sourceOf := fun c p => paired.source p c
  ⟨paired.readyOut, fun p c' => links.clear c c' p, paired.readyIn, paired.clock⟩

lemma Paired.setSource (c : C) (p : P) : (w.setSource c p).Paired := by
  have links : Backlinks.Paired w.source w.sourceOf := fun c p => paired.source p c
  unfold Wiring.setSource
  split
  · exact paired
  · exact ⟨paired.readyOut, fun p' c' => links.redirect c p c' p', paired.readyIn, paired.clock⟩

lemma Paired.setClockReady (c : C) (p : P) : (w.setClockReady c p).Paired := by
  have links : Backlinks.Paired w.readyIn w.readyInOf := fun c p => paired.readyIn p c
  unfold Wiring.setClockReady
  split
  · exact paired
  · exact ⟨paired.readyOut, paired.source, fun p' c' => links.redirect c p c' p', paired.clock⟩

lemma Paired.setClockCInUse (c : C) (val : Bool) : (w.setClockCInUse c val).Paired :=
  have sources : Backlinks.Paired w.source w.sourceOf := fun c p => paired.source p c
  have readyIns : Backlinks.Paired w.readyIn w.readyInOf := fun c p => paired.readyIn p c
  ⟨paired.readyOut, fun p c' => sources.clear c c' p, fun p c' => readyIns.clear c c' p, paired.clock⟩

omit [DecidableEq C] in
lemma Paired.setCInUse (p : P) (val : Bool) : (w.setCInUse p val).Paired := by
  have links : Backlinks.Paired w.readyOutOf w.readyOutPorts := fun q p => paired.readyOut p q
  unfold Wiring.setCInUse
  split
  · exact ⟨fun p' q => links.clear p q p', paired.source, paired.readyIn, paired.clock⟩
  · exact ⟨paired.readyOut, paired.source, paired.readyIn, paired.clock⟩

omit [DecidableEq P] in
lemma Paired.setDivide (type : NodeType) (c : C)
    (newDivide : BitVec 8) : (w.setDivide type c newDivide).Paired := by
  unfold Wiring.setDivide
  split
  · exact paired
  · exact ⟨paired.readyOut, paired.source, paired.readyIn, paired.clock⟩

omit [DecidableEq C] in
lemma Paired.setReady_iff (q p : P) :
    (w.setReady q p).Paired ↔ (w.portWidth q = 1 → ∀ old, w.readyOutOf q = some old → old = p) := by
  have links : Backlinks.Paired w.readyOutOf w.readyOutPorts := fun q p => paired.readyOut p q
  unfold Wiring.setReady
  split
  · rename_i wide
    exact iff_of_true paired fun narrow => absurd narrow wide
  · rename_i narrow
    have narrow : w.portWidth q = 1 := Decidable.not_not.mp narrow
    cases ps : w.readyOutOf q with
    | none =>
      have moved := links.redirect q p
      unfold unlist at moved
      rw [ps] at moved
      refine iff_of_true ⟨fun p' q' => moved q' p', paired.source, paired.readyIn, paired.clock⟩ ?_
      nofun
    | some old =>
      have moved := links.misdirect_iff ps p
      constructor
      · intro post _ other same
        obtain rfl := Option.some.inj same
        exact moved.mp fun q' p' => post.readyOut p' q'
      · intro keeps
        have post := moved.mpr (keeps narrow old rfl)
        exact ⟨fun p' q' => post q' p', paired.source, paired.readyIn, paired.clock⟩

omit [DecidableEq P] [DecidableEq C] in
lemma Paired.ite {post : Wiring P C} (done : post.Paired) (checked : Bool) :
    (if checked then post else w).Paired := by
  split
  · exact done
  · exact paired

lemma Paired.step_iff (type : NodeType)
    (op : WiringOp P C) : (w.step type op).Paired ↔ w.KeepsReadyOut op := by
  unfold Wiring.step KeepsReadyOut
  cases op with
  | setReady q p =>
    dsimp only
    split
    · rename_i inUse
      obtain ⟨used, usedToo⟩ := Bool.and_eq_true_iff.mp inUse
      rw [paired.setReady_iff]
      simp [used, usedToo]
    · rename_i unused
      refine iff_of_true paired fun used usedToo => ?_
      exact absurd (Bool.and_eq_true_iff.mpr ⟨used, usedToo⟩) unused
  | setClk p c => exact iff_of_true (paired.ite (paired.setClk p c) _) trivial
  | setSource c p => exact iff_of_true (paired.ite (paired.setSource c p) _) trivial
  | setSourceRefClock c => exact iff_of_true (paired.ite (paired.setSourceRefClock c) _) trivial
  | setClockReady c p => exact iff_of_true (paired.ite (paired.setClockReady c p) _) trivial
  | setCInUse p val => exact iff_of_true (paired.setCInUse p val) trivial
  | setClockCInUse c val => exact iff_of_true (paired.setClockCInUse c val) trivial
  | setDivide c newDivide => exact iff_of_true (paired.ite (paired.setDivide type c newDivide) _) trivial

end

/-- The ends of all wires agree throughout a run exactly when no ready-out port is moved directly from one port to
another. -/
theorem always_paired_iff (type : NodeType) (w : Wiring P C) (clkBlk0 : C) (initial : w.Initial clkBlk0)
    (ops : List (WiringOp P C)) : (∀ passed, passed <+: ops → (passed.foldl (step · type) w).Paired) ↔
      Runs.Meets (step · type) KeepsReadyOut w ops :=
  have nil (w : Wiring P C) (op : WiringOp P C) : True → True → KeepsReadyOut w op → True :=
    fun _ _ _ => trivial
  Runs.always_iff_meets nil (fun _ op _ _ paired => paired.step_iff type op) w ops
    (Runs.meets_true w ops) trivial initial.paired

def threePorts : Wiring (Fin 3) Unit where
  portInUse _ := false
  portWidth _ := 1
  clock _ := ()
  readyOutOf _ := none
  readyOutPorts _ _ := false
  sourceOf _ _ := false
  readyInOf _ _ := false
  clockInUse _ := false
  source _ := none
  readyIn _ := none
  divide _ := 1
  ports _ _ := true

lemma threePorts_initial : threePorts.Initial () :=
  ⟨fun _ => rfl, fun _ _ => ⟨fun _ => rfl, fun _ => rfl⟩, fun _ _ => ⟨rfl, rfl⟩, fun _ _ => ⟨rfl, rfl⟩,
    fun _ _ => ⟨rfl, rfl⟩⟩

def readyOutSet : List (WiringOp (Fin 3) Unit) :=
  [.setCInUse 0 true, .setCInUse 1 true, .setCInUse 2 true, .setReady 0 1]

theorem always_paired_readyOutSet : (readyOutSet.foldl (step · .xs1L) threePorts).Paired := by
  apply (always_paired_iff .xs1L threePorts () threePorts_initial readyOutSet).mpr _ readyOutSet List.prefix_rfl
  exact ⟨trivial, trivial, trivial, fun _ _ _ => nofun, trivial⟩

/-- Port 0 goes from port 1 to port 2 and is still listed by port 1. -/
theorem readyOut_stale :
    ¬∀ passed, passed <+: readyOutSet ++ [.setReady 0 2] → (passed.foldl (step · .xs1L) threePorts).Paired := by
  intro always
  have paired := always _ (List.prefix_refl _)
  have stale := (paired.readyOut 1 0).mp rfl
  cases stale

end Wiring

end Axe
