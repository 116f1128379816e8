import Axe.Library.Runs
import Mathlib

/-! The RUN steps of a boot sequence, which end when enough cores have made the done system call. -/

namespace Axe

variable {Core : Type} [DecidableEq Core]

/-- The part of a `SyscallHandler` that lives across RUN steps. -/
structure DoneSyscalls (Core : Type) where
  doneSyscallsRequired : Nat := 1
  doneSyscallsSeen : Finset Core := ∅

inductive SyscallOutcome where
  | CONTINUE
  | EXIT (retval : Nat)
  deriving DecidableEq, Repr

namespace DoneSyscalls

def setDoneSyscallsRequired (handler : DoneSyscalls Core) (count : Nat) : DoneSyscalls Core :=
  { handler with doneSyscallsRequired := count }

def doOsCallDone (handler : DoneSyscalls Core) (core : Core) : DoneSyscalls Core × SyscallOutcome :=
  if core ∈ handler.doneSyscallsSeen then (handler, .CONTINUE)
  else
    let required := (handler.doneSyscallsRequired + 2 ^ 32 - 1) % 2 ^ 32
    if required = 0 then ({ doneSyscallsRequired := required, doneSyscallsSeen := ∅ }, .EXIT 0)
    else ({ doneSyscallsRequired := required, doneSyscallsSeen := insert core handler.doneSyscallsSeen }, .CONTINUE)

end DoneSyscalls

/-- Where the sequence is: in a RUN step that requires `n` done calls and in which the cores in `called` have made
one, between two steps, or at its end. -/
inductive BootPhase (Core : Type) where
  | running (n : Nat) (called : Finset Core)
  | between
  | ended

structure BootRun (Core : Type) where
  handler : DoneSyscalls Core := {}
  phase : BootPhase Core := .between

/-- What happens in a boot sequence. A RUN step is also left by an exit call, an exception and when no thread can
run, with the status that `executeAux` returns. -/
inductive BootLabel (Core : Type) where
  | run (numDoneSyscalls : Nat)
  | done (core : Core)
  | leave (status : Nat)

namespace BootRun

/-- A status other than zero ends the sequence. -/
def left (status : Nat) : BootPhase Core := if status = 0 then .between else .ended

def act (st : BootRun Core) : BootLabel Core → BootRun Core
  | .run numDoneSyscalls =>
    match st.phase with
    | .between => ⟨st.handler.setDoneSyscallsRequired numDoneSyscalls, .running numDoneSyscalls ∅⟩
    | _ => st
  | .done core =>
    match st.phase with
    | .running n called =>
      match st.handler.doOsCallDone core with
      | (handler, .EXIT retval) => ⟨handler, left retval⟩
      | (handler, .CONTINUE) => ⟨handler, .running n (insert core called)⟩
    | _ => st
  | .leave status =>
    match st.phase with
    | .running _ _ => { st with phase := left status }
    | _ => st

/-- A done call in a RUN step ends it exactly if it makes the number of the cores that have called since the step
started the number that is required. -/
def DoneRight (st : BootRun Core) : BootLabel Core → Prop
  | .done core => ∀ n called, st.phase = .running n called →
    ((∃ retval, (st.handler.doOsCallDone core).2 = .EXIT retval) ↔ (insert core called).card = n)
  | _ => True

/-- A RUN step starts with no core remembered, and requires some done calls, as many as a word can hold. -/
def Fresh (st : BootRun Core) : BootLabel Core → Prop
  | .run n => st.handler.doneSyscallsSeen = ∅ ∧ 0 < n ∧ n < 2 ^ 32
  | _ => True

/-- The handler has seen the calls of the RUN step, and counts down from the number required. -/
def Counts (st : BootRun Core) : Prop :=
  ∀ n called, st.phase = .running n called → st.handler.doneSyscallsSeen = called ∧
    called.card + st.handler.doneSyscallsRequired = n ∧ called.card < n ∧ n < 2 ^ 32

lemma doOsCallDone_spec {hdlr : DoneSyscalls Core} {n : Nat} (core : Core)
    (cnt : hdlr.doneSyscallsSeen.card + hdlr.doneSyscallsRequired = n)
    (few : hdlr.doneSyscallsSeen.card < n) (word : n < 2 ^ 32) :
    if (insert core hdlr.doneSyscallsSeen).card = n then (hdlr.doOsCallDone core).2 = .EXIT 0
    else (hdlr.doOsCallDone core).2 = .CONTINUE ∧
      (hdlr.doOsCallDone core).1.doneSyscallsSeen = insert core hdlr.doneSyscallsSeen ∧
      (insert core hdlr.doneSyscallsSeen).card + (hdlr.doOsCallDone core).1.doneSyscallsRequired = n := by
  by_cases seen : core ∈ hdlr.doneSyscallsSeen
  · simp only [DoneSyscalls.doOsCallDone, if_pos seen, Finset.insert_eq_self.2 seen, if_neg few.ne]
    exact ⟨trivial, trivial, cnt⟩
  · have more := Finset.card_insert_of_notMem seen
    have required : (hdlr.doneSyscallsRequired + 2 ^ 32 - 1) % 2 ^ 32 = hdlr.doneSyscallsRequired - 1 := by omega
    simp only [DoneSyscalls.doOsCallDone, if_neg seen, more, required]
    split
    case isTrue last => rw [if_pos (by omega)]
    case isFalse =>
      rw [if_neg (by omega)]
      exact ⟨rfl, rfl, by dsimp only; omega⟩

lemma Counts.doneRight {st : BootRun Core} (counts : st.Counts) (label : BootLabel Core) :
    st.DoneRight label := by
  cases label with
  | run | leave => trivial
  | done core =>
    intro n call running
    obtain ⟨rfl, cnt, few, word⟩ := counts n call running
    have spec := doOsCallDone_spec core cnt few word
    split at spec
    case isTrue last => exact iff_of_true ⟨0, spec⟩ last
    case isFalse first => exact iff_of_false (fun ⟨retval, exits⟩ => nomatch spec.1.symm.trans exits) first

lemma Counts.act {st : BootRun Core} {label : BootLabel Core} (counts : st.Counts) (fresh : st.Fresh label) :
    (st.act label).Counts := by
  have none (hdlr : DoneSyscalls Core) (status : Nat) : (BootRun.mk hdlr (left status)).Counts :=
    fun n call running => by simp only [left] at running; split at running <;> nomatch running
  obtain ⟨hdlr, phase⟩ := st
  cases label with
  | run n =>
    cases phase with
    | running | ended => exact counts
    | between =>
      rintro _ _ ⟨⟩
      exact ⟨fresh.1, Nat.zero_add n, fresh.2⟩
  | leave status =>
    cases phase with
    | between | ended => exact counts
    | running => exact none hdlr status
  | done core =>
    cases phase with
    | between | ended => exact counts
    | running n call =>
      obtain ⟨same, cnt, few, word⟩ := counts n call rfl
      dsimp only at same cnt
      subst same
      have spec := doOsCallDone_spec core cnt few word
      generalize result : hdlr.doOsCallDone core = after at spec
      obtain ⟨after, outcome⟩ := after
      simp only [BootRun.act, result]
      split at spec
      case isTrue => cases spec; exact none after 0
      case isFalse first =>
        obtain ⟨rfl, seen, required⟩ := spec
        rintro _ _ ⟨⟩
        exact ⟨seen, required, by omega, word⟩

/-- As long as RUN steps start fresh, each ends through done exactly when enough cores have called. -/
theorem done_right (labels : List (BootLabel Core)) (fresh : Runs.Meets act Fresh {} labels) :
    Runs.Meets act DoneRight {} labels := by
  refine Runs.meets_of_prefix fun earlier label isPrefix => Counts.doneRight ?_ label
  obtain ⟨later, rfl⟩ := isPrefix
  rw [List.append_assoc, Runs.meets_append] at fresh
  exact fresh.1.invariant (fun _ _ => Counts.act) nofun

/-- Two RUN steps that require two done calls each, of which the first is left by an exit call after core 0 has made
one of them. -/
def exitBetween : List (BootLabel Nat) := [.run 2, .done 0, .leave 0, .run 2, .done 1, .done 0]

theorem done_forgotten : ¬Runs.Meets act DoneRight {} exitBetween := fun right => by
  obtain ⟨retval, exits⟩ := (right.2.2.2.2.2.1 2 {1} rfl).2 rfl
  nomatch exits

theorem done_twice : Runs.Meets act DoneRight {} [.run 2, .done 0, .done 0, .done 1, .run 1, BootLabel.done 0] :=
  done_right _ ⟨⟨rfl, by decide, by decide⟩, trivial, trivial, trivial, ⟨rfl, by decide, by decide⟩, trivial, trivial⟩

end BootRun

end Axe
