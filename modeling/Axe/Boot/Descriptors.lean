import Axe.Library.Runs
import Mathlib.Data.Finset.Basic

/-! The table in which the system calls keep the host's descriptors for the files a guest has open. -/

namespace Axe

open Function

namespace SyscallHandler

def maxFds : Nat := 512

/-- The table; `none` stands for -1. -/
abbrev Fds := Nat → Option Nat

/-- The constructor, which is given the duplicates of the standard descriptors. -/
def new (stdin stdout stderr : Nat) : Fds := fun fd =>
  if fd = 0 then some stdin else if fd = 1 then some stdout else if fd = 2 then some stderr
  -- Three more descriptors are made to stand for the host's descriptor 0.
  else if fd < 6 then some 0 else none

def getNewFd (fds : Fds) : Option Nat := (List.range maxFds).find? fun fd => (fds fd).isNone

def isValidFd (fds : Fds) (fd : Nat) : Bool := fd < maxFds && (fds fd).isSome

def doOsCallOpen (fds : Fds) (host : Option Nat) : Fds × Option Nat :=
  match getNewFd fds, host with
  | some fd, some hostfd => (Function.update fds fd (some hostfd), some fd)
  | _, _ => (fds, none)

def doOsCallClose (fds : Fds) (hostClose : Nat → Bool) (fd : Nat) : Fds × Bool :=
  match fds fd with
  | some hostfd => if isValidFd fds fd && hostClose hostfd then (Function.update fds fd none, true) else (fds, false)
  | none => (fds, false)

end SyscallHandler

open SyscallHandler

/-- The handler with the open descriptors of the host, and the guest's that are open as it has been told. -/
structure DescriptorRun where
  fds : Fds
  hostOpen : Finset Nat
  guestOpen : Finset Nat

/-- The calls: what the host's `open` returns is `none` if it fails or if the path is not one. -/
inductive DescriptorCall where
  | open (host : Option Nat)
  | close (fd : Nat)

namespace DescriptorRun

def act (run : DescriptorRun) : DescriptorCall → DescriptorRun
  | .open host =>
    match doOsCallOpen run.fds host, host with
    | (fds, some fd), some hostfd => ⟨fds, insert hostfd run.hostOpen, insert fd run.guestOpen⟩
    -- A descriptor is asked for only after a free one has been found.
    | (fds, _), _ => { run with fds := fds }
  | .close fd =>
    match doOsCallClose run.fds (· ∈ run.hostOpen) fd with
    | (fds, true) => ⟨fds, run.hostOpen.erase ((run.fds fd).getD 0), run.guestOpen.erase fd⟩
    | (fds, false) => { run with fds := fds }

/-- The host does not give away a descriptor that is open. -/
def Admissible (run : DescriptorRun) : DescriptorCall → Prop
  | .open host => ∀ hostfd ∈ host, hostfd ∉ run.hostOpen
  | .close _ => True

/-- The descriptors that the constructor sets to 0. -/
def Stray (fd : Nat) : Prop := 3 ≤ fd ∧ fd < 6
  deriving Decidable

def Careful : DescriptorCall → Prop
  | .close fd => ¬Stray fd
  | .open _ => True

structure Initial (run : DescriptorRun) : Prop where
  fds : ∃ stdin stdout stderr, [0, stdin, stdout, stderr].Nodup ∧ run.fds = new stdin stdout stderr ∧
    ∀ host ∈ [0, stdin, stdout, stderr], host ∈ run.hostOpen
  guestOpen : run.guestOpen = {0, 1, 2}

/-- What is claimed of two descriptors: each is accepted if it is open, and they do not stand for the same one of
the host. -/
structure RightFor (run : DescriptorRun) (fd other : Nat) : Prop where
  accepted : isValidFd run.fds fd = true ↔ fd ∈ run.guestOpen
  acceptedOther : isValidFd run.fds other = true ↔ other ∈ run.guestOpen
  different : fd ≠ other → isValidFd run.fds fd = true → isValidFd run.fds other = true → run.fds fd ≠ run.fds other

/-- The strays stand for 0, and what is open stands for an open descriptor of its own. -/
structure Inv (run : DescriptorRun) : Prop where
  stray : ∀ fd, Stray fd → run.fds fd = some 0 ∧ fd ∉ run.guestOpen
  zero : 0 ∈ run.hostOpen
  small : ∀ fd, run.fds fd ≠ none → fd < maxFds
  isOpen : ∀ fd, ¬Stray fd → (run.fds fd ≠ none ↔ fd ∈ run.guestOpen)
  host : ∀ fd host, ¬Stray fd → run.fds fd = some host → host ∈ run.hostOpen ∧ host ≠ 0
  inj : ∀ fd other host, ¬Stray fd → run.fds fd = some host → run.fds other = some host → fd = other

variable {run : DescriptorRun} {fd hostfd : Nat}

lemma Initial.inv (init : run.Initial) : run.Inv := by
  obtain ⟨⟨stdin, stdout, stderr, distinct, fds, isOpen⟩, guestOpen⟩ := init
  simp at distinct isOpen
  refine ⟨?_, isOpen.1, ?_, ?_, ?_, ?_⟩
  all_goals simp only [guestOpen, fds, Stray, new, maxFds, Finset.mem_insert, Finset.mem_singleton]
  all_goals grind

lemma Inv.valid_iff (inv : run.Inv) (fd : Nat) : isValidFd run.fds fd = true ↔ run.fds fd ≠ none := by
  rw [isValidFd, Bool.and_eq_true, decide_eq_true_iff, Option.isSome_iff_ne_none]
  exact and_iff_right_of_imp (inv.small fd)

lemma Inv.rightFor_iff (inv : run.Inv) (fd other : Nat) : run.RightFor fd other ↔ ¬Stray fd ∧ ¬Stray other := by
  have right (fd : Nat) : (isValidFd run.fds fd = true ↔ fd ∈ run.guestOpen) ↔ ¬Stray fd := by
    rw [inv.valid_iff]
    constructor
    · intro ok stray
      obtain ⟨zero, unknown⟩ := inv.stray fd stray
      exact unknown (ok.1 (by rw [zero]; exact Option.some_ne_none 0))
    · exact inv.isOpen fd
  constructor
  · exact fun own => ⟨(right fd).1 own.accepted, (right other).1 own.acceptedOther⟩
  · rintro ⟨plain, plainOther⟩
    refine ⟨(right fd).2 plain, (right other).2 plainOther, fun ne valid _ same => ne ?_⟩
    obtain ⟨host, stands⟩ := Option.ne_none_iff_exists'.1 ((inv.valid_iff fd).1 valid)
    exact inv.inj fd other host plain stands (same ▸ stands)

lemma getNewFd_spec {fds : Fds} (free : getNewFd fds = some fd) : fds fd = none ∧ fd < maxFds := by
  have found := List.find?_some free
  have mem := List.mem_of_find?_eq_some free
  exact ⟨Option.isNone_iff_eq_none.1 found, List.mem_range.1 mem⟩

lemma Inv.opened (inv : run.Inv) (free : run.fds fd = none) (small : fd < maxFds) (fresh : hostfd ∉ run.hostOpen) :
    Inv ⟨update run.fds fd (some hostfd), insert hostfd run.hostOpen, insert fd run.guestOpen⟩ := by
  obtain ⟨stray, zero, bound, isOpen, host, inj⟩ := inv
  constructor
  all_goals simp only [update_apply, Finset.mem_insert]
  all_goals grind

lemma Inv.closed (inv : run.Inv) (plain : ¬Stray fd) (stands : run.fds fd = some hostfd) :
    Inv ⟨update run.fds fd none, run.hostOpen.erase hostfd, run.guestOpen.erase fd⟩ := by
  obtain ⟨stray, zero, bound, isOpen, host, inj⟩ := inv
  constructor
  all_goals simp only [update_apply, Finset.mem_erase]
  all_goals grind

lemma Inv.act {call : DescriptorCall} (inv : run.Inv) (legal : run.Admissible call)
    (safe : Careful call) : (run.act call).Inv := by
  cases call with
  | «open» host =>
    cases host with
    | none => unfold DescriptorRun.act doOsCallOpen; cases free : getNewFd run.fds <;> exact inv
    | some hostfd =>
      unfold DescriptorRun.act doOsCallOpen
      cases free : getNewFd run.fds with
      | none => exact inv
      | some fd =>
        obtain ⟨unused, small⟩ := getNewFd_spec free
        exact inv.opened unused small (legal hostfd rfl)
  | close fd =>
    unfold DescriptorRun.act doOsCallClose
    dsimp only
    cases stands : run.fds fd with
    | none => exact inv
    | some hostfd =>
      dsimp only
      by_cases closes : (isValidFd run.fds fd && decide (hostfd ∈ run.hostOpen)) = true
      · rw [if_pos closes]
        exact inv.closed safe stands
      · rw [if_neg closes]
        exact inv

theorem descriptors_right {run : DescriptorRun} (initial : run.Initial) (calls : List DescriptorCall)
    (meets : Runs.Meets act (fun run call => run.Admissible call ∧ Careful call) run calls) (fd other : Nat) :
    (calls.foldl act run).RightFor fd other ↔ ¬Stray fd ∧ ¬Stray other :=
  (meets.invariant (fun _ _ inv guard => inv.act guard.1 guard.2) initial.inv).rightFor_iff fd other

def started : DescriptorRun := ⟨new 10 11 12, {0, 1, 2, 10, 11, 12}, {0, 1, 2}⟩

lemma started_initial : started.Initial := ⟨⟨10, 11, 12, by decide, rfl, by decide⟩, rfl⟩

theorem stray_accepted : started.Initial ∧ ¬started.RightFor 3 4 :=
  ⟨started_initial, fun right => absurd (right.accepted.1 rfl) (by decide)⟩

theorem opened_right : (List.foldl act started [.open (some 13), .close 1]).RightFor 1 6 := by
  refine (descriptors_right started_initial _ ?_ 1 6).2 (by decide)
  exact ⟨⟨fun _ new => by cases new; decide, trivial⟩, ⟨trivial, show ¬Stray 1 by decide⟩, trivial⟩

end DescriptorRun

end Axe
