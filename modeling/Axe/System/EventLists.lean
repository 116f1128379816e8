import Axe.Library.LinkedLists
import Axe.Library.Runs
import Mathlib.Data.Fintype.Card

/-! The lists of the resources with events or interrupts enabled. Every thread has two of them; a
resource has one pair of links for all lists and moves between them as its owner and its mode change. -/

namespace Axe

open Function List

open LinkedList (Lists)

/-- Eventable resources and the heads of the lists of the threads; the second component of the key of a list
tells the interrupt list of a thread from its event list. -/
structure EventLists (R T : Type) where
  lists : Lists (T × Bool) R
  owner : R → Option T
  vector : R → BitVec 32
  EV : R → BitVec 32
  eventsEnabled : R → Bool
  interruptMode : R → Bool
  inUse : R → Bool
  eeble : T → Bool
  inenb : T → Bool

namespace EventLists

variable {R T : Type} [DecidableEq R] [DecidableEq T] (st : EventLists R T) (t : T) (r : R)

def leave : EventLists R T :=
  match st.owner r with
  | some owner =>
    if st.eventsEnabled r then { st with lists := st.lists.remove (owner, st.interruptMode r) r } else st
  | none => st -- not reached: a resource in use has an owner

def enter : EventLists R T := { st with lists := st.lists.add (t, st.interruptMode r) r }

def setOwner (owner : Option T) : EventLists R T := { st with owner := update st.owner r owner }

def updateOwnerAux : EventLists R T :=
  let moved := if st.eventsEnabled r then (st.leave r).enter t r else st
  moved.setOwner r (some t)

def updateOwner : EventLists R T := if st.owner r = some t then st else st.updateOwnerAux t r

def clearOwner : EventLists R T := (st.leave r).setOwner r none

def setVector (v : BitVec 32) : EventLists R T :=
  { st.updateOwner t r with vector := update st.vector r v }

def setEV (ev : BitVec 32) : EventLists R T :=
  { st.updateOwner t r with EV := update st.EV r ev }

def switchMode (enable : Bool) : EventLists R T :=
  if enable = st.interruptMode r then st
  else
    let left := st.leave r
    let switched := { left with interruptMode := update left.interruptMode r enable }
    if st.eventsEnabled r then switched.enter t r else switched

/-- The event that may follow does not change the lists. -/
def setInterruptMode (enable : Bool) : EventLists R T := (st.updateOwner t r).switchMode t r enable

def eventDisable : EventLists R T :=
  let left := st.leave r
  { left with eventsEnabled := update left.eventsEnabled r false }.updateOwner t r

def enable : EventLists R T :=
  let entered := if st.eventsEnabled r then st else st.enter t r
  { entered with eventsEnabled := update entered.eventsEnabled r true }

/-- The event that may follow does not change the lists. -/
def eventEnable : EventLists R T := (st.updateOwner t r).enable t r

def eventableSetInUseOn (id : BitVec 32) : EventLists R T :=
  let cleared := if st.inUse r then st.clearOwner r else st
  { cleared with
    vector := update cleared.vector r 0
    EV := update cleared.EV r id
    eventsEnabled := update cleared.eventsEnabled r false
    interruptMode := update cleared.interruptMode r false
    owner := update cleared.owner r (some t)
    inUse := update cleared.inUse r true }

def eventableSetInUseOff : EventLists R T :=
  if st.inUse r then { st.clearOwner r with inUse := update st.inUse r false } else st

/-- The loop of `clre`: a resource is disabled, then its link to the next one is followed. The first argument
bounds the number of rounds. -/
def clreLoop (st : EventLists R T) (t : T) : Nat → Option R → EventLists R T × Option R
  | 0, current => (st, current)
  | _ + 1, none => (st, none)
  | fuel + 1, some r =>
    let off := st.eventDisable t r
    off.clreLoop t fuel (off.lists.next r)

def clreFor (rounds : Nat) : EventLists R T × Option R :=
  let st :=
    { st with eeble := update st.eeble t false, inenb := update st.inenb t false }
  st.clreLoop t rounds (st.lists.head (t, false))

/-- A list is no longer than there are resources. -/
def clre [Fintype R] : EventLists R T := (st.clreFor t (Fintype.card R)).1

/-! ### What is in which list -/

def Belongs (key : T × Bool) : Prop :=
  st.inUse r = true ∧ st.owner r = some key.1 ∧ st.eventsEnabled r = true ∧ st.interruptMode r = key.2

structure Kept (members : T × Bool → List R) : Prop where
  lists : st.lists.Represents members
  member : ∀ key r, r ∈ members key ↔ st.Belongs r key
  owned : ∀ r, st.inUse r = true → ∃ t, st.owner r = some t

/-- All lists are well formed and hold the resources that belong into them. -/
def WellKept : Prop := ∃ members, st.Kept members

structure Apart (lists : Lists (T × Bool) R) (r : R) (members : T × Bool → List R) : Prop where
  lists : lists.Represents members
  member : ∀ key other, other ≠ r → (other ∈ members key ↔ st.Belongs other key)
  owned : ∀ other, other ≠ r → st.inUse other = true → ∃ t, st.owner other = some t
  absent : ∀ key, r ∉ members key

structure Agree (post : EventLists R T) : Prop where
  inUse : ∀ other, other ≠ r → post.inUse other = st.inUse other
  owner : ∀ other, other ≠ r → post.owner other = st.owner other
  eventsEnabled : ∀ other, other ≠ r → post.eventsEnabled other = st.eventsEnabled other
  interruptMode : ∀ other, other ≠ r → post.interruptMode other = st.interruptMode other

variable {st t r} {post : EventLists R T} {members : T × Bool → List R}

section

variable {lists : Lists (T × Bool) R}

omit [DecidableEq R] [DecidableEq T] in
lemma Agree.belongs (agree : st.Agree r post) {other : R} (ne : other ≠ r) (key : T × Bool) :
    post.Belongs other key ↔ st.Belongs other key := by
  unfold Belongs
  rw [agree.inUse other ne, agree.owner other ne, agree.eventsEnabled other ne,
    agree.interruptMode other ne]

omit [DecidableEq R] [DecidableEq T] in
lemma Kept.apart (kept : st.Kept members) (unlisted : ∀ key, ¬st.Belongs r key) :
    st.Apart st.lists r members :=
  ⟨kept.lists, fun key other _ => kept.member key other, fun other _ => kept.owned other,
    fun key isIn => unlisted key ((kept.member key r).mp isIn)⟩

lemma Kept.remove (kept : st.Kept members) {key : T × Bool} (isIn : r ∈ members key) :
    st.Apart (st.lists.remove key r) r (update members key ((members key).erase r)) := by
  refine ⟨kept.lists.remove isIn, fun k other ne => ?_, fun other _ => kept.owned other, fun k isStill => ?_⟩
  · rw [← kept.member]
    by_cases here : k = key
    · subst here
      rw [update_self, mem_erase_of_ne ne]
    · rw [update_of_ne here]
  · by_cases here : k = key
    · subst here
      rw [update_self] at isStill
      exact (kept.lists.nodup _).not_mem_erase isStill
    · rw [update_of_ne here] at isStill
      exact here (kept.lists.disjoint isStill isIn)

lemma Kept.leave (kept : st.Kept members) (used : st.inUse r = true) :
    ∃ members', st.Apart (st.leave r).lists r members' := by
  obtain ⟨owner, isOwner⟩ := kept.owned r used
  unfold EventLists.leave
  rw [isOwner]
  dsimp only
  split
  · rename_i enabled
    exact ⟨_, kept.remove ((kept.member (owner, st.interruptMode r) r).mpr ⟨used, isOwner, enabled, rfl⟩)⟩
  · rename_i off
    exact ⟨members, kept.apart fun key owns => off owns.2.2.1⟩

omit [DecidableEq R] [DecidableEq T] in
lemma Apart.kept (apart : st.Apart lists r members) (agree : st.Agree r post) (same : post.lists = lists)
    (unlisted : ∀ key, ¬post.Belongs r key) (owned : post.inUse r = true → ∃ t, post.owner r = some t) :
    post.Kept members := by
  refine ⟨same ▸ apart.lists, fun key other => ?_, fun other used => ?_⟩
  · by_cases here : other = r
    · subst here
      exact iff_of_false (apart.absent key) (unlisted key)
    · rw [agree.belongs here, apart.member key other here]
  · by_cases here : other = r
    · subst here
      exact owned used
    · rw [agree.owner other here]
      exact apart.owned other here ((agree.inUse other here).symm.trans used)

lemma Apart.enter (apart : st.Apart lists r members) (agree : st.Agree r post) {key : T × Bool}
    (added : post.lists = lists.add key r) (owns : post.Belongs r key) : post.WellKept := by
  refine ⟨_, added ▸ apart.lists.add apart.absent, fun k other => ?_, fun other used => ?_⟩
  · by_cases here : other = r
    · subst here
      by_cases this : k = key
      · subst this
        rw [update_self]
        exact iff_of_true mem_cons_self owns
      · rw [update_of_ne this]
        refine iff_of_false (apart.absent k) fun also => this ?_
        exact Prod.ext (Option.some.inj (also.2.1.symm.trans owns.2.1)) (also.2.2.2.symm.trans owns.2.2.2)
    · rw [agree.belongs here, ← apart.member k other here]
      by_cases this : k = key
      · subst this
        rw [update_self, mem_cons]
        simp [here]
      · rw [update_of_ne this]
  · by_cases here : other = r
    · subst here
      exact ⟨key.1, owns.2.1⟩
    · rw [agree.owner other here]
      exact apart.owned other here ((agree.inUse other here).symm.trans used)

end

/-! ### Operations -/

section

variable (st t r) in
lemma leave_eq : st.leave r = { st with lists := (st.leave r).lists } := by
  unfold leave
  split
  · split <;> rfl
  · rfl

variable (st t r) in
lemma updateOwner_eq : st.updateOwner t r = { st with
      lists := (st.updateOwner t r).lists
      owner := update st.owner r (some t) } := by
  unfold updateOwner updateOwnerAux setOwner enter
  split
  · rename_i owns
    rw [← owns, update_eq_self]
  · split
    · dsimp only
      rw [leave_eq]
    · rfl

omit [DecidableEq R] [DecidableEq T] in
lemma Agree.of_owner {owner : R → Option T} (same : ∀ other, other ≠ r → owner other = st.owner other)
    (lists : Lists (T × Bool) R) : st.Agree r { st with lists := lists, owner := owner } :=
  ⟨fun _ _ => rfl, same, fun _ _ => rfl, fun _ _ => rfl⟩

lemma Kept.updateOwner (kept : st.Kept members) (used : st.inUse r = true) (t : T) :
    (st.updateOwner t r).WellKept := by
  unfold EventLists.updateOwner
  split
  · exact ⟨members, kept⟩
  · unfold updateOwnerAux setOwner
    have own : update st.owner r (some t) r = some t := update_self ..
    have rest : ∀ other, other ≠ r → update st.owner r (some t) other = st.owner other :=
      fun other ne => update_of_ne ne ..
    split
    · rename_i enabled
      obtain ⟨members', apart⟩ := kept.leave used
      rw [leave_eq]
      exact apart.enter (.of_owner rest _) rfl ⟨used, own, enabled, rfl⟩
    · rename_i off
      have apart := kept.apart fun key (owns : st.Belongs r key) => off owns.2.2.1
      exact ⟨members, apart.kept (.of_owner rest _) rfl (fun key owns => off owns.2.2.1) fun _ => ⟨t, own⟩⟩

variable (st t r) in
lemma updateOwner_inUse : (st.updateOwner t r).inUse = st.inUse := by
  rw [updateOwner_eq]

variable (st t r) in
lemma updateOwner_owner : (st.updateOwner t r).owner r = some t := by
  rw [updateOwner_eq]
  exact update_self ..

section

variable (kept : st.Kept members)
include kept

section

variable (used : st.inUse r = true)
include used

lemma Kept.switchMode (owns : st.owner r = some t) (enable : Bool) : (st.switchMode t r enable).WellKept := by
  unfold EventLists.switchMode
  split
  · exact ⟨members, kept⟩
  · obtain ⟨members', apart⟩ := kept.leave used
    rw [leave_eq]
    have agree (lists : Lists (T × Bool) R) : st.Agree r
        { st with lists := lists, interruptMode := update st.interruptMode r enable } :=
      ⟨fun _ _ => rfl, fun _ _ => rfl, fun _ _ => rfl, fun other ne => update_of_ne ne ..⟩
    split
    · rename_i enabled
      exact apart.enter (agree _) rfl ⟨used, owns, enabled, rfl⟩
    · rename_i off
      exact ⟨members', apart.kept (agree _) rfl (fun key belongs => off belongs.2.2.1) fun _ => ⟨t, owns⟩⟩

lemma Kept.setInterruptMode (t : T) (enable : Bool) : (st.setInterruptMode t r enable).WellKept := by
  obtain ⟨members', moved⟩ := kept.updateOwner used t
  exact moved.switchMode ((congrFun (updateOwner_inUse st t r) r).trans used) (updateOwner_owner st t r) enable

lemma Kept.enable (owns : st.owner r = some t) : (st.enable t r).WellKept := by
  unfold EventLists.enable EventLists.enter
  have agree (lists : Lists (T × Bool) R) : st.Agree r
      { st with lists := lists, eventsEnabled := update st.eventsEnabled r true } :=
    ⟨fun _ _ => rfl, fun _ _ => rfl, fun other ne => update_of_ne ne .., fun _ _ => rfl⟩
  dsimp only
  split
  · rename_i enabled
    rw [← enabled, update_eq_self]
    exact ⟨members, kept⟩
  · rename_i off
    have apart := kept.apart fun key (belongs : st.Belongs r key) => off belongs.2.2.1
    exact apart.enter (agree _) rfl ⟨used, owns, update_self .., rfl⟩

lemma Kept.eventEnable (t : T) : (st.eventEnable t r).WellKept := by
  obtain ⟨members', moved⟩ := kept.updateOwner used t
  exact moved.enable ((congrFun (updateOwner_inUse st t r) r).trans used) (updateOwner_owner st t r)

lemma Kept.eventDisable (t : T) : (st.eventDisable t r).WellKept := by
  obtain ⟨members', apart⟩ := kept.leave used
  obtain ⟨owner, isOwner⟩ := kept.owned r used
  unfold EventLists.eventDisable
  rw [leave_eq]
  have agree : st.Agree r
      { st with
        lists := (st.leave r).lists
        eventsEnabled := update st.eventsEnabled r false } :=
    ⟨fun _ _ => rfl, fun _ _ => rfl, fun other ne => update_of_ne ne .., fun _ _ => rfl⟩
  have off := apart.kept agree rfl (fun key owns => ?_) fun _ => ⟨owner, isOwner⟩
  · exact off.updateOwner used t
  · have enabled : update st.eventsEnabled r false r = true := owns.2.2.1
    rw [update_self] at enabled
    cases enabled

end

lemma Kept.eventableSetInUseOn (r : R) (t : T) (id : BitVec 32) : (st.eventableSetInUseOn t r id).WellKept := by
  have unlisted {enabled : R → Bool} : update enabled r false r = true → False := by
    rw [update_self]
    nofun
  have own {owner : R → Option T} : update owner r (some t) r = some t := update_self ..
  have skip {Column : Type} (column : R → Column) (value : Column) {other : R} (ne : other ≠ r) :
      update column r value other = column other := update_of_ne ne ..
  unfold EventLists.eventableSetInUseOn
  split
  · rename_i used
    obtain ⟨members', apart⟩ := kept.leave used
    unfold clearOwner setOwner
    rw [leave_eq]
    refine ⟨members', apart.kept ?_ rfl (fun key owns => unlisted owns.2.2.1) fun _ => ⟨t, own⟩⟩
    exact ⟨fun _ => skip _ _, fun _ ne => (skip _ _ ne).trans (skip _ _ ne), fun _ => skip _ _,
      fun _ => skip _ _⟩
  · rename_i free
    have apart := kept.apart fun key (owns : st.Belongs r key) => free owns.1
    refine ⟨members, apart.kept ?_ rfl (fun key owns => unlisted owns.2.2.1) fun _ => ⟨t, own⟩⟩
    exact ⟨fun _ => skip _ _, fun _ => skip _ _, fun _ => skip _ _, fun _ => skip _ _⟩

lemma Kept.eventableSetInUseOff (r : R) : (st.eventableSetInUseOff r).WellKept := by
  have free : update st.inUse r false r = true → False := by
    rw [update_self]
    nofun
  unfold EventLists.eventableSetInUseOff
  split
  · rename_i used
    obtain ⟨members', apart⟩ := kept.leave used
    unfold clearOwner setOwner
    rw [leave_eq]
    refine ⟨members', apart.kept ?_ rfl (fun key owns => free owns.1) fun used => (free used).elim⟩
    exact ⟨fun _ ne => update_of_ne ne .., fun _ ne => update_of_ne ne ..,
      fun _ _ => rfl, fun _ _ => rfl⟩
  · exact ⟨members, kept⟩

end

end

/-! ### `clre` -/

section

section

variable (kept : st.Kept members)
include kept

/-- A round of `clre`: the first resource of the event list is disabled and leads on to the next. -/
lemma Kept.clreRound {rest : List R} (isHead : members (t, false) = r :: rest) :
    (st.eventDisable t r).Kept (update members (t, false) rest) ∧
      (st.eventDisable t r).lists.next r = rest.head? := by
  have isIn : r ∈ members (t, false) := isHead ▸ mem_cons_self
  obtain ⟨used, owns, enabled, mode⟩ := (kept.member _ r).mp isIn
  have off : st.eventDisable t r =
      { st with
        lists := st.lists.remove (t, false) r
        eventsEnabled := update st.eventsEnabled r false } := by
    unfold EventLists.eventDisable EventLists.leave EventLists.updateOwner
    rw [owns]
    dsimp only
    rw [if_pos enabled, mode, if_pos owns]
  have erased : (members (t, false)).erase r = rest := by rw [isHead, erase_cons_head]
  rw [off]
  refine ⟨?_, kept.lists.next_of_head isHead⟩
  rw [← erased]
  refine (kept.remove isIn).kept ?_ rfl (fun key belongs => ?_) fun _ => ⟨t, owns⟩
  · exact ⟨fun _ _ => rfl, fun _ _ => rfl, fun _ ne => update_of_ne ne .., fun _ _ => rfl⟩
  · have still : update st.eventsEnabled r false r = true := belongs.2.2.1
    rw [update_self] at still
    cases still

/-- The loop takes the event list apart from the front; the iterator is always at its first resource. -/
lemma Kept.clreLoop (n : Nat) :
    ∃ members', (st.clreLoop t n (members (t, false)).head?).1.Kept members' ∧
      members' (t, false) = (members (t, false)).drop n ∧
      (st.clreLoop t n (members (t, false)).head?).2 = ((members (t, false)).drop n).head? := by
  induction n generalizing st members with
  | zero => exact ⟨members, kept, rfl, rfl⟩
  | succ n ih =>
    cases isList : members (t, false) with
    | nil => exact ⟨members, kept, isList, rfl⟩
    | cons r rest =>
      obtain ⟨off, next⟩ := kept.clreRound isList
      have further := ih off
      rw [update_self, ← next] at further
      exact further

lemma Kept.clreFor (t : T) (n : Nat) : ∃ members', (st.clreFor t n).1.Kept members' ∧
      members' (t, false) = (members (t, false)).drop n ∧
      (st.clreFor t n).2 = ((members (t, false)).drop n).head? := by
  have masked : Kept
      { st with eeble := update st.eeble t false, inenb := update st.inenb t false }
      members := ⟨kept.lists, kept.member, kept.owned⟩
  unfold EventLists.clreFor
  dsimp only
  rw [kept.lists.head]
  exact masked.clreLoop n

lemma Kept.clre_done [Fintype R] (t : T) : (st.clreFor t (Fintype.card R)).2 = none := by
  obtain ⟨members', -, -, iterator⟩ := kept.clreFor t (Fintype.card R)
  have short : (members (t, false)).length ≤ Fintype.card R := (kept.lists.nodup _).length_le_card
  rw [iterator, drop_eq_nil_of_le short]
  rfl

end

end

end EventLists

/-! ### Runs -/

inductive EventOp (R T : Type) where
  | updateOwner (t : T) (r : R)
  | setVector (t : T) (r : R) (v : BitVec 32)
  | setEV (t : T) (r : R) (ev : BitVec 32)
  | setInterruptMode (t : T) (r : R) (enable : Bool)
  | eventEnable (t : T) (r : R)
  | eventDisable (t : T) (r : R)
  | eventableSetInUse (t : T) (r : R) (val : Bool)
  | clre (t : T)

namespace EventLists

variable {R T : Type} [DecidableEq R] [DecidableEq T] [Fintype R]

/-- Instructions on a resource that is not in use trap; it can only be taken into use. -/
def step (getID : R → BitVec 32) (st : EventLists R T) : EventOp R T → EventLists R T
  | .updateOwner t r => if st.inUse r then st.updateOwner t r else st
  | .setVector t r v => if st.inUse r then st.setVector t r v else st
  | .setEV t r ev => if st.inUse r then st.setEV t r ev else st
  | .setInterruptMode t r enable => if st.inUse r then st.setInterruptMode t r enable else st
  | .eventEnable t r => if st.inUse r then st.eventEnable t r else st
  | .eventDisable t r => if st.inUse r then st.eventDisable t r else st
  | .eventableSetInUse t r val => if val then st.eventableSetInUseOn t r (getID r) else st.eventableSetInUseOff r
  | .clre t => st.clre t

structure Initial (st : EventLists R T) : Prop where
  unused : ∀ r, st.inUse r = false
  empty : ∀ key, st.lists.head key = none

variable {getID : R → BitVec 32} {st : EventLists R T}

omit [DecidableEq R] [DecidableEq T] [Fintype R] in
lemma Initial.wellKept (init : st.Initial) : st.WellKept := by
  refine ⟨fun _ => [], ⟨fun _ => trivial, init.empty, fun _ => nodup_nil, nofun⟩, fun key r => ?_, fun r used => ?_⟩
  · refine iff_of_false not_mem_nil fun owns => ?_
    cases (init.unused r).symm.trans owns.1
  · cases (init.unused r).symm.trans used

omit [DecidableEq R] [DecidableEq T] [Fintype R] in
lemma WellKept.guarded {post : EventLists R T} {r : R} (kept : st.WellKept)
    (done : st.inUse r = true → post.WellKept) : (if st.inUse r then post else st).WellKept := by
  split
  · exact done ‹_›
  · exact kept

lemma WellKept.step (st : EventLists R T) (op : EventOp R T) (kept : st.WellKept) :
    (st.step getID op).WellKept := by
  have ⟨members, isKept⟩ := kept
  cases op with
  | updateOwner t r => exact kept.guarded fun used => isKept.updateOwner used t
  | setVector t r _ | setEV t r _ =>
    refine kept.guarded fun used => ?_
    obtain ⟨members', moved⟩ := isKept.updateOwner used t
    exact ⟨members', moved.lists, moved.member, moved.owned⟩
  | setInterruptMode t r enable => exact kept.guarded fun used => isKept.setInterruptMode used t enable
  | eventEnable t r => exact kept.guarded fun used => isKept.eventEnable used t
  | eventDisable t r => exact kept.guarded fun used => isKept.eventDisable used t
  | eventableSetInUse t r val =>
    cases val with
    | true => exact isKept.eventableSetInUseOn r t (getID r)
    | false => exact isKept.eventableSetInUseOff r
  | clre t =>
    obtain ⟨members', clr, -, -⟩ := isKept.clreFor t (Fintype.card R)
    exact ⟨members', clr⟩

/-- In every state of a run all lists are doubly linked and hold what belongs into them, also in the middle of `clre`,
which comes to the end of its list. -/
theorem wellKept_run (getID : R → BitVec 32) (st : EventLists R T) (initial : st.Initial)
    (ops : List (EventOp R T)) : (ops.foldl (step getID) st).WellKept ∧
      ∀ t, (∀ rounds, ((ops.foldl (step getID) st).clreFor t rounds).1.WellKept) ∧
        ((ops.foldl (step getID) st).clreFor t (Fintype.card R)).2 = none := by
  have kept : (ops.foldl (step getID) st).WellKept :=
    Runs.invariant (fun st op => WellKept.step st op) initial.wellKept ops
  have ⟨members, isKept⟩ := kept
  refine ⟨kept, fun t => ⟨fun rounds => ?_, isKept.clre_done t⟩⟩
  obtain ⟨members', during, -, -⟩ := isKept.clreFor t rounds
  exact ⟨members', during⟩

def unusedPair : EventLists (Fin 2) (Fin 2) where
  lists := ⟨fun _ => none, fun _ => none, fun _ => none⟩
  owner _ := none
  vector _ := 0
  EV _ := 0
  eventsEnabled _ := true
  interruptMode _ := false
  inUse _ := false
  eeble _ := true
  inenb _ := false

/-- Both are enabled by one thread, one of them changes hands, and `clre` clears what is left. -/
theorem wellKept_run_pair : let ops : List (EventOp (Fin 2) (Fin 2)) :=
      [.eventableSetInUse 0 0 true, .eventableSetInUse 0 1 true, .eventEnable 0 0, .eventEnable 0 1, .eventEnable 1 0]
    let st := ops.foldl (step fun _ => 2) unusedPair
    st.lists.head (0, false) = some 1 ∧ st.lists.head (1, false) = some 0 ∧ st.WellKept :=
  ⟨rfl, rfl, (wellKept_run (fun _ => 2) unusedPair ⟨fun _ => rfl, fun _ => rfl⟩ _).1⟩

end EventLists

end Axe
