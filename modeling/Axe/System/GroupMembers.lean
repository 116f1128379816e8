import Axe.Library.Runs
import Axe.System.Synchroniser
import Mathlib.Data.List.Perm.Subperm
import Mathlib.Algebra.Ring.Nat

/-! Who belongs to which group. A thread is listed by a synchroniser when it is made
and taken off the list when its group is joined; freeing it in another way leaves the
list as it is. -/

namespace Axe

open Function List

/-- What the allocation of threads and groups comes down to: the threads in use, the
group each was made for, the synchronisers in use and the threads each one lists. -/
structure Membership where
  inUse : Nat → Bool
  syncOf : Nat → Option Nat
  active : Nat → Bool
  listed : Nat → List Nat

namespace Membership

def allocThread (groups : Membership) (u : Nat) : Membership :=
  { groups with inUse := update groups.inUse u true, syncOf := update groups.syncOf u none }

def spawn (groups : Membership) (s child : Nat) : Membership :=
  { groups with
    inUse := update groups.inUse child true
    syncOf := update groups.syncOf child (some s)
    listed := update groups.listed s (groups.listed s ++ [child]) }

def allocSync (groups : Membership) (s master : Nat) : Membership :=
  { groups with
    active := update groups.active s true
    listed := update groups.listed s [master] }

def freeSync (groups : Membership) (s : Nat) : Membership :=
  { groups with active := update groups.active s false }

def freeThreads (groups : Membership) (freed : List Nat) : Membership :=
  { groups with inUse := fun u => if u ∈ freed then false else groups.inUse u }

def disband (groups : Membership) (s master : Nat) : Membership :=
  { groups with listed := update groups.listed s [master] }

structure ValidGroup (groups : Membership) (s : Nat) : Prop where
  nodup : (groups.listed s).Nodup
  core : ∀ u ∈ groups.listed s, u < numThreads
  inUse : ∀ u ∈ groups.listed s, groups.inUse u = true
  slaves : ∀ u ∈ (groups.listed s).tail, groups.syncOf u = some s

structure Valid (groups : Membership) : Prop where
  group : ∀ s, groups.active s = true → groups.ValidGroup s
  room : ∀ s, (groups.listed s).length ≤ numThreads

variable {groups : Membership}

lemma length_le_numThreads {ts : List Nat} (nodup : ts.Nodup) (core : ∀ u ∈ ts, u < numThreads) :
    ts.length ≤ numThreads := by
  have subset : ts ⊆ range numThreads := fun u mem => mem_range.mpr (core u mem)
  simpa using (subperm_of_subset nodup subset).length_le

variable {s master child : Nat} {freed : List Nat}

lemma Valid.not_listed (valid : groups.Valid) {u : Nat} (free : groups.inUse u = false)
    (act : groups.active s = true) : u ∉ groups.listed s := by
  intro mem
  have used := (valid.group s act).inUse u mem
  simp [free] at used

lemma ValidGroup.congr {other : Membership} (valid : groups.ValidGroup s) (listed : other.listed s = groups.listed s)
    (inUse : ∀ u ∈ groups.listed s, other.inUse u = groups.inUse u)
    (syncOf : ∀ u ∈ groups.listed s, other.syncOf u = groups.syncOf u) : other.ValidGroup s := by
  refine ⟨?_, ?_, ?_, ?_⟩
  · rw [listed]
    exact valid.nodup
  · rw [listed]
    exact valid.core
  · intro u mem
    rw [listed] at mem
    exact (inUse u mem).trans (valid.inUse u mem)
  · intro u mem
    rw [listed] at mem
    exact (syncOf u (mem_of_mem_tail mem)).trans (valid.slaves u mem)

lemma Valid.allocThread (valid : groups.Valid) {u : Nat} (free : groups.inUse u = false) :
    (groups.allocThread u).Valid := by
  refine ⟨fun s act => (valid.group s act).congr rfl ?_ ?_, valid.room⟩
  all_goals
    intro v mem
    have other : v ≠ u := fun same => valid.not_listed free act (same ▸ mem)
    simp [Membership.allocThread, other]

lemma validGroup_singleton (listed : groups.listed s = [master]) (core : master < numThreads)
    (inUse : groups.inUse master = true) : groups.ValidGroup s := by
  refine ⟨?_, ?_, ?_, ?_⟩ <;> simp [listed, core, inUse]

lemma Valid.allocSync (valid : groups.Valid) (core : master < numThreads) (inUse : groups.inUse master = true)
    (s : Nat) : (groups.allocSync s master).Valid := by
  refine ⟨fun r act => ?_, fun r => ?_⟩
  · by_cases here : r = s
    · subst here
      exact validGroup_singleton (by simp [Membership.allocSync]) core inUse
    · have pre : groups.active r = true := by simpa [Membership.allocSync, here] using act
      exact (valid.group r pre).congr (by simp [Membership.allocSync, here]) (fun _ _ => rfl) fun _ _ => rfl
  · by_cases here : r = s
    · subst here
      simp [Membership.allocSync, numThreads]
    · simpa [Membership.allocSync, here] using valid.room r

lemma Valid.freeSync (valid : groups.Valid) (s : Nat) : (groups.freeSync s).Valid := by
  refine ⟨fun r act => ?_, valid.room⟩
  by_cases here : r = s
  · subst here
    simp [Membership.freeSync] at act
  · have pre : groups.active r = true := by simpa [Membership.freeSync, here] using act
    exact (valid.group r pre).congr rfl (fun _ _ => rfl) fun _ _ => rfl

lemma ValidGroup.spawn (group : groups.ValidGroup s) (core : child < numThreads)
    (free : groups.inUse child = false) : (groups.spawn s child).ValidGroup s := by
  have fresh : ∀ v ∈ groups.listed s, v ≠ child := by
    intro v mem same
    have used := group.inUse v mem
    simp [same, free] at used
  refine ⟨?_, ?_, ?_, ?_⟩
  · simp only [Membership.spawn, update_self]
    refine nodup_append.mpr ⟨group.nodup, nodup_singleton child, ?_⟩
    intro v mem w isChild
    rw [mem_singleton.mp isChild]
    exact fresh v mem
  · simp only [Membership.spawn, update_self, mem_append, mem_singleton]
    rintro v (mem | rfl)
    · exact group.core v mem
    · exact core
  · simp only [Membership.spawn, update_self, mem_append, mem_singleton]
    rintro v (mem | rfl)
    · rw [update_of_ne (fresh v mem)]
      exact group.inUse v mem
    · rw [update_self]
  · intro v mem
    simp only [Membership.spawn, update_self] at mem ⊢
    by_cases isChild : v = child
    · rw [isChild, update_self]
    · rw [update_of_ne isChild]
      refine group.slaves v ?_
      cases listed : groups.listed s with
      | nil => simp [listed] at mem
      | cons master ss => simpa [listed, isChild] using mem

lemma Valid.spawn (valid : groups.Valid) (act : groups.active s = true) (core : child < numThreads)
    (free : groups.inUse child = false) : (groups.spawn s child).Valid := by
  have here := (valid.group s act).spawn core free
  refine ⟨fun r activeR => ?_, fun r => ?_⟩
  · by_cases same : r = s
    · exact same ▸ here
    · have fresh : ∀ v ∈ groups.listed r, v ≠ child :=
        fun v mem isChild => valid.not_listed free activeR (isChild ▸ mem)
      refine (valid.group r activeR).congr (by simp [Membership.spawn, same]) ?_ ?_
      · intro v mem
        simp [Membership.spawn, fresh v mem]
      · intro v mem
        simp [Membership.spawn, fresh v mem]
  · by_cases same : r = s
    · rw [same]
      exact length_le_numThreads here.nodup here.core
    · simpa [Membership.spawn, same] using valid.room r

lemma Valid.freeThreads (valid : groups.Valid)
    (apart : ∀ u ∈ freed, ∀ s, groups.active s = true → u ∉ groups.listed s) : (groups.freeThreads freed).Valid := by
  refine ⟨fun s act => (valid.group s act).congr rfl ?_ fun _ _ => rfl, valid.room⟩
  intro v mem
  have kept : v ∉ freed := fun isFreed => apart v isFreed s act mem
  simp [Membership.freeThreads, kept]

lemma Valid.disband (valid : groups.Valid) {ss : List Nat} (listed : groups.listed s = master :: ss)
    (apart : ∀ u ∈ freed, ∀ r, groups.active r = true → u ∈ groups.listed r → r = s ∧ u ∈ ss) :
    ((groups.freeThreads freed).disband s master).Valid := by
  refine ⟨fun r act => ?_, fun r => ?_⟩
  · by_cases here : r = s
    · subst here
      have group := valid.group r act
      have mem : master ∈ groups.listed r := by simp [listed]
      have kept : master ∉ freed := fun isFreed => by
        have slave := (apart master isFreed r act mem).2
        have nodup := group.nodup
        rw [listed] at nodup
        exact (nodup_cons.mp nodup).1 slave
      refine validGroup_singleton (by simp [Membership.disband]) (group.core master mem) ?_
      simp [Membership.disband, Membership.freeThreads, kept, group.inUse master mem]
    · refine (valid.group r act).congr (by simp [Membership.disband, Membership.freeThreads, here]) ?_ fun _ _ => rfl
      intro v mem
      have kept : v ∉ freed := fun isFreed => here (apart v isFreed r act mem).1
      simp [Membership.disband, Membership.freeThreads, kept]
  · by_cases here : r = s
    · subst here
      simp [Membership.disband, numThreads]
    · simpa [Membership.disband, Membership.freeThreads, here] using valid.room r

end Membership

namespace System

def membership (sys : System) : Membership where
  inUse u := (sys.threads u).inUse
  syncOf u := (sys.threads u).sync
  active s := (sys.syncs s).inUse
  listed s := (sys.syncs s).threads

variable (sys : System)

lemma membership_changeThread (t : Nat) (upd : Thread → Thread) : (sys.updateThread t upd).membership =
      { sys.membership with
        inUse := update sys.membership.inUse t (upd (sys.threads t)).inUse
        syncOf := update sys.membership.syncOf t (upd (sys.threads t)).sync } := by
  have inUse := comp_update Thread.inUse sys.threads t (upd (sys.threads t))
  have sync := comp_update Thread.sync sys.threads t (upd (sys.threads t))
  exact congrArg₂ (Membership.mk · · _ _) inUse sync

lemma membership_changeSync (s : Nat) (upd : Synchroniser → Synchroniser) : (sys.updateSync s upd).membership =
      { sys.membership with
        active := update sys.membership.active s (upd (sys.syncs s)).inUse
        listed := update sys.membership.listed s (upd (sys.syncs s)).threads } := by
  have inUse := comp_update Synchroniser.inUse sys.syncs s (upd (sys.syncs s))
  have ts := comp_update Synchroniser.threads sys.syncs s (upd (sys.syncs s))
  exact congrArg₂ (Membership.mk _ _ · ·) inUse ts

lemma membership_updateThread (t : Nat) (upd : Thread → Thread)
    (inUse : (upd (sys.threads t)).inUse = (sys.threads t).inUse)
    (sync : (upd (sys.threads t)).sync = (sys.threads t).sync) :
    (sys.updateThread t upd).membership = sys.membership := by
  rw [membership_changeThread, inUse, sync]
  exact congrArg₂ (Membership.mk · · _ _) (update_eq_self t _) (update_eq_self t _)

lemma membership_updateSync (s : Nat) (upd : Synchroniser → Synchroniser)
    (inUse : (upd (sys.syncs s)).inUse = (sys.syncs s).inUse)
    (ts : (upd (sys.syncs s)).threads = (sys.syncs s).threads) :
    (sys.updateSync s upd).membership = sys.membership := by
  rw [membership_changeSync, inUse, ts]
  exact congrArg₂ (Membership.mk _ _ · ·) (update_eq_self s _) (update_eq_self s _)

@[simp] lemma membership_schedule (t : Nat) : (sys.schedule t).membership = sys.membership :=
  membership_updateThread sys t _ rfl rfl

@[simp] lemma membership_advance (t cost : Nat) : (sys.advance t cost).membership = sys.membership :=
  membership_updateThread sys t _ rfl rfl

@[simp] lemma membership_raise (t : Nat) : (sys.raise t).membership = sys.membership :=
  membership_updateThread sys t _ rfl rfl

@[simp] lemma membership_releaseThread (time arriver : Nat) (slave : Bool) (u : Nat) :
    (sys.releaseThread time arriver slave u).membership = sys.membership := by
  simp only [releaseThread]
  split
  · exact membership_updateThread sys u _ rfl rfl
  · rw [membership_schedule, membership_updateThread _ u _ rfl rfl, membership_updateThread sys u _ rfl rfl]

lemma membership_releaseThreads (time arriver : Nat) (ts : List Nat) :
    (sys.releaseThreads time arriver ts).membership = sys.membership := by
  cases ts with
  | nil => rfl
  | cons master ss =>
    have loop : ∀ (ts : List Nat) (sys : System),
        (ts.foldl (releaseThread time arriver true) sys).membership = sys.membership := by
      intro ts
      induction ts with
      | nil => exact fun _ => rfl
      | cons u ts ih => exact fun sys => (ih _).trans (membership_releaseThread sys time arriver true u)
    exact (loop ss _).trans (membership_releaseThread sys time arriver false master)

lemma membership_freeThread (t : Nat) : (sys.freeThread t).membership = sys.membership.freeThreads [t] := by
  simp only [membership, Membership.freeThreads, Membership.mk.injEq]
  refine ⟨funext fun u => ?_, funext fun u => ?_, rfl, rfl⟩
  · by_cases here : u = t <;> simp [freeThread, updateThread, here]
  · by_cases here : u = t <;> simp [freeThread, updateThread, here]

lemma membership_freeThreads (ts : List Nat) :
    (sys.freeThreads ts).membership = sys.membership.freeThreads ts := by
  induction ts generalizing sys with
  | nil => simp [freeThreads, Membership.freeThreads]
  | cons t ts ih =>
    have rest := ih (sys.freeThread t)
    simp only [freeThreads, foldl_cons] at rest ⊢
    rw [rest, membership_freeThread]
    simp only [Membership.freeThreads, Membership.mk.injEq, and_true]
    funext u
    by_cases first : u = t <;> simp [first]

def lastToArrive (s : Nat) : Bool :=
  !decide (((sys.syncs s).numPaused + 1) % 2 ^ 32 < (sys.syncs s).threads.length)

/-- The threads that are freed when `t` is the last to arrive at a join. -/
def joinedBy (s t : Nat) (isMaster : Bool) : List Nat :=
  let slaves := (sys.syncs s).threads.tail
  if isMaster then slaves else t :: slaves.filter (· ≠ t)

lemma membership_finishSync (s t cost : Nat) (res : SyncResult) : (sys.finishSync s t cost res).membership =
      if res = .kill then sys.membership.freeThreads [t] else sys.membership := by
  cases res with
  | proceed =>
    rw [if_neg (by decide), finishSync]
    exact membership_updateThread sys t _ rfl rfl
  | deschedule =>
    rw [if_neg (by decide), finishSync]
    exact membership_updateThread sys t _ rfl rfl
  | kill =>
    rw [if_pos rfl, ← membership_freeThread]
    have same : sys.finishSync s t cost .kill =
        (sys.freeThread t).updateThread t fun th =>
          { th with time := th.time + cost, waiting := true } := by
      simp [finishSync, freeThread, updateThread]
    rw [same]
    exact membership_updateThread _ t _ rfl rfl

lemma membership_disband (s master : Nat) :
    (sys.updateSync s fun group => { group with join := false, threads := [master] }).membership =
      sys.membership.disband s master := by
  rw [membership_changeSync]
  exact congrArg (Membership.mk _ _ · _) (update_eq_self s _)

lemma membership_sync (s t cost : Nat) (isMaster : Bool) :
    ((sys.sync s t isMaster).1.finishSync s t cost (sys.sync s t isMaster).2).membership =
      match (sys.syncs s).threads with
      | [] => sys.membership
      | master :: _ =>
        if sys.lastToArrive s && (sys.syncs s).join then
          (sys.membership.freeThreads (sys.joinedBy s t isMaster)).disband s master
        else sys.membership := by
  have cnt (upd : Nat → Nat) :
      (sys.updateSync s fun group => { group with numPaused := upd group.numPaused }).membership =
        sys.membership := membership_updateSync sys s _ rfl rfl
  simp only [sync]
  by_cases waits : ((sys.syncs s).numPaused + 1) % 2 ^ 32 < (sys.syncs s).threads.length
  · have early : sys.lastToArrive s = false := by simp [lastToArrive, waits, -Nat.reducePow]
    simp only [waits, if_true, membership_finishSync, reduceCtorEq, if_false, early, Bool.false_and, Bool.false_eq_true]
    have paused : (if isMaster = true then
          sys.updateSync s fun group => { group with numPaused := (group.numPaused + 1) % 2 ^ 32 }
        else (sys.updateSync s fun group => { group with numPaused := (group.numPaused + 1) % 2 ^ 32 }).updateThread
          t fun th => { th with ssync := true }).membership = sys.membership := by
      split
      · exact cnt fun n => (n + 1) % 2 ^ 32
      · rw [membership_updateThread _ t _ rfl rfl]
        exact cnt fun n => (n + 1) % 2 ^ 32
    rw [paused]
    split <;> rfl
  · have last : sys.lastToArrive s = true := by simp [lastToArrive, waits, -Nat.reducePow]
    simp only [waits, if_false, last, Bool.true_and]
    cases join : (sys.syncs s).join with
    | false =>
      simp only [Bool.not_false, if_true, membership_finishSync, reduceCtorEq, if_false,
        membership_releaseThreads, Bool.false_eq_true]
      rw [cnt fun _ => 0]
      split <;> rfl
    | true =>
      simp only [Bool.not_true, Bool.false_eq_true, if_false, if_true]
      cases listed : (sys.syncs s).threads with
      | nil =>
        simp only [membership_finishSync, reduceCtorEq, if_false]
        exact cnt fun _ => 0
      | cons master ss =>
        cases isMaster with
        | true =>
          simp only [if_true, membership_finishSync, reduceCtorEq, if_false, membership_disband,
            membership_freeThreads, joinedBy, listed, tail_cons]
          rw [membership_updateThread _ master _ rfl rfl, cnt fun _ => 0]
        | false =>
          simp only [Bool.false_eq_true, if_false, membership_finishSync, if_true, membership_disband,
            membership_freeThreads, membership_schedule, joinedBy, listed, tail_cons]
          rw [membership_updateThread _ master _ rfl rfl, cnt fun _ => 0]
          simp only [Membership.freeThreads, Membership.disband, Membership.mk.injEq, and_true]
          funext u
          by_cases self : u = t <;> simp [self]

end System

instance : NeZero numThreads := ⟨by decide⟩

/-- The steps of guest programs that work on threads and groups. The thread that takes
the step comes last. -/
inductive GuestStep where
  | getrThread (t : Fin numThreads) (cost : Nat)
  | getrSync (t : Fin numThreads) (cost : Nat)
  | getst (s : Nat) (t : Fin numThreads) (cost : Nat)
  | msync (s : Nat) (t : Fin numThreads) (cost : Nat)
  | mjoin (s : Nat) (t : Fin numThreads) (cost : Nat)
  | ssync (t : Fin numThreads) (cost : Nat)
  | freet (t : Fin numThreads) (cost : Nat)
  | freerThread (u : Nat) (t : Fin numThreads) (cost : Nat)
  | freerSync (s : Nat) (t : Fin numThreads) (cost : Nat)
  /-- An event takes a thread away from a barrier. -/
  | cancel (s : Nat)
  /-- Whatever else happens to a thread. -/
  | other (t : Nat) (th : Thread)

namespace System

def guestStep (sys : System) : GuestStep → System
  | .getrThread t cost => sys.getrThread t cost
  | .getrSync t cost => sys.getrSync t cost
  | .getst s t cost => sys.getst s t cost
  | .msync s t cost => sys.msync s t cost
  | .mjoin s t cost => sys.mjoin s t cost
  | .ssync t cost => sys.ssync t cost
  | .freet t cost => sys.freet t cost
  | .freerThread u t cost => sys.freerThread u t cost
  | .freerSync s t cost => sys.freerSync s t cost
  | .cancel s => sys.cancel (.sync s)
  | .other t th => sys.updateThread t fun old => { th with inUse := old.inUse, sync := old.sync }

def arrivesAt (sys : System) : GuestStep → Option Nat
  | .msync s _ _ => if (sys.syncs s).inUse then some s else none
  | .mjoin s _ _ => if (sys.syncs s).inUse then some s else none
  | .ssync t _ => (sys.threads t).sync
  | _ => none

def freed (sys : System) : GuestStep → List Nat
  | .msync s t _ =>
    if (sys.syncs s).inUse && sys.lastToArrive s && (sys.syncs s).join then sys.joinedBy s t true else []
  | .mjoin s t _ => if (sys.syncs s).inUse && sys.lastToArrive s then sys.joinedBy s t true else []
  | .ssync t _ =>
    match (sys.threads t).sync with
    | some s => if sys.lastToArrive s && (sys.syncs s).join then sys.joinedBy s t false else []
    | none => []
  | .freet t _ => if (sys.threads t).sync.isSome then [] else [t.val]
  | .freerThread u _ _ => if (sys.threads u).inUse then [u] else []
  | _ => []

/-- The step frees no thread that a synchroniser in use goes on listing, and a thread
that makes itself the master of a new group is in use. -/
structure Orderly (sys : System) (step : GuestStep) : Prop where
  unlisted : ∀ u ∈ sys.freed step, ∀ s, (sys.syncs s).inUse = true → u ∈ (sys.syncs s).threads →
    sys.arrivesAt step = some s ∧ u ∈ (sys.syncs s).threads.tail
  master : ∀ t cost, step = .getrSync t cost → (sys.threads t).inUse = true

lemma unusedThread_spec {sys : System} {u : Nat} (found : sys.unusedThread = some u) :
    u < numThreads ∧ (sys.threads u).inUse = false := by
  have mem := mem_of_find?_eq_some found
  have free := find?_some found
  exact ⟨mem_range.mp mem, by simpa using free⟩

section

variable (sys : System)

lemma membership_allocThread (t time : Nat) : (sys.allocThread t time).membership = sys.membership.allocThread t :=
  membership_changeThread sys t _

lemma membership_spawn (s child time : Nat) :
    ((sys.allocThread child time).addChild s child).membership = sys.membership.spawn s child := by
  simp only [addChild, membership_changeThread, membership_changeSync, membership_allocThread]
  simp [Membership.spawn, Membership.allocThread, membership, updateSync, allocThread, updateThread]

lemma membership_allocSync (s master : Nat) :
    (sys.allocSync s master).membership = sys.membership.allocSync s master :=
  membership_changeSync sys s _

lemma membership_freeSync (s : Nat) : (sys.freeSync s).membership = sys.membership.freeSync s := by
  rw [freeSync, membership_changeSync]
  exact congrArg (Membership.mk _ _ _) (update_eq_self s _)

def joining (sys : System) (s : Nat) : System := sys.updateSync s fun group => { group with join := true }

lemma membership_joining (s : Nat) : (sys.joining s).membership = sys.membership :=
  membership_updateSync sys s _ rfl rfl

lemma joining_threads (s r : Nat) : ((sys.joining s).syncs r).threads = (sys.syncs r).threads ∧
      ((sys.joining s).syncs r).inUse = (sys.syncs r).inUse ∧
      ((sys.joining s).syncs r).numPaused = (sys.syncs r).numPaused := by
  by_cases here : r = s
  · subst here
    simp [joining, updateSync]
  · simp [joining, updateSync, here]

def joined (sys : System) (s t : Nat) (isMaster joins : Bool) : Membership :=
  match (sys.syncs s).threads with
  | [] => sys.membership
  | master :: _ =>
    if sys.lastToArrive s && joins then
      (sys.membership.freeThreads (sys.joinedBy s t isMaster)).disband s master
    else sys.membership

def regrouped (sys : System) : GuestStep → Membership
  | .getrThread _ _ =>
    match sys.unusedThread with
    | some u => sys.membership.allocThread u
    | none => sys.membership
  | .getrSync t _ =>
    match sys.unusedSync with
    | some s => sys.membership.allocSync s t
    | none => sys.membership
  | .getst s _ _ =>
    if (sys.syncs s).inUse then
      match sys.unusedThread with
      | some child => sys.membership.spawn s child
      | none => sys.membership
    else sys.membership
  | .msync s t _ => if (sys.syncs s).inUse then sys.joined s t true (sys.syncs s).join else sys.membership
  | .mjoin s t _ => if (sys.syncs s).inUse then sys.joined s t true true else sys.membership
  | .ssync t _ =>
    match (sys.threads t).sync with
    | none => sys.membership
    | some s => sys.joined s t false (sys.syncs s).join
  | .freet t _ => if (sys.threads t).sync.isSome then sys.membership else sys.membership.freeThreads [t.val]
  | .freerThread u _ _ => if (sys.threads u).inUse then sys.membership.freeThreads [u] else sys.membership
  | .freerSync s _ _ => if (sys.syncs s).inUse then sys.membership.freeSync s else sys.membership
  | .cancel _ => sys.membership
  | .other _ _ => sys.membership

lemma membership_mjoin (s t cost : Nat) :
    (((sys.joining s).sync s t true).1.finishSync s t cost ((sys.joining s).sync s t true).2).membership =
      sys.joined s t true true := by
  obtain ⟨listed, -, cnt⟩ := joining_threads sys s s
  have join : ((sys.joining s).syncs s).join = true := by simp [joining, updateSync]
  have last : (sys.joining s).lastToArrive s = sys.lastToArrive s := by
    simp only [lastToArrive, listed, cnt]
  have freed : (sys.joining s).joinedBy s t true = sys.joinedBy s t true := by
    simp only [joinedBy, listed]
  rw [membership_sync, membership_joining, listed, join, last, freed, joined]

lemma membership_guestStep (step : GuestStep) : (sys.guestStep step).membership = sys.regrouped step := by
  cases step with
  | getrThread t cost =>
    simp only [guestStep, getrThread, regrouped]
    cases sys.unusedThread with
    | none => rw [membership_advance]
    | some u => rw [membership_advance, membership_allocThread]
  | getrSync t cost =>
    simp only [guestStep, getrSync, regrouped]
    cases sys.unusedSync with
    | none => rw [membership_advance]
    | some s => rw [membership_advance, membership_allocSync]
  | getst s t cost =>
    simp only [guestStep, getst, regrouped]
    cases (sys.syncs s).inUse with
    | false => exact membership_raise sys t
    | true =>
      cases sys.unusedThread with
      | none => exact membership_advance sys t cost
      | some child => exact (membership_advance _ t cost).trans (membership_spawn sys s child _)
  | msync s t cost =>
    simp only [guestStep, msync, regrouped]
    cases (sys.syncs s).inUse with
    | false => exact membership_raise sys t
    | true => exact membership_sync sys s t cost true
  | mjoin s t cost =>
    simp only [guestStep, mjoin, regrouped]
    cases (sys.syncs s).inUse with
    | false => exact membership_raise sys t
    | true => exact membership_mjoin sys s t cost
  | ssync t cost =>
    simp only [guestStep, ssync, regrouped]
    cases (sys.threads t).sync with
    | none => exact membership_updateThread sys t _ rfl rfl
    | some s => exact membership_sync sys s t cost false
  | freet t cost =>
    simp only [guestStep, freet, regrouped]
    cases (sys.threads t).sync.isSome with
    | true => rfl
    | false =>
      simp only [Bool.false_eq_true, if_false]
      rw [membership_updateThread _ t _ rfl rfl, membership_freeThread]
  | freerThread u t cost =>
    simp only [guestStep, freerThread, regrouped]
    cases (sys.threads u).inUse with
    | false => exact membership_raise sys t
    | true => exact (membership_advance _ t cost).trans (membership_freeThread sys u)
  | freerSync s t cost =>
    simp only [guestStep, freerSync, regrouped]
    cases (sys.syncs s).inUse with
    | false => exact membership_raise sys t
    | true => exact (membership_advance _ t cost).trans (membership_freeSync sys s)
  | cancel s =>
    rw [guestStep, cancel, membership_updateSync _ _ _ rfl rfl]
    rfl
  | other t th =>
    rw [guestStep, membership_updateThread _ _ _ rfl rfl]
    rfl

end

lemma valid_joined {sys : System} (valid : sys.membership.Valid) {s t : Nat} {isMaster joins : Bool}
    (apart : sys.lastToArrive s = true → joins = true → ∀ u ∈ sys.joinedBy s t isMaster,
      ∀ r, (sys.syncs r).inUse = true → u ∈ (sys.syncs r).threads → r = s ∧ u ∈ (sys.syncs s).threads.tail) :
    (sys.joined s t isMaster joins).Valid := by
  rw [joined]
  cases listed : (sys.syncs s).threads with
  | nil => exact valid
  | cons master ss =>
    dsimp only
    split
    case isFalse => exact valid
    case isTrue joins =>
      simp only [Bool.and_eq_true] at joins
      refine valid.disband listed fun u freed r act mem => ?_
      have slave := apart joins.1 joins.2 u freed r act mem
      rw [listed] at slave
      exact slave

lemma valid_guestStep {sys : System} (valid : sys.membership.Valid) {step : GuestStep}
    (tidy : sys.Orderly step) : (sys.guestStep step).membership.Valid := by
  have unlisted := tidy.unlisted
  rw [membership_guestStep]
  fun_cases System.regrouped sys step
  case case1 u found => exact valid.allocThread (unusedThread_spec found).2
  case case3 t cost s _ => exact valid.allocSync t.isLt (tidy.master t cost rfl) s
  case case5 act child found => exact valid.spawn act (unusedThread_spec found).1 (unusedThread_spec found).2
  case case8 act | case10 act =>
    refine valid_joined valid fun last join u freed r activeR mem => ?_
    have slave := unlisted u (by simpa [System.freed, act, last, join] using freed) r activeR mem
    simp only [arrivesAt, act, if_true, Option.some.injEq] at slave
    exact ⟨slave.1.symm, slave.1 ▸ slave.2⟩
  case case13 s group =>
    refine valid_joined valid fun last join u freed r activeR mem => ?_
    have slave := unlisted u (by simpa [System.freed, group, last, join] using freed) r activeR mem
    simp only [arrivesAt, group, Option.some.injEq] at slave
    exact ⟨slave.1.symm, slave.1 ▸ slave.2⟩
  case case15 whole | case16 whole =>
    refine valid.freeThreads fun u freed s act mem => ?_
    have arr := (unlisted u (by simpa [System.freed, whole] using freed) s act mem).1
    cases arr
  case case18 s _ _ _ => exact valid.freeSync s
  all_goals exact valid

def booted : System := initial.allocThread 0 0

lemma valid_booted : booted.membership.Valid := by
  refine ⟨fun s act => ?_, fun s => ?_⟩
  · cases act
  · exact Nat.zero_le _

structure GroupsInBounds (sys : System) : Prop where
  length : ∀ s, (sys.syncs s).threads.length ≤ numThreads
  slaves : ∀ s, (sys.syncs s).inUse = true → ∀ u ∈ (sys.syncs s).threads.tail,
    (sys.threads u).inUse = true ∧ (sys.threads u).sync = some s

/-- As long as no listed thread is freed behind its group's back, no array is overrun and
every slave is a thread in use that knows its group. -/
theorem groups_in_bounds {steps : List GuestStep} (tidy : Runs.Meets guestStep Orderly booted steps) :
    (steps.foldl guestStep booted).GroupsInBounds := by
  have preserved : ∀ (sys : System) (step : GuestStep), sys.membership.Valid → sys.Orderly step →
      (sys.guestStep step).membership.Valid := fun _ _ valid met => valid_guestStep valid met
  have valid : (steps.foldl guestStep booted).membership.Valid := tidy.invariant preserved valid_booted
  refine ⟨valid.room, fun s active u slave => ⟨?_, ?_⟩⟩
  · exact (valid.group s active).inUse u (List.mem_of_mem_tail slave)
  · exact (valid.group s active).slaves u slave

/-- A master makes a group with one slave and joins it. -/
def joinedGroup : List GuestStep := [.getrSync 0 4, .getst 0 0 4, .mjoin 0 0 4]

theorem joinedGroup_in_bounds : (joinedGroup.foldl guestStep booted).GroupsInBounds := by
  refine groups_in_bounds ⟨⟨nofun, fun t cost taken => ?_⟩, ⟨nofun, nofun⟩, ⟨?_, nofun⟩, trivial⟩
  · cases taken
    rfl
  · intro u freed s active mem
    have slave : u = 1 := List.mem_singleton.mp freed
    by_cases here : s = 0
    · subst here
      exact ⟨rfl, slave ▸ List.mem_singleton.mpr rfl⟩
    · change (update (update initial.syncs 0 _) 0 _ s).inUse = true at active
      rw [update_of_ne here, update_of_ne here] at active
      cases active

def freedSlave : List GuestStep := [.getrSync 0 4, .getst 0 0 4, .freerThread 1 0 4]

/-- A master makes seven slaves. One of them frees the master and makes a slave itself. -/
def freedMaster : List GuestStep :=
  .getrSync 0 4 :: List.replicate 7 (.getst 0 0 4) ++ [.freerThread 0 1 4, .getst 0 1 4]

/-- The freed slave stays on the list; the freed master is taken as the ninth thread. -/
theorem freed_threads_stay_listed : ¬(freedSlave.foldl guestStep booted).GroupsInBounds ∧
      ¬(freedMaster.foldl guestStep booted).GroupsInBounds := by
  refine ⟨fun bounds => ?_, fun bounds => ?_⟩
  · have used := (bounds.slaves 0 rfl 1 (by decide)).1
    exact absurd used (by decide)
  · have fits := bounds.length 0
    exact absurd fits (by decide)

end System

end Axe
