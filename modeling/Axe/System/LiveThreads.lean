import Axe.System.ThreadLives

/-! Every thread in the queue is in use, as long as no thread is freed that something still
refers to. -/

namespace Axe

namespace System

def links (sys : System) : (Nat → PortLinks) × (Nat → Chanend) × (Nat → Timer) × (Nat → Lock) :=
  (sys.ports, sys.chanends, sys.timers, sys.locks)

lemma recorded_of_links {sys post : System} (same : post.links = sys.links) :
    post.table.recorded = sys.table.recorded := by
  simp only [links, Prod.mk.injEq] at same
  obtain ⟨ports, ends, timers, locks⟩ := same
  funext slot
  cases slot <;> simp [table, ports, ends, timers, locks]

lemma eventable_of_links {sys post : System} (same : post.links = sys.links) (res : ResourceRef) :
    post.eventable res = sys.eventable res := by
  simp only [links, Prod.mk.injEq] at same
  obtain ⟨ports, ends, timers, -⟩ := same
  cases res <;> simp [eventable, ports, ends, timers]

section

variable (sys : System)

@[simp] lemma links_updateThread (t : Nat) (upd : Thread → Thread) :
    (sys.updateThread t upd).links = sys.links := rfl

@[simp] lemma links_updateSync (s : Nat) (upd : Synchroniser → Synchroniser) :
    (sys.updateSync s upd).links = sys.links := rfl

@[simp] lemma links_schedule (t : Nat) : (sys.schedule t).links = sys.links := rfl

@[simp] lemma links_releaseThread (newTime arriver : Nat) (slave : Bool) (u : Nat) :
    (sys.releaseThread newTime arriver slave u).links = sys.links := by
  simp only [releaseThread]
  split <;> rfl

@[simp] lemma links_releaseThreads (newTime arriver : Nat) (threads : List Nat) :
    (sys.releaseThreads newTime arriver threads).links = sys.links := by
  cases threads with
  | nil => rfl
  | cons mst ss =>
    rw [releaseThreads, ← sys.links_releaseThread newTime arriver false mst]
    generalize sys.releaseThread newTime arriver false mst = begun
    induction ss generalizing begun with
    | nil => rfl
    | cons first rest ih => exact (ih _).trans (begun.links_releaseThread newTime arriver true first)

@[simp] lemma links_freeThreads (threads : List Nat) : (sys.freeThreads threads).links = sys.links := by
  induction threads generalizing sys with
  | nil => rfl
  | cons first rest ih => exact ih (sys.freeThread first)

lemma links_finishSync (s t cost : Nat) (res : SyncResult) :
    (sys.finishSync s t cost res).links = sys.links := by
  cases res <;> rfl

lemma links_sync (s t : Nat) (isMaster : Bool) : (sys.sync s t isMaster).1.links = sys.links := by
  simp only [sync]
  split
  · split <;> rfl
  · split
    · simp
    · split
      · rfl
      · split <;> simp

lemma links_guestStep (step : GuestStep) : (sys.guestStep step).links = sys.links := by
  cases step with
  | getrThread | getrSync | freet | freerThread | freerSync =>
    simp only [guestStep, getrThread, getrSync, freet, freerThread, freerSync]
    split <;> rfl
  | getst s t cost =>
    simp only [guestStep, getst]
    split
    · split <;> rfl
    · rfl
  | msync s t cost =>
    simp only [guestStep, msync]
    split
    · rw [links_finishSync, links_sync]
    · rfl
  | mjoin s t cost =>
    simp only [guestStep, mjoin]
    split
    · rw [links_finishSync, links_sync, links_updateSync]
    · rfl
  | ssync t cost =>
    simp only [guestStep, ssync]
    split
    · rfl
    · rw [links_finishSync, links_sync]
  | cancel | other => rfl

end

def Queued (sys : System) (u : Nat) : Prop := (sys.threads u).wakeUpTime.isSome = true
  deriving Decidable

section

variable {sys : System} {u : Nat} {t cost s newTime arriver : Nat} {threads : List Nat}

lemma queued_updateThread {upd : Thread → Thread}
    (same : (upd (sys.threads t)).wakeUpTime = (sys.threads t).wakeUpTime) :
    (sys.updateThread t upd).Queued u ↔ sys.Queued u := by
  by_cases here : u = t
  · subst here
    simp [Queued, updateThread, same]
  · simp [Queued, updateThread, here]

@[simp] lemma queued_advance : (sys.advance t cost).Queued u ↔ sys.Queued u := queued_updateThread rfl

@[simp] lemma queued_raise : (sys.raise t).Queued u ↔ sys.Queued u := queued_updateThread rfl

@[simp] lemma queued_allocThread {time : Nat} : (sys.allocThread t time).Queued u ↔ sys.Queued u :=
  queued_updateThread rfl

@[simp] lemma queued_freeThread : (sys.freeThread t).Queued u ↔ sys.Queued u := queued_updateThread rfl

@[simp] lemma queued_updateSync {upd : Synchroniser → Synchroniser} :
    (sys.updateSync s upd).Queued u ↔ sys.Queued u := Iff.rfl

lemma queued_schedule (inQ : (sys.schedule t).Queued u) : sys.Queued u ∨ u = t := by
  by_cases here : u = t
  · exact .inr here
  · exact .inl (by simpa [Queued, schedule, updateThread, here] using inQ)

lemma queued_releaseThread {v : Nat} {slave : Bool}
    (inQ : (sys.releaseThread newTime arriver slave v).Queued u) : sys.Queued u ∨ u = v := by
  simp only [releaseThread] at inQ
  split at inQ
  · rw [queued_updateThread rfl] at inQ
    exact .inl inQ
  · rcases queued_schedule inQ with pre | here
    · rw [queued_updateThread rfl, queued_updateThread rfl] at pre
      exact .inl pre
    · exact .inr here

lemma queued_releaseSlaves {ss : List Nat}
    (inQ : (ss.foldl (releaseThread newTime arriver true) sys).Queued u) : sys.Queued u ∨ u ∈ ss := by
  induction ss generalizing sys with
  | nil => exact .inl inQ
  | cons first rest ih =>
    rcases ih inQ with pre | later
    · rcases queued_releaseThread pre with prior | rfl
      · exact .inl prior
      · exact .inr (List.mem_cons_self ..)
    · exact .inr (List.mem_cons_of_mem _ later)

lemma queued_releaseThreads
    (inQ : (sys.releaseThreads newTime arriver threads).Queued u) : sys.Queued u ∨ u ∈ threads := by
  cases threads with
  | nil => exact .inl inQ
  | cons mst ss =>
    rcases queued_releaseSlaves inQ with pre | slave
    · rcases queued_releaseThread pre with prior | rfl
      · exact .inl prior
      · exact .inr (List.mem_cons_self ..)
    · exact .inr (List.mem_cons_of_mem _ slave)

lemma queued_freeThreads : (sys.freeThreads threads).Queued u ↔ sys.Queued u := by
  induction threads generalizing sys with
  | nil => rfl
  | cons first rest ih =>
    have step : ((sys.freeThread first).freeThreads rest).Queued u ↔ (sys.freeThread first).Queued u := ih
    exact step.trans queued_freeThread

lemma queued_finishSync {res : SyncResult} : (sys.finishSync s t cost res).Queued u ↔ sys.Queued u := by
  cases res <;> rw [finishSync, queued_updateThread rfl]

/-- An arrival puts the group in the queue if it completes it, or the master if it completes
a join. -/
lemma queued_sync {isMaster : Bool} (inQ : (sys.sync s t isMaster).1.Queued u) :
    sys.Queued u ∨ (u ∈ (sys.syncs s).threads ∧ sys.lastToArrive s = true ∧ (sys.syncs s).join = false) ∨
      (sys.syncs s).threads.head? = some u := by
  simp only [sync] at inQ
  split at inQ
  case isTrue waits =>
    split at inQ
    · exact .inl inQ
    · rw [queued_updateThread rfl] at inQ
      exact .inl inQ
  case isFalse complete =>
    have last : sys.lastToArrive s = true := by simpa [lastToArrive] using complete
    cases join : (sys.syncs s).join with
    | false =>
      simp only [join, Bool.not_false, if_true] at inQ
      rcases queued_releaseThreads inQ with pre | mem
      · exact .inl pre
      · exact .inr (.inl ⟨mem, last, rfl⟩)
    | true =>
      simp only [join, Bool.not_true, Bool.false_eq_true, if_false] at inQ
      cases listed : (sys.syncs s).threads with
      | nil =>
        simp only [listed] at inQ
        exact .inl inQ
      | cons mst ss =>
        simp only [listed] at inQ
        split at inQ
        · have freed := queued_freeThreads.mp inQ
          rw [queued_updateThread rfl] at freed
          exact .inl freed
        · rcases queued_schedule (queued_freeThreads.mp inQ) with early | rfl
          · rw [queued_updateThread rfl] at early
            exact .inl early
          · exact .inr (.inr rfl)

/-- A step on groups puts in the queue only threads it lets go from a barrier and the master
of a group. -/
lemma queued_guestStep {step : GuestStep} {t : Fin numThreads} (taken : step.thread = some t)
    (inQ : (sys.guestStep step).Queued u) :
    sys.Queued u ∨ u ∈ sys.released step ∨ ∃ s, (sys.syncs s).threads.head? = some u := by
  cases step with
  | getrThread | getrSync | freerThread | freerSync =>
    simp only [guestStep, getrThread, getrSync, freerThread, freerSync] at inQ
    split at inQ <;> exact .inl (by simpa [allocSync, freeSync] using inQ)
  | getst s t cost =>
    simp only [guestStep, getst] at inQ
    split at inQ
    · split at inQ
      · rw [queued_advance, addChild, queued_updateThread rfl] at inQ
        have pre : (sys.allocThread _ (sys.threads t).time).Queued u := inQ
        exact .inl (queued_allocThread.mp pre)
      · exact .inl (queued_advance.mp inQ)
    · exact .inl (queued_raise.mp inQ)
  | msync s t cost =>
    simp only [guestStep, msync] at inQ
    split at inQ
    case isTrue act =>
      rcases queued_sync (queued_finishSync.mp inQ) with pre | ⟨mem, last, join⟩ | head
      · exact .inl pre
      · exact .inr (.inl (by simpa [released, act, last, join] using mem))
      · exact .inr (.inr ⟨s, head⟩)
    case isFalse => exact .inl (queued_raise.mp inQ)
  | mjoin s t cost =>
    simp only [guestStep, mjoin] at inQ
    split at inQ
    · have join : ((sys.joining s).syncs s).join = true := by simp [joining, updateSync]
      have came : ((sys.joining s).sync s t true).1.Queued u := queued_finishSync.mp inQ
      rcases queued_sync came with pre | ⟨-, -, unset⟩ | head
      · exact .inl pre
      · simp [join] at unset
      · rw [(sys.joining_threads s s).1] at head
        exact .inr (.inr ⟨s, head⟩)
    · exact .inl (queued_raise.mp inQ)
  | ssync t cost =>
    simp only [guestStep, ssync] at inQ
    split at inQ
    case h_1 =>
      rw [queued_updateThread rfl] at inQ
      exact .inl inQ
    case h_2 s group =>
      rcases queued_sync (queued_finishSync.mp inQ) with pre | ⟨mem, last, join⟩ | head
      · exact .inl pre
      · exact .inr (.inl (by simpa [released, group, last, join] using mem))
      · exact .inr (.inr ⟨s, head⟩)
  | freet t cost =>
    simp only [guestStep, freet] at inQ
    split at inQ
    · exact .inl inQ
    · rw [queued_updateThread rfl, queued_freeThread] at inQ
      exact .inl inQ
  | cancel | other => cases taken

end

section

variable {sys : System} {step : GuestStep} {u : Nat}

lemma joined_inUse {s t : Nat} {isMaster joins : Bool} (used : sys.membership.inUse u = true)
    (kept : sys.lastToArrive s = true → joins = true → u ∉ sys.joinedBy s t isMaster) :
    (sys.joined s t isMaster joins).inUse u = true := by
  simp only [joined]
  split
  · exact used
  · split
    case isTrue both =>
      simp only [Bool.and_eq_true] at both
      simpa [Membership.disband, Membership.freeThreads, kept both.1 both.2] using used
    case isFalse => exact used

lemma regrouped_inUse (used : (sys.threads u).inUse = true) (kept : u ∉ sys.freed step) :
    (sys.regrouped step).inUse u = true := by
  have same : sys.membership.inUse u = true := used
  fun_cases System.regrouped sys step
  case case1 | case5 => simp [Membership.allocThread, Membership.spawn, Function.update_apply, same]
  case case8 act => exact joined_inUse used fun last join => by simpa [freed, act, last, join] using kept
  case case10 act => exact joined_inUse used fun last _ => by simpa [freed, act, last] using kept
  case case13 group => exact joined_inUse used fun last join => by simpa [freed, group, last, join] using kept
  case case15 t _ alone =>
    have other : u ≠ t := by simpa [freed, alone] using kept
    simpa [Membership.freeThreads, other] using same
  case case16 v _ _ inUse =>
    have other : u ≠ v := by simpa [freed, inUse] using kept
    simpa [Membership.freeThreads, other] using same
  all_goals exact same

inductive ListChange (sys : System) (step : GuestStep) (s : Nat) (post : List Nat) : Prop where
  | same (list : post = (sys.syncs s).threads)
      (apart : sys.arrivesAt step = some s → sys.freed step = [] ∨ (sys.syncs s).threads = [])
  | made (t : Nat) (master : step.thread.map Fin.val = some t) (none : sys.freed step = []) (list : post = [t])
  | grown (child : Nat) (new : sys.allocated step = some child) (active : (sys.syncs s).inUse = true)
      (list : post = (sys.syncs s).threads ++ [child])
  | joined (master : Nat) (head : (sys.syncs s).threads.head? = some master) (list : post = [master])

lemma joined_listed (s t r : Nat) (isMaster joins : Bool) (arr : sys.arrivesAt step = some s)
    (freed : sys.freed step = if sys.lastToArrive s && joins then sys.joinedBy s t isMaster else []) :
    ListChange sys step r ((sys.joined s t isMaster joins).listed r) := by
  simp only [joined]
  cases listed : (sys.syncs s).threads with
  | nil =>
    refine .same rfl fun here => .inr ?_
    obtain rfl : s = r := by simpa [arr] using here
    exact listed
  | cons mst ss =>
    dsimp only
    split
    case isTrue =>
      by_cases here : r = s
      · subst here
        exact .joined mst (by simp [listed]) (by simp [Membership.disband])
      · refine .same (by simp [Membership.disband, Membership.freeThreads, here, membership]) fun came => ?_
        exact absurd (Option.some.inj (arr.symm.trans came)).symm here
    case isFalse neither => exact .same rfl fun _ => .inl (by rw [freed, if_neg neither])

lemma regrouped_list (sys : System) (step : GuestStep) (s : Nat) :
    ListChange sys step s ((sys.regrouped step).listed s) := by
  have never {p : Prop} : none = some s → p := (absurd · (Option.some_ne_none s).symm)
  fun_cases System.regrouped sys step
  case case3 t _ r _ =>
    by_cases here : s = r
    · exact .made t rfl rfl (by simp [Membership.allocSync, here])
    · exact .same (by simp [Membership.allocSync, here, membership]) never
  case case5 r _ _ act child found =>
    by_cases here : s = r
    · subst here
      exact .grown child (by simp [allocated, act, found]) act (by simp [Membership.spawn, membership])
    · exact .same (by simp [Membership.spawn, here, membership]) never
  case case8 r t _ act | case10 r t _ act =>
    exact joined_listed r t s _ _ (by simp [arrivesAt, act]) (by simp [System.freed, act])
  case case9 inactive | case11 inactive | case12 inactive =>
    exact .same rfl fun arr => by simp [arrivesAt, inactive] at arr
  case case13 t _ r group => exact joined_listed r t s _ _ group (by simp [System.freed, group])
  all_goals exact .same rfl never

lemma allocated_spec (new : sys.allocated step = some u) :
    (sys.threads u).inUse = false ∧ (sys.regrouped step).inUse u = true := by
  cases step with
  | getrThread t cost =>
    have found : sys.unusedThread = some u := new
    exact ⟨(unusedThread_spec found).2, by simp [regrouped, found, Membership.allocThread]⟩
  | getst s t cost =>
    simp only [allocated] at new
    split at new
    case isTrue act => exact ⟨(unusedThread_spec new).2, by simp [regrouped, act, new, Membership.spawn]⟩
    case isFalse => cases new
  | _ => cases new

/-- Only listed threads are let go, and no step both lets a group go on and frees threads. -/
lemma released_spec (isReleased : u ∈ sys.released step) :
    (∃ s, u ∈ (sys.syncs s).threads) ∧ sys.freed step = [] := by
  cases step with
  | msync s t cost =>
    simp only [released] at isReleased
    split at isReleased
    case isTrue open_ =>
      simp only [Bool.and_eq_true, Bool.not_eq_true'] at open_
      exact ⟨⟨s, isReleased⟩, by simp [freed, open_.2]⟩
    case isFalse => cases isReleased
  | ssync t cost =>
    simp only [released] at isReleased
    split at isReleased
    case h_1 => cases isReleased
    case h_2 s group =>
      split at isReleased
      case isTrue open_ =>
        simp only [Bool.and_eq_true, Bool.not_eq_true'] at open_
        exact ⟨⟨s, isReleased⟩, by simp [freed, group, open_.2]⟩
      case isFalse => cases isReleased
  | _ => cases isReleased

lemma allocated_not_freed (new : sys.allocated step = some u) : sys.freed step = [] := by
  cases step with
  | getrThread | getst => rfl
  | _ => cases new

lemma joined_active {s t r : Nat} {isMaster joins : Bool} :
    (sys.joined s t isMaster joins).active r = sys.membership.active r := by
  simp only [joined]
  split
  · rfl
  · split <;> rfl

lemma regrouped_active {s : Nat} (act : (sys.regrouped step).active s = true) :
    (sys.syncs s).inUse = true ∨ (sys.regrouped step).listed s ≠ [] := by
  revert act
  fun_cases System.regrouped sys step <;> intro act
  case case3 r _ =>
    by_cases here : s = r
    · exact .inr (by simp [Membership.allocSync, here])
    · exact .inl (by simpa [Membership.allocSync, here, membership] using act)
  case case8 | case10 | case13 =>
    rw [joined_active] at act
    exact .inl act
  case case18 r _ _ used =>
    by_cases here : s = r
    · exact .inl (here ▸ used)
    · exact .inl (by simpa [Membership.freeSync, here, membership] using act)
  all_goals exact .inl act

end

end System

end Axe
