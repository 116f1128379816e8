import Axe.System.Groups

/-! Runs of one group: what holds after every interleaving of the instructions of its
members and of the interrupts that call them away from the barrier. -/

namespace Axe

open Function List

open Barrier (OthersWait)

inductive GroupOp where
  | msync
  | mjoin
  | ssync
  deriving DecidableEq, Repr

/-- The system with the threads that were made for the group and not started yet, and
the instruction each member has begun and not completed. -/
structure GroupRun where
  sys : System
  fresh : Nat → Bool
  began : Nat → Option GroupOp

inductive GroupStep where
  /-- The master makes a slave. -/
  | getst (cost : Nat)
  | msync (cost : Nat)
  | mjoin (cost : Nat)
  | ssync (t cost : Nat)
  /-- A waiting member takes an interrupt of a resource it owns. -/
  | interrupt (t : Nat) (res : ResourceRef) (time : Nat)
  /-- `TINITPC`. -/
  | setPc (t pc : Nat)
  /-- Whatever else becomes of a thread that does not wait in the group. -/
  | other (t : Nat) (th : Thread)
  /-- Whatever else becomes of other resources. -/
  | environment (sys : System)

namespace GroupRun

open Axe.System

/-- A member waits in the group when it is paused on the synchroniser or has not been
started. -/
def waits (s : Nat) (run : GroupRun) (u : Nat) : Bool :=
  run.fresh u || decide ((run.sys.threads u).pausedOn = some (.sync s))

def members (s : Nat) (run : GroupRun) : List Nat := (run.sys.syncs s).threads

def arrived (s t : Nat) (op : GroupOp) (run : GroupRun) (post : System) : GroupRun :=
  if run.sys.lastToArrive s then
    { sys := post
      fresh := fun u => run.fresh u && decide (u ∉ run.members s)
      began := fun u => if u ∈ run.members s then none else run.began u }
  else { sys := post, fresh := run.fresh, began := update run.began t (some op) }

variable (s m : Nat)

def step (run : GroupRun) : GroupStep → GroupRun
  | .getst cost =>
    match run.sys.unusedThread with
    | some child =>
      { sys := run.sys.getst s m cost
        fresh := update run.fresh child true
        began := update run.began child none }
    | none => { run with sys := run.sys.getst s m cost }
  | .msync cost => run.arrived s m .msync (run.sys.msync s m cost)
  | .mjoin cost => run.arrived s m .mjoin (run.sys.mjoin s m cost)
  | .ssync t cost => run.arrived s t .ssync (run.sys.ssync t cost)
  | .interrupt _ res time => { run with sys := run.sys.event res time }
  | .setPc t pc => { run with sys := run.sys.updateThread t fun th => { th with pc := pc } }
  | .other t th => { run with sys := run.sys.updateThread t fun _ => th }
  | .environment sys => { run with sys := sys }

structure Executes (run : GroupRun) (t : Nat) (op : GroupOp) : Prop where
  member : t ∈ run.members s
  runs : run.waits s t = false
  again : run.began t = none ∨ run.began t = some op

def Admissible (run : GroupRun) : GroupStep → Prop
  | .getst _ => run.waits s m = false
  | .msync _ => run.Executes s m .msync
  | .mjoin _ => run.Executes s m .mjoin
  | .ssync t _ => t ≠ m ∧ run.Executes s t .ssync
  | .interrupt t res _ =>
    t ∈ run.members s ∧ (run.sys.threads t).pausedOn = some (.sync s) ∧
      (run.sys.eventable res).owner = some t ∧ (run.sys.eventable res).interruptMode = true ∧
      run.sys.currentRunnable ≠ some t
  | .setPc _ _ => True
  | .other t th =>
    t ∈ run.members s → run.waits s t = false ∧ th.pausedOn ≠ some (.sync s) ∧ th.inUse = true ∧
      th.sync = (run.sys.threads t).sync
  | .environment sys => sys.threads = run.sys.threads ∧ sys.syncs s = run.sys.syncs s

structure Group (run : GroupRun) : Prop where
  active : (run.sys.syncs s).inUse = true
  master : run.members s = m :: (run.members s).tail
  valid : run.sys.membership.ValidGroup s
  fresh : ∀ u, run.fresh u = true → u ∈ (run.members s).tail ∧ (run.sys.threads u).pausedOn ≠ some (.sync s)
  waiting : ∀ u ∈ run.members s, (run.sys.threads u).pausedOn = some (.sync s) →
    (run.sys.threads u).waiting = true
  /-- `NumPaused` counts the members that wait in the group. -/
  count : (run.sys.syncs s).numPaused = (run.members s).countP (run.waits s)

/-- The group joins exactly when its master is in an `MJOIN` it has not completed. -/
def Joins (run : GroupRun) : Prop := (run.sys.syncs s).join = true ↔ run.began m = some .mjoin

variable {s m} {run : GroupRun}

lemma Group.nodup (group : run.Group s m) : (run.members s).Nodup := group.valid.nodup

lemma Group.length (group : run.Group s m) : (run.members s).length ≤ numThreads :=
  Membership.length_le_numThreads group.valid.nodup group.valid.core

variable {t : Nat}

lemma Group.count_lt (group : run.Group s m) (mem : t ∈ run.members s)
    (runs : run.waits s t = false) : (run.sys.syncs s).numPaused < numThreads := by
  rw [group.count]
  exact Nat.lt_of_lt_of_le (Barrier.countP_lt_length mem runs) group.length

lemma Group.lastToArrive_iff (group : run.Group s m) (mem : t ∈ run.members s) (runs : run.waits s t = false) :
    run.sys.lastToArrive s = true ↔ OthersWait (run.waits s) (run.members s) t := by
  have small := group.count_lt mem runs
  have exact : ((run.sys.syncs s).numPaused + 1) % 2 ^ 32 = (run.sys.syncs s).numPaused + 1 := by
    refine Nat.mod_eq_of_lt ?_
    simp only [numThreads] at small
    omega
  rw [Barrier.othersWait_iff group.nodup mem runs, ← group.count]
  simp only [lastToArrive, exact, Bool.not_eq_true', decide_eq_false_iff_not]
  rfl

lemma Group.not_paused (runs : run.waits s t = false) :
    run.fresh t = false ∧ (run.sys.threads t).pausedOn ≠ some (.sync s) := by
  simpa [waits] using runs

lemma Group.alone (group : run.Group s m) {post : GroupRun} (act : (post.sys.syncs s).inUse = true)
    (members : post.members s = [m]) (cnt : (post.sys.syncs s).numPaused = 0)
    (inUse : (post.sys.threads m).inUse = (run.sys.threads m).inUse) (fresh : ∀ u, post.fresh u = false)
    (pausedOn : (post.sys.threads m).pausedOn ≠ some (.sync s)) : post.Group s m := by
  have isMember : m ∈ run.members s := group.master ▸ mem_cons_self ..
  refine ⟨act, by simp [members], ?_, ?_, ?_, ?_⟩
  · refine Membership.validGroup_singleton members (group.valid.core m isMember) ?_
    exact inUse.trans (group.valid.inUse m isMember)
  · intro u isFresh
    simp [fresh u] at isFresh
  · intro u mem held
    rw [members, mem_singleton] at mem
    exact absurd (mem ▸ held) pausedOn
  · rw [cnt, Barrier.countP_eq_zero]
    intro u mem
    rw [members, mem_singleton] at mem
    subst mem
    simp [waits, fresh u, pausedOn]

lemma Group.new (group : run.Group s m) {child : Nat} (free : (run.sys.threads child).inUse = false) :
    ∀ u ∈ run.members s, u ≠ child := by
  intro u isIn same
  have used : (run.sys.threads u).inUse = true := group.valid.inUse u isIn
  simp [same, free] at used

lemma Group.fresh_member (group : run.Group s m) {u : Nat} (fresh : run.fresh u = true) : u ∈ run.members s :=
  mem_of_mem_tail (group.fresh u fresh).1

variable {isMaster : Bool}

section

variable (group : run.Group s m)
include group

variable {op : GroupOp}

lemma Group.arrived_early {cost : Nat} (mem : t ∈ run.members s) (runs : run.waits s t = false)
    (early : run.sys.lastToArrive s = false) : (run.arrived s t op (run.sys.arrive s t cost isMaster)).Group s m := by
  obtain ⟨ts, sync⟩ := arrive_early (t := t) cost isMaster early
  have small := group.count_lt mem runs
  have notFresh : run.fresh t = false := (not_paused runs).1
  simp only [arrived, early, Bool.false_eq_true, if_false]
  have members : members s ⟨run.sys.arrive s t cost isMaster, run.fresh,
      update run.began t (some op)⟩ = run.members s := by
    simp [members, sync]
  have th : ∀ u, u ≠ t → (run.sys.arrive s t cost isMaster).threads u = run.sys.threads u := by
    intro u other
    rw [ts, update_of_ne other]
  have self : ((run.sys.arrive s t cost isMaster).threads t).pausedOn = some (.sync s) := by
    rw [ts, update_self]
  refine ⟨by simp [sync, group.active], ?_, ?_, ?_, ?_, ?_⟩
  · rw [members]
    exact group.master
  · rw [membership_arrive cost isMaster (by rw [early, Bool.false_and])]
    exact group.valid
  · intro u isFresh
    have other : u ≠ t := fun here => by simp [here, notFresh] at isFresh
    rw [members]
    simpa [th u other] using group.fresh u isFresh
  · intro u inGroup held
    by_cases here : u = t
    · simp [here, ts]
    · simp only [th u here] at held ⊢
      rw [members] at inGroup
      exact group.waiting u inGroup held
  · have waitsAfter : waits s ⟨run.sys.arrive s t cost isMaster, run.fresh,
        update run.began t (some op)⟩ = update (run.waits s) t true := by
      funext u
      by_cases here : u = t
      · subst here
        simp [waits, self]
      · simp [waits, th u here, here]
    rw [members, waitsAfter, Barrier.countP_update_true group.nodup mem runs, ← group.count]
    simp only [sync]
    refine Nat.mod_eq_of_lt ?_
    simp only [numThreads] at small
    omega

lemma Group.nobody_fresh (u : Nat) : (run.fresh u && decide (u ∉ run.members s)) = false := by
  cases isFresh : run.fresh u with
  | false => rfl
  | true => simp [group.fresh_member isFresh]

lemma Group.arrived_last {cost : Nat} (mem : t ∈ run.members s) (runs : run.waits s t = false)
    (last : run.sys.lastToArrive s = true) (join : (run.sys.syncs s).join = false) :
    (run.arrived s t op (run.sys.arrive s t cost isMaster)).Group s m := by
  have listed := group.master
  have nodup := group.nodup
  have inGroup := mem
  rw [listed] at nodup inGroup
  obtain ⟨ts, sync⟩ := arrive_last cost isMaster last join listed nodup inGroup
  rw [← listed] at ts
  simp only [arrived, last, if_true]
  have unpaused : ∀ u ∈ run.members s, ((run.sys.arrive s t cost isMaster).threads u).pausedOn ≠ some (.sync s) := by
    intro u isIn
    rw [ts u]
    by_cases here : u = t
    · subst here
      simpa using (not_paused runs).2
    · simp [here, isIn, Thread.released]
  refine ⟨by simp [sync, group.active], ?_, ?_, ?_, ?_, ?_⟩
  · simp only [members, sync]
    exact group.master
  · rw [membership_arrive cost isMaster (by rw [join, Bool.and_false])]
    exact group.valid
  · intro u isFresh
    exact absurd ((group.nobody_fresh u).symm.trans isFresh) (by decide)
  · intro u isIn held
    simp only [members, sync] at isIn
    exact absurd held (unpaused u isIn)
  · simp only [members, sync]
    rw [Barrier.countP_eq_zero]
    intro u isIn
    exact Bool.or_eq_false_iff.mpr ⟨group.nobody_fresh u, decide_eq_false (unpaused u isIn)⟩

lemma Group.arrived_join {cost : Nat} (role : isMaster = true ↔ t = m) (mem : t ∈ run.members s)
    (runs : run.waits s t = false) (last : run.sys.lastToArrive s = true) (join : (run.sys.syncs s).join = true) :
    (run.arrived s t op (run.sys.arrive s t cost isMaster)).Group s m := by
  have listed := group.master
  have nodup := group.nodup
  rw [listed] at nodup
  simp only [arrived, last, if_true]
  cases isMaster with
  | true =>
    obtain rfl : t = m := role.mp rfl
    obtain ⟨ts, sync⟩ := arrive_join_master cost last join listed nodup
    refine group.alone ?_ ?_ ?_ ?_ group.nobody_fresh ?_
    · simp [sync, group.active]
    · simp [members, sync]
    · simp [sync]
    · simp [ts]
    · simpa [ts] using (not_paused runs).2
  | false =>
    have apart : t ≠ m := fun same => by simpa using role.mpr same
    have slave : t ∈ (run.members s).tail := by
      rw [listed] at mem
      exact (mem_cons.mp mem).resolve_left apart
    obtain ⟨ts, sync⟩ := arrive_join_slave cost last join listed nodup slave
    refine group.alone ?_ ?_ ?_ ?_ group.nobody_fresh ?_
    · simp [sync, group.active]
    · simp [members, sync]
    · simp [sync]
    · simp [ts]
    · simp [ts]

lemma Group.arrived {cost : Nat} (role : isMaster = true ↔ t = m) (mem : t ∈ run.members s)
    (runs : run.waits s t = false) : (run.arrived s t op (run.sys.arrive s t cost isMaster)).Group s m := by
  cases last : run.sys.lastToArrive s with
  | false => exact group.arrived_early mem runs last
  | true =>
    cases join : (run.sys.syncs s).join with
    | false => exact group.arrived_last mem runs last join
    | true => exact group.arrived_join role mem runs last join

/-- The group does not notice what happens to threads and resources as long as nobody
starts or stops waiting in it. -/
lemma Group.congr {post : GroupRun} (sync : post.sys.syncs s = run.sys.syncs s) (fresh : post.fresh = run.fresh)
    (ts : ∀ u ∈ run.members s, (post.sys.threads u).inUse = (run.sys.threads u).inUse ∧
      (post.sys.threads u).sync = (run.sys.threads u).sync ∧
      ((post.sys.threads u).pausedOn = some (.sync s) ↔ (run.sys.threads u).pausedOn = some (.sync s)) ∧
      ((run.sys.threads u).pausedOn = some (.sync s) → (post.sys.threads u).waiting = (run.sys.threads u).waiting)) :
    post.Group s m := by
  have members : post.members s = run.members s := by simp [members, sync]
  refine ⟨by rw [sync]; exact group.active, ?_, ?_, ?_, ?_, ?_⟩
  · rw [members]
    exact group.master
  · exact group.valid.congr members (fun u isIn => (ts u isIn).1) fun u isIn => (ts u isIn).2.1
  · intro u isFresh
    rw [fresh] at isFresh
    have pre := group.fresh u isFresh
    rw [members]
    exact ⟨pre.1, fun held => pre.2 ((ts u (group.fresh_member isFresh)).2.2.1.mp held)⟩
  · intro u isIn held
    rw [members] at isIn
    obtain ⟨-, -, iff, wait⟩ := ts u isIn
    rw [wait (iff.mp held)]
    exact group.waiting u isIn (iff.mp held)
  · rw [sync, members, group.count]
    refine (Barrier.countP_congr fun u isIn => ?_).symm
    simp [waits, fresh, (ts u isIn).2.2.1]

lemma Group.other {th : Thread}
    (may : Admissible s m run (.other t th)) : (step s m run (.other t th)).Group s m := by
  refine group.congr rfl rfl fun u isIn => ?_
  by_cases here : u = t
  · subst here
    obtain ⟨runs, unpaused, inUse, sync⟩ := may isIn
    have pre := (not_paused runs).2
    have used : (run.sys.threads u).inUse = true := group.valid.inUse u isIn
    simp [step, updateThread, unpaused, inUse, sync, pre, used]
  · simp [step, updateThread, here]

lemma Group.setPc (t pc : Nat) : (step s m run (.setPc t pc)).Group s m := by
  refine group.congr rfl rfl fun u _ => ?_
  by_cases here : u = t
  · subst here
    simp [step, updateThread]
  · simp [step, updateThread, here]

lemma Group.environment {sys : System}
    (may : Admissible s m run (.environment sys)) : (step s m run (.environment sys)).Group s m := by
  obtain ⟨ts, sync⟩ := may
  refine group.congr sync rfl fun u _ => ?_
  simp [step, ts]

lemma Group.interrupt {res : ResourceRef} {time : Nat} (may : Admissible s m run (.interrupt t res time)) :
    (step s m run (.interrupt t res time)).Group s m := by
  obtain ⟨mem, held, owner, -, idle⟩ := may
  obtain ⟨sync, rest, ieble, self⟩ :=
    event_at_barrier time owner idle (group.waiting t mem held) held
  have selfUnpaused : ((run.sys.event res time).threads t).pausedOn = none := by rw [self]
  have notFresh : run.fresh t = false := by
    cases isFresh : run.fresh t with
    | false => rfl
    | true => exact absurd held (group.fresh t isFresh).2
  have arrivedBefore : run.waits s t = true := by simp [waits, held]
  have members : (step s m run (.interrupt t res time)).members s = run.members s := by
    simp only [step, members, sync]
  have keeps : ∀ u, ((run.sys.event res time).threads u).inUse = (run.sys.threads u).inUse ∧
      ((run.sys.event res time).threads u).sync = (run.sys.threads u).sync := by
    intro u
    by_cases here : u = t
    · subst here
      simp [self]
    · simp [rest u here]
  refine ⟨?_, ?_, ?_, ?_, ?_, ?_⟩
  · simp only [step, sync]
    exact group.active
  · rw [members]
    exact group.master
  · exact group.valid.congr members (fun u _ => (keeps u).1) fun u _ => (keeps u).2
  · intro u isFresh
    have other : u ≠ t := fun here => by simp [step, here, notFresh] at isFresh
    rw [members]
    simpa [step, rest u other] using group.fresh u isFresh
  · intro u isIn pausedAfter
    by_cases here : u = t
    · subst here
      simp [step, selfUnpaused] at pausedAfter
    · simp only [step, rest u here] at pausedAfter ⊢
      rw [members] at isIn
      exact group.waiting u isIn pausedAfter
  · have waitsAfter : (step s m run (.interrupt t res time)).waits s = update (run.waits s) t false := by
      funext u
      by_cases here : u = t
      · subst here
        simp [waits, step, selfUnpaused, notFresh]
      · simp [waits, step, rest u here, here]
    have cnt := Barrier.countP_update_false group.nodup mem arrivedBefore
    have small := Nat.lt_of_lt_of_le (Nat.lt_succ_of_le (countP_le_length (p := run.waits s)))
      (Nat.succ_le_succ group.length)
    rw [members, waitsAfter]
    simp only [step, sync, numThreads] at small ⊢
    rw [group.count]
    omega

end

def spawned (s m child cost : Nat) (run : GroupRun) : GroupRun where
  sys := ((run.sys.allocThread child (run.sys.threads m).time).addChild s child).advance m cost
  fresh := update run.fresh child true
  began := update run.began child none

lemma Group.step_getst (group : run.Group s m) (cost : Nat) :
    step s m run (.getst cost) = match run.sys.unusedThread with
      | some child => run.spawned s m child cost
      | none => { run with sys := run.sys.advance m cost } := by
  cases found : run.sys.unusedThread <;> simp [step, found, getst, group.active, spawned]

section

variable {child : Nat} (cost : Nat)

lemma spawned_sync : (run.spawned s m child cost).sys.syncs s = { run.sys.syncs s with
      threads := run.members s ++ [child], numPaused := ((run.sys.syncs s).numPaused + 1) % 2 ^ 32 } := by
  simp only [spawned, advance, addChild, allocThread, updateThread, updateSync, update_self, members]

lemma spawned_members : (run.spawned s m child cost).members s = run.members s ++ [child] := by
  simp only [members, spawned_sync]

lemma spawned_child (apart : child ≠ m) : ((run.spawned s m child cost).sys.threads child).pausedOn = none := by
  simp [spawned, advance, addChild, allocThread, updateThread, updateSync, apart]

lemma spawned_other {u : Nat} (new : u ≠ child) :
    ((run.spawned s m child cost).sys.threads u).pausedOn = (run.sys.threads u).pausedOn ∧
      ((run.spawned s m child cost).sys.threads u).waiting = (run.sys.threads u).waiting := by
  by_cases here : u = m
  · subst here
    simp [spawned, advance, addChild, allocThread, updateThread, updateSync, new]
  · simp [spawned, advance, addChild, allocThread, updateThread, updateSync, new, here]

lemma spawned_waits {u : Nat} (new : u ≠ child) : (run.spawned s m child cost).waits s u = run.waits s u := by
  have fresh : (run.spawned s m child cost).fresh u = run.fresh u := update_of_ne new _ _
  simp only [waits, fresh, (spawned_other cost new).1]

lemma spawned_waits_child : (run.spawned s m child cost).waits s child = true := by
  simp [waits, spawned]

lemma Group.spawned (group : run.Group s m) (core : child < numThreads)
    (free : (run.sys.threads child).inUse = false) : (run.spawned s m child cost).Group s m := by
  have new := group.new free
  have listed := group.master
  have apart : child ≠ m := fun same => new m (listed ▸ mem_cons_self ..) same.symm
  refine ⟨?_, ?_, ?_, ?_, ?_, ?_⟩
  · rw [spawned_sync]
    exact group.active
  · rw [spawned_members, listed]
    rfl
  · have valid := group.valid.spawn core free
    rwa [← membership_spawn _ _ _ (run.sys.threads m).time, ← membership_advance _ m cost] at valid
  · intro u isFresh
    rw [spawned_members, listed, cons_append, tail_cons, mem_append, mem_singleton]
    by_cases isChild : u = child
    · rw [isChild, spawned_child cost apart]
      exact ⟨.inr rfl, nofun⟩
    · have pre : run.fresh u = true := by simpa [GroupRun.spawned, isChild] using isFresh
      rw [(spawned_other cost isChild).1]
      exact ⟨.inl (group.fresh u pre).1, (group.fresh u pre).2⟩
  · intro u isIn held
    rw [spawned_members, mem_append, mem_singleton] at isIn
    rcases isIn with isIn | rfl
    · rw [(spawned_other cost (new u isIn)).1] at held
      rw [(spawned_other cost (new u isIn)).2]
      exact group.waiting u isIn held
    · rw [spawned_child cost apart] at held
      cases held
  · -- The child adds one to the length of the list and one to the count.
    have same : (run.members s).countP ((run.spawned s m child cost).waits s) = (run.members s).countP (run.waits s) :=
      Barrier.countP_congr fun u isIn => spawned_waits cost (new u isIn)
    have cnt := countP_le_length (p := run.waits s) (l := run.members s)
    have bound := group.length
    rw [spawned_members, countP_append, same, countP_singleton, spawned_waits_child, if_pos rfl,
      spawned_sync, group.count]
    refine Nat.mod_eq_of_lt ?_
    simp only [numThreads] at bound
    omega

end

lemma Group.getst (group : run.Group s m) (cost : Nat) : (step s m run (.getst cost)).Group s m := by
  rw [group.step_getst]
  cases found : run.sys.unusedThread with
  | some child =>
    obtain ⟨core, free⟩ := unusedThread_spec found
    exact group.spawned cost core free
  | none =>
    refine group.congr rfl rfl fun u _ => ?_
    by_cases here : u = m
    · subst here
      simp [advance, updateThread]
    · simp [advance, updateThread, here]

end GroupRun

end Axe
