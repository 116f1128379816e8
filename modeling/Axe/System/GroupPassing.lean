import Axe.System.GroupRuns

/-! When the members of a group pass the barrier: never before all have arrived, then
all at once at the greatest of their times, and after a join only the master. -/

namespace Axe

open List

open Barrier (OthersWait)

namespace GroupRun

open Axe.System

variable (s m : Nat)

section

variable (t cost : Nat) (members : List Nat) (threads : Nat → Thread)

structure Stays (fresh : Nat → Bool) (post : GroupRun) : Prop where
  paused : (post.sys.threads t).pausedOn = some (.sync s)
  waiting : (post.sys.threads t).waiting = true
  pc : (post.sys.threads t).pc = (threads t).pc
  time : (post.sys.threads t).time = (threads t).time + cost
  others : ∀ u, u ≠ t → post.sys.threads u = threads u
  group : post.members s = members
  fresh : post.fresh = fresh

structure AllLeave (newTime : Nat) (post : GroupRun) : Prop where
  arriver : post.sys.threads t = { threads t with time := newTime + cost, pc := (threads t).pc + 1 }
  others : ∀ u ∈ members, u ≠ t → post.sys.threads u = (threads u).released newTime (u ≠ m)
  outside : ∀ u, u ∉ members → post.sys.threads u = threads u
  group : post.members s = members
  gone : ∀ u ∈ members, post.waits s u = false

/-- The master is alone in the group and goes on: at once if it came last, and otherwise
when it has executed its `MJOIN` again. -/
structure Joined (newTime : Nat) (post : GroupRun) : Prop where
  freed : ∀ u ∈ members, u ≠ m → (post.sys.threads u).inUse = false
  group : post.members s = [m]
  gone : post.waits s m = false
  master : t = m → post.sys.threads m = { threads m with time := newTime + cost, pc := (threads m).pc + 1 }
  again : t ≠ m →
    post.sys.threads m =
        { threads m with time := newTime, waiting := false, pausedOn := none, wakeUpTime := some newTime } ∧
      ∀ cost', ((post.sys.mjoin s m cost').threads m).pc = (threads m).pc + 1 ∧
        ((post.sys.mjoin s m cost').threads m).time = newTime + cost' ∧
        ((post.sys.mjoin s m cost').threads m).waiting = false ∧
        ((post.sys.mjoin s m cost').syncs s).threads = [m]

end

def ArrivalRight (t cost : Nat) (joins : Prop) (run post : GroupRun) : Prop :=
  (¬OthersWait (run.waits s) (run.members s) t → Stays s t cost (run.members s) run.sys.threads run.fresh post) ∧
    (OthersWait (run.waits s) (run.members s) t → ∃ newTime, run.sys.IsMaxTime (run.members s) newTime ∧
      (joins → Joined s m t cost (run.members s) run.sys.threads newTime post) ∧
      (¬joins → AllLeave s m t cost (run.members s) run.sys.threads newTime post))

structure NobodyPasses (away : Option Nat) (run post : GroupRun) : Prop where
  waits : ∀ u ∈ run.members s, some u ≠ away → run.waits s u = true → post.waits s u = true
  began : ∀ u ∈ run.members s, post.began u = run.began u
  group : run.members s <+: post.members s

def StepRight (run : GroupRun) (taken : GroupStep) : Prop :=
  match taken with
  | .msync cost => ArrivalRight s m m cost False run (step s m run taken)
  | .mjoin cost => ArrivalRight s m m cost True run (step s m run taken)
  | .ssync t cost => ArrivalRight s m t cost (run.began m = some .mjoin) run (step s m run taken)
  | .interrupt t _ _ => NobodyPasses s (some t) run (step s m run taken)
  | _ => NobodyPasses s none run (step s m run taken)

variable {s m} {run : GroupRun}

variable {op : GroupOp} {isMaster : Bool}

lemma stays {t cost : Nat} (early : run.sys.lastToArrive s = false) :
    Stays s t cost (run.members s) run.sys.threads run.fresh
      (run.arrived s t op (run.sys.arrive s t cost isMaster)) := by
  obtain ⟨threads, sync⟩ := arrive_early (t := t) cost isMaster early
  simp only [arrived, early, Bool.false_eq_true, if_false]
  refine ⟨?_, ?_, ?_, ?_, ?_, ?_, rfl⟩
  · simp [threads]
  · simp [threads]
  · simp [threads]
  · simp [threads]
  · intro u other
    simp [threads, other]
  · simp [members, sync]

lemma Group.allLeave (group : run.Group s m) {t cost : Nat}
    (mem : t ∈ run.members s) (runs : run.waits s t = false) (last : run.sys.lastToArrive s = true)
    (join : (run.sys.syncs s).join = false) :
    AllLeave s m t cost (run.members s) run.sys.threads (run.sys.maxThreadTime (run.members s))
      (run.arrived s t op (run.sys.arrive s t cost isMaster)) := by
  have listed := group.master
  have nodup := group.nodup
  have inGroup := mem
  rw [listed] at nodup inGroup
  obtain ⟨threads, sync⟩ := arrive_last cost isMaster last join listed nodup inGroup
  rw [← listed] at threads
  simp only [GroupRun.arrived, last, if_true]
  refine ⟨?_, ?_, ?_, ?_, ?_⟩
  · rw [threads t, if_pos rfl]
  · intro u isIn other
    rw [threads u, if_neg other, if_pos isIn]
  · intro u out
    have other : u ≠ t := fun same => out (same ▸ mem)
    rw [threads u, if_neg other, if_neg out]
  · simp only [GroupRun.members, sync]
  · intro u isIn
    refine Bool.or_eq_false_iff.mpr ⟨group.nobody_fresh u, decide_eq_false ?_⟩
    rw [threads u]
    by_cases here : u = t
    · subst here
      simpa using (Group.not_paused runs).2
    · simp [here, isIn, Thread.released]

lemma mjoin_alone {sys : System} (act : (sys.syncs s).inUse = true) (listed : (sys.syncs s).threads = [m])
    (cnt : (sys.syncs s).numPaused = 0) (cost : Nat) : (sys.mjoin s m cost).threads m =
        { sys.threads m with time := (sys.threads m).time + cost, pc := (sys.threads m).pc + 1 } ∧
      ((sys.mjoin s m cost).syncs s).threads = [m] := by
  obtain ⟨sameList, -, sameCount⟩ := sys.joining_threads s s
  have last : (sys.joining s).lastToArrive s = true := by
    simp [lastToArrive, sameList, sameCount, listed, cnt]
  have join : ((sys.joining s).syncs s).join = true := by simp [joining, updateSync]
  obtain ⟨threads, sync⟩ :=
    arrive_join_master cost last join (sameList.trans listed) (nodup_singleton m)
  have res : sys.mjoin s m cost = (sys.joining s).arrive s m cost true := by
    simp [mjoin, act, arrive, joining]
  rw [res, threads m, sync, if_pos rfl]
  refine ⟨?_, rfl⟩
  have time : (sys.joining s).maxThreadTime [m] = (sys.threads m).time := by
    simp [maxThreadTime, joining, updateSync]
  rw [time]
  rfl

lemma Group.joined (group : run.Group s m) {t cost : Nat}
    (role : isMaster = true ↔ t = m) (mem : t ∈ run.members s) (runs : run.waits s t = false)
    (last : run.sys.lastToArrive s = true) (join : (run.sys.syncs s).join = true) :
    Joined s m t cost (run.members s) run.sys.threads (run.sys.maxThreadTime (run.members s))
      (run.arrived s t op (run.sys.arrive s t cost isMaster)) := by
  have listed := group.master
  have nodup := group.nodup
  have slave : ∀ u ∈ run.members s, u ≠ m → u ∈ (run.members s).tail := by
    intro u isIn other
    rw [listed] at isIn
    exact (mem_cons.mp isIn).resolve_left other
  rw [listed] at nodup
  simp only [GroupRun.arrived, last, if_true]
  cases isMaster with
  | true =>
    obtain rfl : t = m := role.mp rfl
    obtain ⟨threads, sync⟩ := arrive_join_master cost last join listed nodup
    rw [← listed] at threads
    refine ⟨?_, ?_, ?_, ?_, ?_⟩
    · intro u isIn other
      simp [threads u, other, slave u isIn other]
    · simp [GroupRun.members, sync]
    · refine Bool.or_eq_false_iff.mpr ⟨group.nobody_fresh t, decide_eq_false ?_⟩
      simpa [threads t] using (Group.not_paused runs).2
    · intro _
      simp [threads t]
    · intro other
      exact absurd rfl other
  | false =>
    have apart : t ≠ m := fun same => by simpa using role.mpr same
    obtain ⟨threads, sync⟩ := arrive_join_slave cost last join listed nodup (slave t mem apart)
    rw [← listed] at threads
    have mst := threads m
    rw [if_pos rfl] at mst
    have act : ((run.sys.arrive s t cost false).syncs s).inUse = true := by
      rw [sync]
      exact group.active
    have alone : ((run.sys.arrive s t cost false).syncs s).threads = [m] := by rw [sync]
    have zero : ((run.sys.arrive s t cost false).syncs s).numPaused = 0 := by rw [sync]
    refine ⟨?_, ?_, ?_, ?_, ?_⟩
    · intro u isIn other
      by_cases here : u = t
      · subst here
        simp [threads u, other]
      · simp [threads u, other, here, slave u isIn other]
    · simp [GroupRun.members, sync]
    · refine Bool.or_eq_false_iff.mpr ⟨group.nobody_fresh m, decide_eq_false ?_⟩
      simp [mst]
    · intro same
      exact absurd same apart
    · intro _
      refine ⟨mst, fun cost' => ?_⟩
      obtain ⟨th, stillAlone⟩ := mjoin_alone act alone zero cost'
      rw [th, mst]
      exact ⟨rfl, rfl, rfl, stillAlone⟩

lemma Group.arrivalRight (group : run.Group s m) {t cost : Nat} {joins : Prop}
    (role : isMaster = true ↔ t = m) (mem : t ∈ run.members s) (runs : run.waits s t = false)
    (join : (run.sys.syncs s).join = true ↔ joins) :
    ArrivalRight s m t cost joins run (run.arrived s t op (run.sys.arrive s t cost isMaster)) := by
  have test := group.lastToArrive_iff mem runs
  refine ⟨fun missing => ?_, fun complete => ?_⟩
  · have early : run.sys.lastToArrive s = false := by simpa [← test] using missing
    exact stays early
  · have last := test.mpr complete
    have ne : run.members s ≠ [] := ne_nil_of_mem mem
    refine ⟨_, run.sys.isMaxTime_maxThreadTime ne, fun yes => ?_, fun no => ?_⟩
    · exact group.joined role mem runs last (join.mpr yes)
    · have unjoined : (run.sys.syncs s).join = false := by simpa [← join] using no
      exact group.allLeave mem runs last unjoined

def joining (s : Nat) (run : GroupRun) : GroupRun := { run with sys := run.sys.joining s }

lemma joining_members : (run.joining s).members s = run.members s := (run.sys.joining_threads s s).1

section

variable (group : run.Group s m)
include group

lemma Group.joining : (run.joining s).Group s m := by
  obtain ⟨listed, act, cnt⟩ := run.sys.joining_threads s s
  refine ⟨act.trans group.active, ?_, ?_, ?_, ?_, ?_⟩
  · rw [joining_members]
    exact group.master
  · rw [GroupRun.joining, membership_joining]
    exact group.valid
  · rw [joining_members]
    exact group.fresh
  · rw [joining_members]
    exact group.waiting
  · rw [joining_members]
    exact cnt.trans group.count

/-- What an `MJOIN` does is what an arrival does once the join is announced. -/
lemma Group.step_mjoin (cost : Nat) : step s m run (.mjoin cost) =
      (run.joining s).arrived s m .mjoin ((run.joining s).sys.arrive s m cost true) := by
  obtain ⟨listed, -, cnt⟩ := run.sys.joining_threads s s
  have res : run.sys.mjoin s m cost = (run.sys.joining s).arrive s m cost true := by
    simp [System.mjoin, group.active, System.arrive, System.joining]
  have last : (run.joining s).sys.lastToArrive s = run.sys.lastToArrive s := by
    simp only [GroupRun.joining, System.lastToArrive, listed, cnt]
  rw [step, GroupRun.arrived, GroupRun.arrived, joining_members, last, res]
  rfl

lemma Group.step_msync (cost : Nat) :
    step s m run (.msync cost) = run.arrived s m .msync (run.sys.arrive s m cost true) := by
  simp [step, msync, group.active, arrive]

lemma Group.step_ssync {t : Nat} (apart : t ≠ m) (mem : t ∈ run.members s)
    (cost : Nat) : step s m run (.ssync t cost) = run.arrived s t .ssync (run.sys.arrive s t cost false) := by
  have listed := group.master
  rw [listed] at mem
  have known : (run.sys.threads t).sync = some s :=
    group.valid.slaves t ((mem_cons.mp mem).resolve_left apart)
  simp [step, ssync, known, arrive]

lemma Group.step {taken : GroupStep} (legal : Admissible s m run taken) : (step s m run taken).Group s m := by
  cases taken with
  | getst cost => exact group.getst cost
  | msync cost =>
    rw [group.step_msync]
    exact group.arrived (by simp) legal.member legal.runs
  | mjoin cost =>
    rw [group.step_mjoin]
    exact group.joining.arrived (by simp) (joining_members.symm ▸ legal.member) legal.runs
  | ssync t cost =>
    obtain ⟨apart, runs⟩ := legal
    rw [group.step_ssync apart runs.member]
    exact group.arrived (by simp [apart]) runs.member runs.runs
  | interrupt t res time => exact group.interrupt legal
  | setPc t pc => exact group.setPc t pc
  | other t th => exact group.other legal
  | environment sys => exact group.environment legal

/-- A group whose join flag tells what the arriver began keeps it so. -/
lemma Group.joins_arrived {t cost : Nat} (role : isMaster = true ↔ t = m) (mem : t ∈ run.members s)
    (join : (run.sys.syncs s).join = true ↔ (if t = m then op = .mjoin else run.began m = some .mjoin)) :
    (run.arrived s t op (run.sys.arrive s t cost isMaster)).Joins s m := by
  have listed := group.master
  have isMember : m ∈ run.members s := listed ▸ mem_cons_self ..
  have nodup := group.nodup
  rw [listed] at nodup
  cases last : run.sys.lastToArrive s with
  | false =>
    obtain ⟨-, sync⟩ := arrive_early (t := t) cost isMaster last
    simp only [Joins, GroupRun.arrived, last, Bool.false_eq_true, if_false, sync]
    rw [join]
    by_cases here : t = m
    · simp [here]
    · simp [here, Ne.symm here]
  | true =>
    -- Whoever comes last, the flag is down and the master has completed its instruction.
    have down : ((run.sys.arrive s t cost isMaster).syncs s).join = false := by
      cases flag : (run.sys.syncs s).join with
      | false =>
        have inGroup := mem
        rw [listed] at inGroup
        rw [(arrive_last cost isMaster last flag listed nodup inGroup).2, flag]
      | true =>
        cases isMaster with
        | true =>
          obtain rfl : t = m := role.mp rfl
          rw [(arrive_join_master cost last flag listed nodup).2]
        | false =>
          have apart : t ≠ m := fun same => by simpa using role.mpr same
          rw [listed] at mem
          have slave := (mem_cons.mp mem).resolve_left apart
          rw [(arrive_join_slave cost last flag listed nodup slave).2]
    simp [Joins, GroupRun.arrived, last, down, isMember]

end

lemma Joins.msync (joins : run.Joins s m) (runs : run.Executes s m .msync) : (run.sys.syncs s).join = false := by
  have flag : ¬(run.sys.syncs s).join = true := by
    intro up
    have began := joins.mp up
    rcases runs.again with none | same
    · simp [none] at began
    · simp [same] at began
  simpa using flag

lemma joining_join : ((run.joining s).sys.syncs s).join = true := by
  simp [joining, System.joining, System.updateSync]

lemma Joins.step (joins : run.Joins s m) (group : run.Group s m) {taken : GroupStep}
    (legal : Admissible s m run taken) : (GroupRun.step s m run taken).Joins s m := by
  cases taken with
  | getst cost =>
    rw [group.step_getst]
    cases found : run.sys.unusedThread with
    | none => exact joins
    | some child =>
      have isMember : m ∈ run.members s := group.master ▸ mem_cons_self ..
      have apart := group.new (unusedThread_spec found).2 m isMember
      have began : (run.spawned s m child cost).began m = run.began m := Function.update_of_ne apart _ _
      simpa only [Joins, spawned_sync, began] using joins
  | msync cost =>
    rw [group.step_msync]
    exact group.joins_arrived (by simp) legal.member (by simp [joins.msync legal])
  | mjoin cost =>
    rw [group.step_mjoin]
    exact group.joining.joins_arrived (by simp) (joining_members.symm ▸ legal.member) (by simp [joining_join])
  | ssync t cost =>
    obtain ⟨apart, runs⟩ := legal
    rw [group.step_ssync apart runs.member]
    refine group.joins_arrived (by simp [apart]) runs.member ?_
    rw [if_neg apart]
    exact joins
  | interrupt t res time =>
    obtain ⟨mem, held, owner, -, idle⟩ := legal
    obtain ⟨sync, -⟩ := event_at_barrier time owner idle (group.waiting t mem held) held
    simpa only [Joins, GroupRun.step, sync] using joins
  | setPc t pc => exact joins
  | other t th => exact joins
  | environment sys =>
    obtain ⟨-, sync⟩ := legal
    simpa only [Joins, GroupRun.step, sync] using joins

lemma nobodyPasses {post : GroupRun} {away : Option Nat}
    (sync : (post.sys.syncs s).threads = (run.sys.syncs s).threads)
    (fresh : post.fresh = run.fresh) (began : post.began = run.began)
    (held : ∀ u ∈ run.members s, some u ≠ away → (run.sys.threads u).pausedOn = some (.sync s) →
      (post.sys.threads u).pausedOn = some (.sync s)) : NobodyPasses s away run post := by
  refine ⟨fun u isIn kept wait => ?_, fun u _ => by rw [began], ?_⟩
  · simp only [waits, fresh, Bool.or_eq_true, decide_eq_true_eq] at wait ⊢
    exact wait.imp_right (held u isIn kept)
  · have same : post.members s = run.members s := by rw [members, members, sync]
    exact same ▸ prefix_rfl

lemma Group.getst_passes (group : run.Group s m) (cost : Nat) :
    NobodyPasses s none run (GroupRun.step s m run (.getst cost)) := by
  rw [group.step_getst]
  cases found : run.sys.unusedThread with
  | none =>
    refine nobodyPasses rfl rfl rfl fun u _ _ held => ?_
    by_cases here : u = m
    · subst here
      simpa [advance, updateThread] using held
    · simpa [advance, updateThread, here] using held
  | some child =>
    have new := group.new (unusedThread_spec found).2
    refine ⟨fun u isIn _ wait => ?_, fun u isIn => ?_, ?_⟩
    · rwa [spawned_waits cost (new u isIn)]
    · exact Function.update_of_ne (new u isIn) _ _
    · exact ⟨[child], (spawned_members cost).symm⟩

/-- Every step of a group does what it has to do. -/
lemma Group.stepRight (group : run.Group s m) (joins : run.Joins s m) {taken : GroupStep}
    (legal : Admissible s m run taken) : StepRight s m run taken := by
  cases taken with
  | getst cost => exact group.getst_passes cost
  | msync cost =>
    simp only [StepRight]
    rw [group.step_msync]
    exact group.arrivalRight (by simp) legal.member legal.runs (by simp [joins.msync legal])
  | mjoin cost =>
    simp only [StepRight]
    rw [group.step_mjoin]
    have right : ArrivalRight s m m cost True (run.joining s)
        ((run.joining s).arrived s m .mjoin ((run.joining s).sys.arrive s m cost true)) :=
      group.joining.arrivalRight (by simp) (joining_members.symm ▸ legal.member) legal.runs
        (by simp [joining_join])
    -- Announcing the join changes neither the members nor their threads.
    unfold ArrivalRight at right
    rw [joining_members] at right
    refine ⟨right.1, fun complete => ?_⟩
    obtain ⟨newTime, ⟨bound, reached⟩, passes⟩ := right.2 complete
    exact ⟨newTime, ⟨bound, reached⟩, passes⟩
  | ssync t cost =>
    obtain ⟨apart, runs⟩ := legal
    simp only [StepRight]
    rw [group.step_ssync apart runs.member]
    exact group.arrivalRight (by simp [apart]) runs.member runs.runs joins
  | interrupt t res time =>
    obtain ⟨mem, held, owner, -, idle⟩ := legal
    obtain ⟨sync, others, -⟩ := event_at_barrier time owner idle (group.waiting t mem held) held
    refine nobodyPasses (by simp only [GroupRun.step, sync]) rfl rfl fun u _ kept wait => ?_
    have other : u ≠ t := fun same => kept (same ▸ rfl)
    simpa only [GroupRun.step, others u other] using wait
  | setPc t pc =>
    refine nobodyPasses rfl rfl rfl fun u _ _ held => ?_
    by_cases here : u = t
    · subst here
      simpa [GroupRun.step, updateThread] using held
    · simpa [GroupRun.step, updateThread, here] using held
  | other t th =>
    refine nobodyPasses rfl rfl rfl fun u isIn _ held => ?_
    by_cases here : u = t
    · subst here
      exact absurd held (not_paused (legal isIn).1).2
    · simpa [GroupRun.step, updateThread, here] using held
  | environment sys =>
    obtain ⟨threads, sync⟩ := legal
    refine nobodyPasses (by simp only [GroupRun.step, sync]) rfl rfl fun u _ _ held => ?_
    simpa only [GroupRun.step, threads] using held

def made (sys : System) (s m : Nat) : GroupRun where
  sys := sys.allocSync s m
  fresh _ := false
  began _ := none

variable {sys : System}

lemma group_made (core : m < numThreads) (inUse : (sys.threads m).inUse = true)
    (runs : (sys.threads m).pausedOn = none) : (made sys s m).Group s m := by
  have sync : (made sys s m).sys.syncs s = { inUse := true, threads := [m], numPaused := 0, join := false } := by
    simp [made, allocSync, updateSync]
  have listed : (made sys s m).members s = [m] := by simp [members, sync]
  have pausedOn : ((made sys s m).sys.threads m).pausedOn = none := runs
  refine ⟨by rw [sync], by rw [listed]; rfl, ?_, fun _ new => absurd new Bool.false_ne_true, ?_, ?_⟩
  · exact Membership.validGroup_singleton listed core inUse
  · intro u isIn held
    rw [listed, mem_singleton] at isIn
    simp [isIn, pausedOn] at held
  · rw [listed, sync, Barrier.countP_eq_zero]
    intro u isIn
    rw [mem_singleton.mp isIn]
    exact Bool.or_eq_false_iff.mpr ⟨rfl, by simp [pausedOn]⟩

lemma joins_made : (made sys s m).Joins s m := by
  simp [Joins, made, allocSync, updateSync]

/-- In every run of a group `NumPaused` counts the members that wait, and every step does
what it has to do. -/
theorem group_meets (core : m < numThreads) (inUse : (sys.threads m).inUse = true)
    (runs : (sys.threads m).pausedOn = none) {steps : List GroupStep}
    (admissible : Runs.Meets (step s m) (Admissible s m) (made sys s m) steps) :
    let final := steps.foldl (step s m) (made sys s m)
    (final.sys.syncs s).numPaused = (final.members s).countP (final.waits s) ∧
      ∀ next, Admissible s m final next → StepRight s m final next := by
  have preserved : ∀ (run : GroupRun) (taken : GroupStep), run.Group s m ∧ run.Joins s m →
      Admissible s m run taken → (step s m run taken).Group s m ∧ (step s m run taken).Joins s m :=
    fun _ _ pre legal => ⟨pre.1.step legal, pre.2.step pre.1 legal⟩
  obtain ⟨group, joins⟩ := admissible.invariant preserved ⟨group_made core inUse runs, joins_made⟩
  exact ⟨group.count, fun next legal => group.stepRight joins legal⟩

/-- A master makes a slave, starts it with `MSYNC` and joins it. -/
def startedSlave : List GroupStep := [.getst 4, .msync 4, .ssync 1 4, .mjoin 4]

def startedRun : GroupRun := startedSlave.foldl (step 0 0) (made booted 0 0)

theorem startedRun_meets : (startedRun.sys.syncs 0).numPaused = (startedRun.members 0).countP (startedRun.waits 0) ∧
    ∀ next, Admissible 0 0 startedRun next → StepRight 0 0 startedRun next := by
  refine group_meets (by decide) rfl rfl ⟨rfl, ⟨?_, rfl, .inl rfl⟩, ⟨by decide, ?_, rfl, .inl rfl⟩, ⟨?_, rfl, .inl rfl⟩,
    trivial⟩
  · decide
  · decide
  · decide

end GroupRun

end Axe
