import Axe.System.LiveThreads

/-! A thread that is executing or in the queue is in use and has been started, in every run
in which threads are freed only when nothing refers to them any more. -/

namespace Axe

open List

inductive Place where
  | queue
  | executing
  | slot (slot : WaitSlot)
  /-- A resource that sends events to its owner. -/
  | owner (res : ResourceRef)
  | master (s : Nat)

namespace ThreadRun

def Live (run : ThreadRun) (u : Nat) : Prop := (run.sys.threads u).inUse = true ∧ run.started u = true

def Refers (run : ThreadRun) : Place → Nat → Prop
  | .queue, u => run.sys.Queued u
  | .executing, u => run.executing = some u
  | .slot slot, u => u ∈ run.sys.table.recorded slot
  | .owner res, u => (run.sys.eventable res).owner = some u ∧ (run.sys.eventable res).eventsEnabled = true
  | .master s, u => (run.sys.syncs s).threads.head? = some u

def references (run : ThreadRun) : References Nat Place := ⟨run.Live, run.Refers⟩

structure Inv (run : ThreadRun) : Prop where
  sound : run.references.Sound
  listed : ∀ s, ∀ u ∈ (run.sys.syncs s).threads, (run.sys.threads u).inUse = true
  filled : ∀ s, (run.sys.syncs s).inUse = true → (run.sys.syncs s).threads ≠ []

/-- What the labels stand for: a resource is set up for the thread that does so, an
instruction is that of the executing thread, and other work leaves all references alone. -/
def Admissible (run : ThreadRun) : ThreadStep → Prop
  | .configure _ evs => evs.owner = none ∨ evs.owner = run.executing
  | .guest step => step.thread.isSome = true ∧ step.thread.map Fin.val = run.executing
  | .work post =>
    post.membership = run.sys.membership ∧ (∀ u, post.Queued u ↔ run.sys.Queued u) ∧
      post.table.recorded = run.sys.table.recorded ∧ post.eventable = run.sys.eventable
  | _ => True

/-- Nothing refers to the thread but the executing thread itself, which stops, and the group
that the step joins. -/
structure Quiet (run : ThreadRun) (step : GuestStep) (u : Nat) : Prop where
  unqueued : ¬run.sys.Queued u
  stops : run.executing = some u → run.sys.stops step = true
  unrecorded : ∀ slot, u ∉ run.sys.table.recorded slot
  eventless : ∀ res, (run.sys.eventable res).owner = some u → (run.sys.eventable res).eventsEnabled = false
  unlisted : ∀ s, u ∈ (run.sys.syncs s).threads →
    run.sys.arrivesAt step = some s ∧ (run.sys.syncs s).threads.head? ≠ some u

def Orderly (run : ThreadRun) : ThreadStep → Prop
  | .guest step => ∀ u ∈ run.sys.freed step, run.Quiet step u
  | _ => True

variable {run : ThreadRun}

lemma Inv.copy (inv : run.Inv) {post : ThreadRun} (memb : post.sys.membership = run.sys.membership)
    (begun : ∀ u, run.started u = true → post.started u = true)
    (queue : ∀ u, post.sys.Queued u → (∃ origin, run.Refers origin u) ∨ post.Live u)
    (executing : ∀ u, post.executing = some u → ∃ origin, run.Refers origin u)
    (slots : ∀ slot, ∀ u ∈ post.sys.table.recorded slot, ∃ origin, run.Refers origin u)
    (owners : ∀ res u, post.Refers (.owner res) u → ∃ origin, run.Refers origin u) : post.Inv := by
  have inUse (u : Nat) : (post.sys.threads u).inUse = (run.sys.threads u).inUse :=
    congrFun (congrArg Membership.inUse memb) u
  have listed (s : Nat) : (post.sys.syncs s).threads = (run.sys.syncs s).threads :=
    congrFun (congrArg Membership.listed memb) s
  have act (s : Nat) : (post.sys.syncs s).inUse = (run.sys.syncs s).inUse :=
    congrFun (congrArg Membership.active memb) s
  refine ⟨inv.sound.step (fun place u ref => ?_) fun _ u _ live => ⟨(inUse u).trans live.1, begun u live.2⟩,
    fun s u mem => ?_, fun s isActive => ?_⟩
  · cases place with
    | queue => exact queue u ref
    | executing => exact .inl (executing u ref)
    | slot slot => exact .inl (slots slot u ref)
    | owner res => exact .inl (owners res u ref)
    | master s => exact .inl ⟨.master s, (congrArg head? (listed s)).symm.trans ref⟩
  · rw [listed] at mem
    exact (inUse u).trans (inv.listed s u mem)
  · rw [act] at isActive
    rw [listed]
    exact inv.filled s isActive

lemma Inv.reschedule (inv : run.Inv) {post : ThreadRun} (links : post.sys.links = run.sys.links)
    (memb : post.sys.membership = run.sys.membership)
    (begun : ∀ u, run.started u = true → post.started u = true)
    (queue : ∀ u, post.sys.Queued u → (∃ origin, run.Refers origin u) ∨ post.Live u)
    (executing : ∀ u, post.executing = some u → ∃ origin, run.Refers origin u) : post.Inv := by
  refine inv.copy memb begun queue executing (fun slot u mem => ⟨.slot slot, ?_⟩) fun res u owner =>
    ⟨.owner res, ?_⟩
  · rwa [System.recorded_of_links links] at mem
  · rwa [Refers, System.eventable_of_links links] at owner

end ThreadRun

namespace System

variable {sys : System}

lemma completeEvent_frame (sys : System) (t : Nat) (res : ResourceRef) (intr : Bool) :
    (sys.completeEvent t res intr).links = sys.links ∧
      (sys.completeEvent t res intr).membership = sys.membership ∧
      ∀ u, (sys.completeEvent t res intr).Queued u ↔ sys.Queued u := by
  simp only [completeEvent]
  split
  · refine ⟨rfl, ?_, fun u => ?_⟩
    · rw [membership_updateThread _ _ _ rfl rfl]
    · rw [queued_updateThread rfl]
  · refine ⟨rfl, ?_, fun u => ?_⟩
    · rw [membership_updateThread _ _ _ rfl rfl, membership_updateThread _ _ _ rfl rfl]
    · rw [queued_updateThread rfl, queued_updateThread rfl]

lemma cancel_frame (sys : System) (res : ResourceRef) :
    (sys.cancel res).links = sys.links ∧ (sys.cancel res).membership = sys.membership ∧
      (sys.cancel res).threads = sys.threads := by
  cases res with
  | sync s =>
    refine ⟨rfl, ?_, rfl⟩
    rw [cancel, membership_updateSync _ _ _ rfl rfl]
  | _ => exact ⟨rfl, rfl, rfl⟩

lemma takeEvent_frame (sys : System) (t : Nat) (res : ResourceRef) (intr : Bool) :
    (sys.takeEvent t res intr).links = sys.links ∧ (sys.takeEvent t res intr).membership = sys.membership ∧
      ∀ u, (sys.takeEvent t res intr).Queued u → sys.Queued u ∨ u = t := by
  have due (mid : System) (links : mid.links = sys.links)
      (mem : mid.membership = sys.membership) (ts : mid.threads = sys.threads) :
      ((mid.schedule t).completeEvent t res intr).links = sys.links ∧
        ((mid.schedule t).completeEvent t res intr).membership = sys.membership ∧
        ∀ u, ((mid.schedule t).completeEvent t res intr).Queued u → sys.Queued u ∨ u = t := by
    obtain ⟨sameLinks, sameGroups, queue⟩ := completeEvent_frame (mid.schedule t) t res intr
    refine ⟨sameLinks.trans links, ?_, fun u inQ => ?_⟩
    · rw [sameGroups, membership_schedule, mem]
    · rcases queued_schedule ((queue u).mp inQ) with pre | here
      · rw [Queued, ts] at pre
        exact .inl pre
      · exact .inr here
  simp only [takeEvent]
  split
  · split
    case h_1 paused _ =>
      obtain ⟨links, mem, ts⟩ := cancel_frame sys paused
      exact due _ links mem ts
    case h_2 => exact due sys rfl rfl rfl
  · obtain ⟨links, mem, queue⟩ := completeEvent_frame sys t res intr
    exact ⟨links, mem, fun u inQ => .inl ((queue u).mp inQ)⟩

lemma takePendingEvent_frame (sys : System) (t : Nat) :
    (sys.takePendingEvent t).links = sys.links ∧ (sys.takePendingEvent t).membership = sys.membership ∧
      ∀ u, (sys.takePendingEvent t).Queued u ↔ sys.Queued u := by
  simp only [takePendingEvent]
  split
  case h_1 => exact ⟨rfl, rfl, fun _ => Iff.rfl⟩
  case h_2 event _ =>
    let woken := sys.updateThread t fun th =>
      { th with time := max th.time event.time, waiting := false }
    obtain ⟨links, mem, queue⟩ := completeEvent_frame woken t event.res event.interrupt
    refine ⟨links, ?_, fun u => ?_⟩
    · have same : woken.membership = sys.membership := by
        simp only [woken]
        rw [membership_updateThread _ _ _ rfl rfl]
      exact mem.trans same
    · refine (queue u).trans ?_
      simp only [woken]
      rw [queued_updateThread rfl]

lemma raiseEvent_frame (sys : System) (res : ResourceRef) (time : Nat) :
    (sys.raiseEvent res time).links = sys.links ∧ (sys.raiseEvent res time).membership = sys.membership ∧
      ∀ u, (sys.raiseEvent res time).Queued u → sys.Queued u ∨
        ((sys.eventable res).owner = some u ∧ (sys.eventable res).eventsEnabled = true) := by
  simp only [raiseEvent]
  split
  case isFalse => exact ⟨rfl, rfl, fun _ inQ => .inl inQ⟩
  case isTrue legal =>
    simp only [event]
    split
    case h_1 => exact ⟨rfl, rfl, fun _ inQ => .inl inQ⟩
    case h_2 owner owned =>
      have on : (sys.eventable res).eventsEnabled = true := by
        simp only [eventsPermitted, owned, Bool.and_eq_true] at legal
        exact legal.1
      split
      · simp only [setPendingEvent]
        split
        · split <;> exact ⟨rfl, rfl, fun _ inQ => .inl inQ⟩
        · exact ⟨rfl, rfl, fun _ inQ => .inl inQ⟩
      · obtain ⟨links, mem, queue⟩ := takeEvent_frame
          (sys.updateThread owner fun th => { th with time := time }) owner res
          (sys.eventable res).interruptMode
        refine ⟨links, ?_, fun u inQ => ?_⟩
        · rw [mem, membership_updateThread _ _ _ rfl rfl]
        · rcases queue u inQ with pre | rfl
          · rw [queued_updateThread rfl] at pre
            exact .inl pre
          · exact .inr ⟨owned, on⟩

section

/-- A slot gets other contents. All but a lock hold at most one thread. -/
def rewait (sys : System) (threads : List Nat) : WaitSlot → System
  | .portOut p => sys.updatePort p fun port => { port with pausedOut := threads.head? }
  | .portIn p => sys.updatePort p fun port => { port with pausedIn := threads.head? }
  | .portSync p => sys.updatePort p fun port => { port with pausedSync := threads.head? }
  | .chanIn c => sys.updateChanend c fun chanend => { chanend with pausedIn := threads.head? }
  | .chanOut c => sys.updateChanend c fun chanend => { chanend with pausedOut := threads.head? }
  | .timer n => sys.updateTimer n fun timer => { timer with pausedIn := threads.head? }
  | .lock n => sys.updateLock n fun lock => { lock with threads := threads }

def enqueued (sys : System) (t : Nat) : WaitSlot → List Nat
  | .lock n => (sys.locks n).threads ++ [t]
  | _ => [t]

/-- Whom a slot records once it has let go of the thread that waited longest. -/
def dequeued (sys : System) : WaitSlot → List Nat
  | .lock n => (sys.locks n).threads.tail
  | _ => []

lemma record_eq (sys : System) (t : Nat) (slot : WaitSlot) :
    sys.record t slot = sys.rewait (sys.enqueued t slot) slot := by
  cases slot <;> rfl

lemma forget_eq (sys : System) (slot : WaitSlot) : sys.forget slot = sys.rewait (sys.dequeued slot) slot := by
  cases slot <;> rfl

lemma rewait_eventable (sys : System) (ts : List Nat) (slot : WaitSlot) :
    (sys.rewait ts slot).eventable = sys.eventable := by
  funext res
  cases slot with
  | portOut p | portIn p | portSync p =>
    cases res with
    | port q => by_cases here : q = p <;> simp [rewait, eventable, updatePort, here]
    | _ => rfl
  | chanIn c | chanOut c =>
    cases res with
    | chanend d => by_cases here : d = c <;> simp [rewait, eventable, updateChanend, here]
    | _ => rfl
  | timer n =>
    cases res with
    | timer k => by_cases here : k = n <;> simp [rewait, eventable, updateTimer, here]
    | _ => rfl
  | lock => cases res <;> rfl

lemma rewait_membership (sys : System) (ts : List Nat) (slot : WaitSlot) :
    (sys.rewait ts slot).membership = sys.membership ∧ (sys.rewait ts slot).threads = sys.threads := by
  cases slot <;> exact ⟨rfl, rfl⟩

variable {slot other : WaitSlot}

lemma mem_recorded_rewait {ts : List Nat} {u : Nat}
    (mem : u ∈ (sys.rewait ts slot).table.recorded other) : u ∈ sys.table.recorded other ∨ u ∈ ts := by
  have first : u ∈ ts.head? → u ∈ ts := mem_of_head?
  cases slot with
  | portOut p | portIn p | portSync p =>
    cases other with
    | portOut q | portIn q | portSync q =>
      by_cases here : q = p <;> simp_all [table, rewait, updatePort]
    | chanIn | chanOut | timer | lock => exact .inl mem
  | chanIn c | chanOut c =>
    cases other with
    | chanIn d | chanOut d => by_cases here : d = c <;> simp_all [table, rewait, updateChanend]
    | portOut | portIn | portSync | timer | lock => exact .inl mem
  | timer n =>
    cases other with
    | timer k => by_cases here : k = n <;> simp_all [table, rewait, updateTimer]
    | portOut | portIn | portSync | chanIn | chanOut | lock => exact .inl mem
  | lock n =>
    cases other with
    | lock k => by_cases here : k = n <;> simp_all [table, rewait, updateLock]
    | portOut | portIn | portSync | chanIn | chanOut | timer => exact .inl mem

lemma mem_recorded_record {t u : Nat} (mem : u ∈ (sys.record t slot).table.recorded other) :
    (∃ origin, u ∈ sys.table.recorded origin) ∨ u = t := by
  rw [record_eq] at mem
  rcases mem_recorded_rewait mem with pre | here
  · exact .inl ⟨other, pre⟩
  · cases slot with
    | lock n =>
      rcases mem_append.mp here with pre | new
      · exact .inl ⟨.lock n, pre⟩
      · exact .inr (mem_singleton.mp new)
    | _ => exact .inr (mem_singleton.mp here)

lemma mem_recorded_forget {u : Nat} (mem : u ∈ (sys.forget slot).table.recorded other) :
    ∃ origin, u ∈ sys.table.recorded origin := by
  rw [forget_eq] at mem
  rcases mem_recorded_rewait mem with pre | here
  · exact ⟨other, pre⟩
  · cases slot with
    | lock n => exact ⟨.lock n, mem_of_mem_tail here⟩
    | _ => cases here

lemma configure_recorded (sys : System) (evs : Eventable) (res : ResourceRef) :
    (sys.configure evs res).table.recorded = sys.table.recorded := by
  funext slot
  cases res with
  | port p =>
    cases slot with
    | portOut q | portIn q | portSync q => by_cases here : q = p <;> simp [table, configure, updatePort, here]
    | chanIn | chanOut | timer | lock => rfl
  | chanend c =>
    cases slot with
    | chanIn d | chanOut d => by_cases here : d = c <;> simp [table, configure, updateChanend, here]
    | portOut | portIn | portSync | timer | lock => rfl
  | timer n =>
    cases slot with
    | timer k => by_cases here : k = n <;> simp [table, configure, updateTimer, here]
    | portOut | portIn | portSync | chanIn | chanOut | lock => rfl
  | sync | lock => rfl

lemma configure_membership (sys : System) (evs : Eventable) (res : ResourceRef) :
    (sys.configure evs res).membership = sys.membership ∧ (sys.configure evs res).threads = sys.threads := by
  cases res <;> exact ⟨rfl, rfl⟩

end

end System

namespace ThreadRun

open Axe.System

variable {run : ThreadRun}

section

variable (inv : run.Inv)
include inv

lemma Inv.live {place : Place} {u : Nat} (ref : run.Refers place u) : run.Live u :=
  inv.sound place u ref

lemma Inv.dispatch (u : Nat) : (run.step (.dispatch u)).Inv := by
  cases idle : run.executing with
  | some t =>
    rw [step_dispatch_busy idle]
    exact inv
  | none =>
    rw [step_dispatch idle]
    split
    case isFalse => simpa [idle] using inv
    case isTrue inQ =>
      refine inv.reschedule rfl ?_ (fun _ begun => begun) (fun v queued => .inl ⟨.queue, ?_⟩) fun v executing => ?_
      · change (run.sys.updateThread u fun th => { th with wakeUpTime := none }).membership = _
        rw [membership_updateThread _ _ _ rfl rfl]
      · by_cases here : v = u
        · exact here ▸ inQ
        · simpa [Queued, updateThread, here, Refers] using queued
      · obtain rfl : u = v := by simpa using executing
        exact ⟨.queue, inQ⟩

lemma Inv.of_running {lbl : ThreadStep} (taken : lbl.ofThread = true)
    (kept : ∀ t, run.executing = some t → (run.step lbl).Inv) : (run.step lbl).Inv := by
  cases runs : run.executing with
  | none =>
    rw [step_idle runs taken]
    exact inv
  | some t => exact kept t runs

lemma Inv.pause (slot : WaitSlot) : (run.step (.pause slot)).Inv := by
  refine inv.of_running rfl fun t runs => ?_
  rw [step_pause runs]
  have noted := run.sys.record_eq t slot
  obtain ⟨memb, ts⟩ := run.sys.rewait_membership (run.sys.enqueued t slot) slot
  refine inv.copy ?_ (fun _ begun => begun) (fun u inQ => .inl ⟨.queue, ?_⟩) nofun (fun other u mem => ?_)
    fun res u owner => ⟨.owner res, ?_⟩
  · rw [stop, membership_updateThread _ _ _ rfl rfl, noted, memb]
  · rwa [stop, queued_updateThread rfl, noted, Queued, ts] at inQ
  · rcases mem_recorded_record mem with ⟨origin, pre⟩ | here
    · exact ⟨.slot origin, pre⟩
    · exact ⟨.executing, runs.trans (congrArg some here.symm)⟩
  · rwa [Refers, stop, (SameEvents.updateThread _ _ _).eventable, noted, rewait_eventable] at owner

lemma Inv.configure {res : ResourceRef} {evs : Eventable}
    (may : run.Admissible (.configure res evs)) : (run.step (.configure res evs)).Inv := by
  refine inv.of_running rfl fun t runs => ?_
  rw [step_configure runs]
  obtain ⟨memb, ts⟩ := run.sys.configure_membership evs res
  refine inv.copy memb (fun _ begun => begun) (fun u inQ => .inl ⟨.queue, ?_⟩)
    (fun u executing => ⟨.executing, executing⟩) (fun slot u mem => ⟨.slot slot, ?_⟩) fun other u owner => ?_
  · rwa [Queued, ts] at inQ
  · rwa [configure_recorded] at mem
  · rcases run.sys.configure_eventable evs res other with same | ⟨-, set⟩
    · exact ⟨.owner other, by rwa [Refers, same] at owner⟩
    · rw [Refers, set] at owner
      rcases may with none | self
      · simp [none] at owner
      · exact ⟨.executing, self.symm.trans owner.1⟩

lemma Inv.forget (slot : WaitSlot) : Inv { run with sys := run.sys.forget slot } := by
  have forgotten := run.sys.forget_eq slot
  obtain ⟨memb, ts⟩ := run.sys.rewait_membership (run.sys.dequeued slot) slot
  rw [← forgotten] at memb ts
  refine inv.copy memb (fun _ begun => begun) (fun u inQ => .inl ⟨.queue, ?_⟩)
    (fun u executing => ⟨.executing, executing⟩) (fun other u mem => ?_) fun res u owner => ⟨.owner res, ?_⟩
  · rwa [Queued, ts] at inQ
  · obtain ⟨origin, pre⟩ := mem_recorded_forget mem
    exact ⟨.slot origin, pre⟩
  · rwa [Refers, forgotten, rewait_eventable] at owner

lemma Inv.wake (slot : WaitSlot) (time : Nat) : (run.step (.wake slot time)).Inv := by
  unfold step
  dsimp only
  split
  case h_1 => exact inv
  case h_2 u rest noted =>
    have forgotten := run.sys.forget_eq slot
    obtain ⟨memb, ts⟩ := run.sys.rewait_membership (run.sys.dequeued slot) slot
    have links : ((run.sys.forget slot).wake u time).links = (run.sys.forget slot).links := rfl
    refine inv.copy ?_ (fun _ begun => begun) (fun v inQ => .inl ?_) (fun v executing => ⟨.executing, executing⟩)
      (fun other v mem => ?_) fun res v owner => ⟨.owner res, ?_⟩
    · rw [System.wake, System.membership_schedule, System.membership_updateThread _ _ _ rfl rfl, forgotten, memb]
    · rcases System.queued_schedule inQ with pre | rfl
      · rw [System.queued_updateThread rfl, forgotten, System.Queued, ts] at pre
        exact ⟨.queue, pre⟩
      · exact ⟨.slot slot, by rw [Refers, noted]; exact mem_cons_self ..⟩
    · rw [System.recorded_of_links links] at mem
      obtain ⟨origin, pre⟩ := System.mem_recorded_forget mem
      exact ⟨.slot origin, pre⟩
    · rwa [Refers, System.eventable_of_links links, forgotten, System.rewait_eventable] at owner

lemma Inv.raise (res : ResourceRef) (time : Nat) : (run.step (.raise res time)).Inv := by
  obtain ⟨links, mem, queue⟩ := run.sys.raiseEvent_frame res time
  refine inv.reschedule links mem (fun _ begun => begun) (fun u inQ => .inl ?_) fun u executing =>
    ⟨.executing, executing⟩
  rcases queue u inQ with pre | owner
  · exact ⟨.queue, pre⟩
  · exact ⟨.owner res, owner⟩

lemma Inv.stop {t : Nat} (runs : run.executing = some t) {sys : System}
    (links : sys.links = run.sys.links) (mem : sys.membership = run.sys.membership)
    (queue : ∀ u, sys.Queued u → run.sys.Queued u ∨ u = t) : (run.stop sys).Inv := by
  refine inv.reschedule links mem (fun _ begun => begun) (fun u inQ => .inl ?_) nofun
  rcases queue u inQ with pre | here
  · exact ⟨.queue, pre⟩
  · exact ⟨.executing, runs.trans (congrArg some here.symm)⟩

lemma Inv.tstart (u cost : Nat) : (run.step (.tstart u cost)).Inv := by
  refine inv.of_running rfl fun t runs => ?_
  rw [step_tstart runs]
  simp only [System.tstart]
  cases fits : (run.sys.threads u).inUse && (run.sys.threads u).ssync && (run.sys.threads u).sync.isNone with
  | false =>
    simp only [Bool.or_false, Function.update_eq_self, Bool.false_eq_true, if_false]
    refine inv.reschedule rfl (System.membership_raise ..) (fun _ begun => begun)
      (fun v inQ => .inl ⟨.queue, System.queued_raise.mp inQ⟩) fun v executing => ⟨.executing, executing⟩
  | true =>
    simp only [Bool.or_true, if_true]
    have used : (run.sys.threads u).inUse = true := by
      simp only [Bool.and_eq_true] at fits
      exact fits.1.1
    refine inv.reschedule rfl ?_ (fun v begun => ?_) (fun v inQ => ?_) fun v executing => ⟨.executing, executing⟩
    · rw [System.membership_advance, System.membership_schedule, System.membership_updateThread _ _ _ rfl rfl]
    · by_cases here : v = u
      · simp [here]
      · simpa [here] using begun
    · rcases System.queued_schedule (System.queued_advance.mp inQ) with pre | rfl
      · rw [System.queued_updateThread rfl] at pre
        exact .inl ⟨.queue, pre⟩
      · refine .inr ⟨?_, by simp⟩
        by_cases self : v = t
        · simp [System.advance, System.schedule, System.updateThread, ← self, used]
        · simp [System.advance, System.schedule, System.updateThread, self, used]

end

section

variable {step : GuestStep} {t : Fin numThreads} {u : Nat}

lemma Live.guest (live : run.Live u) (kept : u ∉ run.sys.freed step) (runs : run.executing = some t.val) :
    (run.step (.guest step)).Live u := by
  obtain ⟨used, begun⟩ := live
  have inUse : ((run.sys.guestStep step).threads u).inUse = (run.sys.regrouped step).inUse u :=
    congrFun (congrArg Membership.inUse (membership_guestStep run.sys step)) u
  have old : run.sys.allocated step ≠ some u := fun new => by
    simp [(allocated_spec new).1] at used
  refine ⟨?_, ?_⟩
  · rw [step_guest runs]
    exact inUse.trans (regrouped_inUse used kept)
  · simp [step_guest runs, old, begun]

section

variable (inv : run.Inv)
include inv

/-- A step on groups copies references, and lets go only threads that are in use. The thread
that takes the step is copied only if it goes on or nothing is freed. -/
lemma Inv.guest_origin (th : step.thread = some t) (runs : run.executing = some t.val)
    {place : Place} (ref : (run.step (.guest step)).Refers place u) : (∃ origin, run.Refers origin u ∧
        (origin = .executing → run.sys.stops step = true → run.sys.freed step = [])) ∨
      u ∈ run.sys.released step := by
  have links := run.sys.links_guestStep step
  have groups := membership_guestStep run.sys step
  rw [step_guest runs] at ref
  cases place with
  | queue =>
    rcases queued_guestStep th ref with pre | isReleased | ⟨s, head⟩
    · exact .inl ⟨.queue, pre, nofun⟩
    · exact .inr isReleased
    · exact .inl ⟨.master s, head, nofun⟩
  | executing =>
    simp only [Refers] at ref
    split at ref
    · cases ref
    case isFalse goes => exact .inl ⟨.executing, runs.trans ref, fun _ stops => absurd stops goes⟩
  | slot slot => exact .inl ⟨.slot slot, by simpa only [Refers, recorded_of_links links] using ref, nofun⟩
  | owner res => exact .inl ⟨.owner res, by simpa only [Refers, eventable_of_links links] using ref, nofun⟩
  | master s =>
    have listed : ((run.sys.guestStep step).syncs s).threads = (run.sys.regrouped step).listed s :=
      congrFun (congrArg Membership.listed groups) s
    rw [Refers, listed] at ref
    cases run.sys.regrouped_list step s with
    | same list _ => exact .inl ⟨.master s, by rw [Refers, ← list]; exact ref, nofun⟩
    | made v master none list =>
      rw [list] at ref
      obtain rfl : v = u := by simpa using ref
      refine .inl ⟨.executing, ?_, fun _ _ => none⟩
      rw [Refers, runs, ← master, th]
      rfl
    | grown child _ act list =>
      rw [list, head?_append_of_ne_nil _ (inv.filled s act)] at ref
      exact .inl ⟨.master s, ref, nofun⟩
    | joined master head list =>
      rw [list] at ref
      exact .inl ⟨.master s, head.trans ref, nofun⟩

lemma Inv.not_freed (th : step.thread = some t) (runs : run.executing = some t.val)
    (tidy : run.Orderly (.guest step)) {place : Place} (ref : (run.step (.guest step)).Refers place u) :
    u ∉ run.sys.freed step := by
  intro isFreed
  have quiet := tidy u isFreed
  have something : run.sys.freed step ≠ [] := ne_nil_of_mem isFreed
  rcases inv.guest_origin th runs ref with ⟨origin, pre, goes⟩ | isReleased
  · cases origin with
    | queue => exact quiet.unqueued pre
    | executing => exact something (goes rfl (quiet.stops pre))
    | slot slot => exact quiet.unrecorded slot pre
    | owner res => exact Bool.false_ne_true ((quiet.eventless res pre.1).symm.trans pre.2)
    | master s => exact (quiet.unlisted s (mem_of_head? pre)).2 pre
  · exact something (released_spec isReleased).2

lemma Inv.guest_copied (th : step.thread = some t) (runs : run.executing = some t.val)
    {place : Place} (ref : (run.step (.guest step)).Refers place u) (kept : u ∉ run.sys.freed step) :
    (∃ origin, run.Refers origin u) ∨ (run.step (.guest step)).Live u := by
  rcases inv.guest_origin th runs ref with ⟨origin, pre, -⟩ | isReleased
  · exact .inl ⟨origin, pre⟩
  · obtain ⟨s, mem⟩ := (released_spec isReleased).1
    have used := inv.listed s u mem
    have old : run.sys.allocated step ≠ some u := fun new => by
      simp [(allocated_spec new).1] at used
    rw [step_guest runs]
    refine .inr ⟨?_, by simp [old, isReleased]⟩
    exact (congrFun (congrArg Membership.inUse (membership_guestStep run.sys step)) u).trans (regrouped_inUse used kept)

lemma Inv.guest_listed (th : step.thread = some t) (runs : run.executing = some t.val)
    (tidy : run.Orderly (.guest step)) {s : Nat} (mem : u ∈ (run.sys.regrouped step).listed s) :
    (run.sys.regrouped step).inUse u = true := by
  cases run.sys.regrouped_list step s with
  | same list apart =>
    rw [list] at mem
    refine regrouped_inUse (inv.listed s u mem) fun isFreed => ?_
    rcases apart ((tidy u isFreed).unlisted s mem).1 with none | empty
    · rw [none] at isFreed
      cases isFreed
    · rw [empty] at mem
      cases mem
  | made v master none list =>
    rw [list, mem_singleton] at mem
    have executing : run.Refers .executing u := by
      rw [Refers, runs, mem, ← master, th]
      rfl
    exact regrouped_inUse (inv.live executing).1 (by rw [none]; exact not_mem_nil)
  | grown child new act list =>
    rw [list, mem_append, mem_singleton] at mem
    rcases mem with pre | rfl
    · refine regrouped_inUse (inv.listed s u pre) ?_
      rw [allocated_not_freed new]
      exact not_mem_nil
    · exact (allocated_spec new).2
  | joined master head list =>
    rw [list, mem_singleton] at mem
    subst mem
    have pre := mem_of_head? head
    refine regrouped_inUse (inv.listed s u pre) fun isFreed => ?_
    exact ((tidy u isFreed).unlisted s pre).2 head

/-- An instruction on threads and groups keeps every reference to a live thread when it frees
only quiet ones. -/
lemma Inv.guest (may : run.Admissible (.guest step))
    (tidy : run.Orderly (.guest step)) : (run.step (.guest step)).Inv := by
  obtain ⟨isSome, taken⟩ := may
  obtain ⟨t, th⟩ := Option.isSome_iff_exists.mp isSome
  have runs : run.executing = some t.val := by
    rw [← taken, th]
    rfl
  have groups := membership_guestStep run.sys step
  have listed (s : Nat) : ((run.sys.guestStep step).syncs s).threads = (run.sys.regrouped step).listed s :=
    congrFun (congrArg Membership.listed groups) s
  refine ⟨?_, ?_, ?_⟩
  · refine inv.sound.step (fun place u ref => ?_) fun place u ref live => ?_
    · exact inv.guest_copied th runs ref (inv.not_freed th runs tidy ref)
    · exact Live.guest live (inv.not_freed th runs tidy ref) runs
  · rw [step_guest runs]
    intro s u mem
    rw [listed] at mem
    exact (congrFun (congrArg Membership.inUse groups) u).trans (inv.guest_listed th runs tidy mem)
  · rw [step_guest runs]
    intro s act
    have act' : (run.sys.regrouped step).active s = true :=
      (congrFun (congrArg Membership.active groups) s).symm.trans act
    rw [listed]
    rcases regrouped_active act' with pre | filled
    · cases run.sys.regrouped_list step s with
      | same list _ =>
        rw [list]
        exact inv.filled s pre
      | made _ _ _ list => simp [list]
      | grown _ _ _ list => simp [list]
      | joined _ _ list => simp [list]
    · exact filled

end

end

lemma Inv.step (inv : run.Inv) {lbl : ThreadStep} (may : run.Admissible lbl)
    (tidy : run.Orderly lbl) : (run.step lbl).Inv := by
  cases lbl with
  | dispatch u => exact inv.dispatch u
  | pause slot => exact inv.pause slot
  | configure res evs => exact inv.configure may
  | tstart u cost => exact inv.tstart u cost
  | guest step => exact inv.guest may tidy
  | wake slot time => exact inv.wake slot time
  | forget slot => exact inv.forget slot
  | raise res time => exact inv.raise res time
  | work post =>
    obtain ⟨memb, queue, noted, eventable⟩ := may
    refine inv.copy memb (fun _ begun => begun) (fun u inQ => .inl ⟨.queue, (queue u).mp inQ⟩)
      (fun u executing => ⟨.executing, executing⟩) (fun slot u mem => ⟨.slot slot, ?_⟩) fun res u owner =>
      ⟨.owner res, ?_⟩
    · have mem : u ∈ post.table.recorded slot := mem
      rwa [noted] at mem
    · rw [Refers, ← eventable]
      exact owner
  | yield =>
    refine inv.of_running rfl fun t runs => ?_
    rw [step_yield runs]
    exact inv.stop runs rfl (membership_schedule _ t) fun _ => queued_schedule
  | deschedule =>
    refine inv.of_running rfl fun t runs => ?_
    rw [step_deschedule runs]
    refine inv.stop runs rfl ?_ fun u inQ => .inl ?_
    · rw [membership_updateThread _ _ _ rfl rfl]
    · rwa [queued_updateThread rfl] at inQ
  | takeEvent =>
    refine inv.of_running rfl fun t runs => ?_
    rw [step_takeEvent runs]
    obtain ⟨links, memb, queue⟩ := run.sys.takePendingEvent_frame t
    refine inv.stop runs links ?_ fun u inQ => ?_
    · rw [membership_schedule, memb]
    · exact (queued_schedule inQ).imp_left (queue u).mp

def boot : ThreadRun where
  sys := booted.schedule 0
  executing := none
  started u := u = 0

lemma inv_boot : boot.Inv := by
  refine ⟨fun place u ref => ?_, fun s u mem => ?_, fun s act => ?_⟩
  · cases place with
    | queue =>
      rcases queued_schedule ref with never | rfl
      · rw [booted, allocThread, queued_updateThread rfl] at never
        cases never
      · exact ⟨rfl, rfl⟩
    | executing => cases ref
    | slot slot => cases slot <;> cases ref
    | owner res => cases res <;> cases ref.1
    | master s => cases ref
  · cases mem
  · cases act

/-- Threads that execute or wait to execute are in use and have been started. -/
def RunningThreadsInUse (run : ThreadRun) : Prop :=
  ∀ u, run.sys.Queued u ∨ run.executing = some u → (run.sys.threads u).inUse = true ∧ run.started u = true

/-- The first thread makes another, which runs and frees itself. -/
def startedThread : List ThreadStep :=
  [.dispatch 0, .guest (.getrThread 0 4), .tstart 1 4, .yield, .dispatch 1, .guest (.freet 1 4)]

def freedThread : List ThreadStep :=
  [.dispatch 0, .guest (.getrThread 0 4), .tstart 1 4, .guest (.freerThread 1 0 4)]

end ThreadRun

end Axe
