import Axe.System.OperationTimes

/-! No clock runs back past the issue of its thread's own instruction, as long as no
thread pauses while another could still act before it did. -/

namespace Axe

open Function

open Running

def Phase.busy : Phase → Bool
  | .fetch => false
  | _ => true

def Phase.guarded : Phase → Bool
  | .fetch => false
  | .execute inst | .descheduled inst _ => inst.yieldsBefore

namespace Running

def executing : Running → Option Nat
  | .thread t _ => some t
  | _ => none

def busy : Running → Bool
  | .thread _ phase => phase.busy
  | _ => false

def guarded : Running → Bool
  | .thread _ phase => phase.guarded
  | _ => false

inductive Continues : Running → Running → Prop where
  | same (running : Running) : Continues running running
  | thread (t : Nat) {phase next : Phase} (busy : next.busy = true → phase.busy = true)
      (guarded : next.guarded = true → phase.guarded = true) : Continues (.thread t phase) (.thread t next)

variable {pre post : Running}

section

variable (goes : Continues pre post)
include goes

lemma Continues.executing : post.executing = pre.executing := by
  cases goes <;> rfl

lemma Continues.busy : post.busy = true → pre.busy = true := by
  cases goes with
  | same => exact id
  | thread t busy => exact busy

lemma Continues.guarded : post.guarded = true → pre.guarded = true := by
  cases goes with
  | same => exact id
  | thread t _ guarded => exact guarded

lemma Continues.idle (run : post ≠ .idle) : pre ≠ .idle := by
  cases goes with
  | same => exact run
  | thread => simp

end

end Running

namespace ClockRun

open Axe.System
open AgentClocks (Timely Bounds)

variable (run : ClockRun) (via : Routing)

def clocks : AgentClocks Nat OtherRunnable Nat where
  clock u := (run.sys.threads u).time
  place u := (run.sys.threads u).wakeUpTime
  waiting u := (run.sys.threads u).waiting
  exposed := run.sys.Exposed
  issued := run.issued
  others := run.others
  running := run.running.executing
  now := run.now
  busy := run.running.busy = true
  guarded := run.running.guarded = true

structure Sound : Prop where
  timely : run.clocks.Timely
  current : run.running ≠ .idle → run.sys.currentRunnable = run.running.executing

def Settled (time : Nat) : Prop :=
  ∀ u, run.running.executing ≠ some u → (run.sys.threads u).waiting = true → run.sys.Exposed u → run.issued u ≤ time

/-- What keeps the clocks in order: nothing is done or planned for a time that is past, no event reaches a thread
that stands in the queue ahead of it, and an instruction that does not look at its time slice pauses an exposed
thread only within the slice. -/
def Careful : ClockStep → Prop
  | .timerRun => ∀ n time, run.running = .other (.timer n) time → run.sys.NoneAhead (.timer n) time
  | .portWake _ _ time => ∀ now, run.now = some now → now ≤ time
  | .portEvent p time => (∀ now, run.now = some now → now ≤ time) ∧ run.sys.NoneAhead (.port p) time
  | .scheduleOther _ time => ∀ now, run.now = some now → now ≤ time
  | .operate op => ∀ t inst, run.running = .thread t (.execute inst) →
      run.sys.Untroubled via t op ∧ ∀ u, op = .tstart u → run.Settled (run.sys.threads u).time
  | .pause _ => ∀ t inst res, run.running = .thread t (.descheduled inst res) → inst.yieldsBefore = false →
      run.sys.Exposed t → ¬run.Expired t
  | _ => True

def wakingTime : ClockStep → Option Nat
  | .portWake _ _ time | .portEvent _ time => some time
  | .operate (.tstart _) => none
  | .operate _ | .timerRun | .takeEvent _ => run.now
  | _ => none

/-- A thread that the step wakes goes on neither before the step nor before it issued its instruction. -/
def WakesRight (label : ClockStep) : Prop :=
  ∀ time, run.wakingTime label = some time → ∀ u, (run.sys.threads u).waiting = true →
    ((run.act via label).sys.threads u).waiting = false →
    time ≤ ((run.act via label).sys.threads u).time ∧
      run.issued u ≤ ((run.act via label).sys.threads u).time

variable {run via} {post : ClockRun} {due now : Nat}

lemma now_of_executing {t : Nat} (executing : run.running.executing = some t) :
    run.now = some (run.sys.threads t).time := by
  unfold Running.executing at executing
  split at executing
  · rename_i u phase isRunning
    obtain rfl : u = t := by simpa using executing
    simp [now, isRunning]
  · simp at executing

lemma now_le_of_continues (goes : run.running.Continues post.running)
    (fwd : ∀ t, run.running.executing = some t → (run.sys.threads t).time ≤ (post.sys.threads t).time)
    {m : Nat} (isNow : run.now = some now) (isLater : post.now = some m) : now ≤ m := by
  cases runs : run.running.executing with
  | some t =>
    have executesAfter := goes.executing.trans runs
    obtain rfl : (run.sys.threads t).time = now := Option.some.inj ((now_of_executing runs).symm.trans isNow)
    obtain rfl : (post.sys.threads t).time = m := Option.some.inj ((now_of_executing executesAfter).symm.trans isLater)
    exact fwd t runs
  | none =>
    -- nothing but a thread changes its phase
    have same : post.running = run.running := by
      generalize run.running = pre at goes runs
      generalize post.running = next at goes
      cases goes with
      | same => rfl
      | thread => simp [executing] at runs
    unfold ClockRun.now at isNow isLater
    rw [same] at isLater
    split at isNow
    · simp at isNow
    · rename_i isRunning
      simp [executing, isRunning] at runs
    · rename_i isRunning
      simp only [isRunning] at isLater
      exact (Option.some.inj (isNow.symm.trans isLater)).le

section

variable (sound : run.Sound)
include sound

lemma Sound.current_of_now (isNow : run.now = some now) : run.sys.currentRunnable = run.running.executing := by
  apply sound.current
  intro idle
  simp [ClockRun.now, idle] at isNow

/-- A thread that is woken was exposed, and then no time that is left is before its instruction, or its clock
went forward. -/
lemma Sound.woken_resting {sys : System} {u : Nat} (eff : ClockEffect due run.sys sys u)
    (isNow : run.now = some now) (later : now ≤ due) (rests : run.running.executing ≠ some u)
    (wait : (run.sys.threads u).waiting = true) (woken : (sys.threads u).waiting = false) :
    due ≤ (sys.threads u).time ∧ run.issued u ≤ (sys.threads u).time := by
  have reach := eff.woken wait woken
  refine ⟨reach, ?_⟩
  obtain fwd | seen := eff.back
  · exact (sound.timely.own u rests wait).trans fwd
  · exact ((sound.timely.floor u rests wait seen).now now isNow).trans (later.trans reach)

lemma work_of_effects (eff : ClockEffects due run.sys post.sys) (isNow : run.now = some now)
    (later : now ≤ due) (goes : run.running.Continues post.running)
    (rest : ∀ o w, post.others o = some w → run.others o = some w ∨ now ≤ w) (issued : post.issued = run.issued) :
    AgentClocks.Work due run.clocks post.clocks := by
  have cur := sound.current_of_now isNow
  have timely := sound.timely
  have sameIssued (u : Nat) : post.clocks.issued u = run.clocks.issued u := congrFun issued u
  have put {u w : Nat} (place : (run.sys.threads u).wakeUpTime = some w)
      (bound : (run.sys.threads u).time ≤ (post.sys.threads u).time ∨ w ≤ (post.sys.threads u).time) :
      w ≤ (post.sys.threads u).time := by
    obtain fwd | bound := bound
    · exact (timely.places u w place).trans fwd
    · exact bound
  constructor
  · exact goes.executing
  · exact goes.busy
  · exact goes.guarded
  · intro n isBefore m isAfter
    refine now_le_of_continues goes (fun t runs => ?_) isBefore isAfter
    exact (eff.current t (cur.trans runs)).forward
  · intro o w place
    refine (rest o w place).imp_right fun beyond m isBefore => ?_
    exact (Option.some.inj (isNow.symm.trans isBefore)).ge.trans beyond
  · intro u rests
    have effect := eff.thread u (by rwa [cur])
    constructor
    · intro w place
      obtain ⟨rfl, reach⟩ | ⟨place, bound⟩ := effect.place w place
      · exact ⟨.inl rfl, reach⟩
      · exact ⟨.inr place, put place bound⟩
    · intro wait
      obtain ⟨slept, fwd⟩ := effect.waiting wait
      rw [sameIssued]
      exact ⟨slept, le_rfl, (timely.own u rests slept).trans fwd⟩
    · exact sound.woken_resting effect isNow later rests
    · exact effect.exposed
  · intro u runs
    have effect := eff.current u (cur.trans runs)
    constructor
    · exact effect.forward
    · exact now_of_executing (goes.executing.trans runs)
    · exact (sameIssued u).le
    · intro w place
      obtain ⟨rfl, reach⟩ | place := effect.place w place
      · exact ⟨.inl rfl, reach⟩
      · exact ⟨.inr place, put place (.inl effect.forward)⟩

lemma Sound.effects (post : ClockRun) (eff : ClockEffects due run.sys post.sys)
    (isNow : run.now = some now) (later : now ≤ due) (goes : run.running.Continues post.running)
    (rest : ∀ o w, post.others o = some w → run.others o = some w ∨ now ≤ w) (issued : post.issued = run.issued) :
    post.Sound := by
  refine ⟨sound.timely.work (work_of_effects sound eff isNow later goes rest issued) isNow later,
    fun running => ?_⟩
  rw [eff.currentRunnable, goes.executing]
  exact sound.current (goes.idle running)

lemma Sound.woken {sys : System} (eff : ClockEffects due run.sys sys) (isNow : run.now = some now)
    (later : now ≤ due) (busy : run.running.executing.isSome = true → run.running.busy = true) {u : Nat}
    (wait : (run.sys.threads u).waiting = true) (woken : (sys.threads u).waiting = false) :
    due ≤ (sys.threads u).time ∧ run.issued u ≤ (sys.threads u).time := by
  have cur := sound.current_of_now isNow
  by_cases executes : run.running.executing = some u
  · have effect := eff.current u (cur.trans executes)
    have issued : run.issued u ≤ (run.sys.threads u).time := sound.timely.busy (busy (by simp [executes])) u executes
    exact ⟨effect.woken wait woken, issued.trans effect.forward⟩
  · have effect := eff.thread u (by rwa [cur])
    exact sound.woken_resting effect isNow later executes wait woken

end

section

variable {t : Nat} {sys : System}

lemma tick_effects (executing : sys.currentRunnable = some t) {upd : Thread → Thread}
    (fwd : (sys.threads t).time ≤ (upd (sys.threads t)).time) (bound : (upd (sys.threads t)).time ≤ due)
    (place : (upd (sys.threads t)).wakeUpTime = (sys.threads t).wakeUpTime)
    (wait : (sys.threads t).waiting = true → (upd (sys.threads t)).waiting = false →
      due ≤ (upd (sys.threads t)).time) : ClockEffects due sys (sys.updateThread t upd) := by
  apply updateThread_effects
  · intro u runs
    obtain rfl : t = u := Option.some.inj (executing.symm.trans runs)
    exact fwd.trans bound
  · exact fun rests => absurd executing rests
  · exact fun _ => ⟨⟨fwd, fun w put => .inr (place ▸ put), wait⟩, bound⟩

lemma clocks_updateThread (run : ClockRun) (t : Nat) (upd : Thread → Thread) (cur : Option Nat)
    (running : Running) (eeble : ∀ th, (upd th).eeble = th.eeble)
    (ieble : ∀ th, (upd th).ieble = th.ieble) : let post : ClockRun :=
      { run with sys := { run.sys.updateThread t upd with currentRunnable := cur }, running := running }
    post.clocks =
      { run.clocks with
        clock := update run.clocks.clock t (upd (run.sys.threads t)).time
        place := update run.clocks.place t (upd (run.sys.threads t)).wakeUpTime
        waiting := update run.clocks.waiting t (upd (run.sys.threads t)).waiting
        running := running.executing
        now := post.now
        busy := running.busy = true
        guarded := running.guarded = true } := by
  ext1
  case exposed =>
    funext v
    by_cases same : v = t <;> simp [clocks, Exposed, updateThread, table, same, eeble, ieble]
  case others =>
    funext r
    cases r <;> rfl
  case issued | running | now | busy | guarded => rfl
  all_goals
    funext v
    by_cases same : v = t <;> simp [clocks, updateThread, same]

variable {u time : Nat} {inst : ClockedInstruction}

lemma Sound.dispatch (sound : run.Sound) (idle : run.running = .idle) {w : Nat}
    (place : (run.sys.threads u).wakeUpTime = some w) : (run.act via (.dispatch u)).Sound := by
  have rests : run.clocks.running = none := by simp [clocks, idle, executing]
  have taken : (run.act via (.dispatch u)).clocks = run.clocks.dispatch u := by
    simp only [act, idle, place, Option.isSome_some, if_true]
    refine (clocks_updateThread run u (fun th => { th with wakeUpTime := none }) (some u) (.thread u .fetch)
      (fun _ => rfl) fun _ => rfl).trans ?_
    simp [AgentClocks.dispatch, clocks, now, updateThread, executing, busy, Phase.busy, guarded, Phase.guarded]
  refine ⟨taken ▸ sound.timely.dispatch rests place, fun _ => ?_⟩
  simp [act, idle, place, executing]

lemma setPlace_recorded (run : ClockRun) (r : OtherRunnable) (place : Option Nat) :
    (run.setPlace r place).sys.table.recorded = run.sys.table.recorded := by
  funext slot
  cases r with
  | timer n =>
    cases slot with
    | timer m => by_cases same : m = n <;> simp [setPlace, table, updateTimer, same]
    | portOut | portIn | portSync | chanIn | chanOut | lock => rfl
  | port | peripheral => rfl

lemma setPlace_threads (run : ClockRun) (r : OtherRunnable) (place : Option Nat) :
    (run.setPlace r place).sys.threads = run.sys.threads := by
  cases r <;> rfl

lemma setPlace_others (run : ClockRun) (r : OtherRunnable) (place : Option Nat) :
    (run.setPlace r place).others = update run.others r place := by
  funext o
  cases r with
  | timer n =>
    cases o with
    | timer m => by_cases same : m = n <;> simp [setPlace, others, updateTimer, same]
    | port | peripheral => simp [setPlace, others]
  | port p =>
    cases o with
    | port q => by_cases same : q = p <;> simp [setPlace, others, same]
    | timer | peripheral => simp [setPlace, others]
  | peripheral num =>
    cases o with
    | peripheral other => by_cases same : other = num <;> simp [setPlace, others, same]
    | timer | port => simp [setPlace, others]

lemma exposed_congr {post : System} (ts : post.threads = sys.threads)
    (noted : post.table.recorded = sys.table.recorded) : post.Exposed = sys.Exposed := by
  funext u
  simp only [Exposed, ts, noted]

lemma Sound.runOther (sound : run.Sound) (idle : run.running = .idle) {r : OtherRunnable}
    (place : run.others r = some time) : (run.act via (.runOther r)).Sound := by
  have rests : run.clocks.running = none := by simp [clocks, idle, executing]
  have taken : (run.act via (.runOther r)).clocks = run.clocks.run r time := by
    simp only [act, idle, place]
    have ts := run.setPlace_threads r none
    ext1
    case exposed => exact exposed_congr ts (run.setPlace_recorded r none)
    case issued => cases r <;> rfl
    case others => exact run.setPlace_others r none
    case running | now => rfl
    case busy | guarded => simp [clocks, busy, guarded, AgentClocks.run]
    all_goals
      funext v
      simp [clocks, ts, AgentClocks.run]
  refine ⟨taken ▸ sound.timely.run rests place, fun _ => ?_⟩
  simp [act, idle, place, executing]

lemma Sound.issue (sound : run.Sound) (fetching : run.running = .thread t .fetch)
    (inSlice : inst.yieldsBefore = true → ¬run.Expired t) : (run.act via (.issue inst)).Sound := by
  have executing : run.clocks.running = some t := by simp [clocks, fetching, Running.executing]
  have issued : (run.act via (.issue inst)).clocks = run.clocks.issue t (inst.yieldsBefore = true) := by
    simp only [act, fetching]
    ext1
    case running => simp [clocks, fetching, Running.executing, AgentClocks.issue]
    case now => simp [clocks, now, fetching, AgentClocks.issue]
    case busy => simp [clocks, Running.busy, Phase.busy, AgentClocks.issue]
    all_goals rfl
  refine ⟨issued ▸ sound.timely.issue executing fun yields => ?_, fun _ => ?_⟩
  · -- the first entry of the queue is not before the thread, so none is
    have slice := inSlice yields
    refine ⟨fun u w place => ?_, fun r w place => ?_, fun now isNow => ?_⟩
    · exact Nat.le_of_not_lt fun prior => slice ⟨w, .inl ⟨u, place⟩, prior⟩
    · exact Nat.le_of_not_lt fun prior => slice ⟨w, .inr ⟨r, place⟩, prior⟩
    · exact (Option.some.inj ((sound.timely.current t executing).symm.trans isNow)).le
  · simpa [act, fetching, Running.executing] using sound.current (by simp [fetching])

lemma Sound.yield (sound : run.Sound) {phase : Phase} (running : run.running = .thread t phase) :
    (run.stop (run.sys.schedule t)).Sound := by
  have executing : run.clocks.running = some t := by simp [clocks, running, Running.executing]
  have yielded : (run.stop (run.sys.schedule t)).clocks = run.clocks.yield t := by
    let change (th : Thread) : Thread :=
      { th with waiting := false, pausedOn := none, wakeUpTime := some th.time }
    refine (clocks_updateThread run t change run.sys.currentRunnable .idle (fun _ => rfl) fun _ => rfl).trans ?_
    simp [change, AgentClocks.yield, AgentClocks.rest, clocks, now, Running.executing, Running.busy, Running.guarded]
  exact ⟨yielded ▸ sound.timely.yield executing, fun notIdle => absurd rfl notIdle⟩

lemma Sound.pause (sound : run.Sound) {res : Option ResourceRef}
    (running : run.running = .thread t (.descheduled inst res))
    (safe : inst.yieldsBefore = false → run.sys.Exposed t → ¬run.Expired t) (cost : Nat) :
    (run.stop (run.sys.pauseThread t cost res)).Sound := by
  have executing : run.clocks.running = some t := by simp [clocks, running, Running.executing]
  have busy : run.clocks.busy := by simp [clocks, running, Running.busy, Phase.busy]
  have paused : (run.stop (run.sys.pauseThread t cost res)).clocks =
      run.clocks.pause t ((run.sys.threads t).time + cost) := by
    let change (th : Thread) : Thread :=
      { th with time := th.time + cost, pausedOn := res.or th.pausedOn, waiting := true }
    refine (clocks_updateThread run t change run.sys.currentRunnable .idle (fun _ => rfl) fun _ => rfl).trans ?_
    simp [change, AgentClocks.pause, AgentClocks.rest, clocks, now, Running.executing, Running.busy, Running.guarded]
  refine ⟨paused ▸ sound.timely.pause executing busy (fun seen => ?_) (Nat.le_add_right _ _),
    fun notIdle => absurd rfl notIdle⟩
  cases yields : inst.yieldsBefore with
  | true =>
    exact sound.timely.guarded (by simpa [clocks, running, Running.guarded, Phase.guarded] using yields) t executing
  | false =>
    -- nothing in the queue is before the thread, whose instruction is not later than its clock
    have slice := safe yields seen
    have issued := sound.timely.busy busy t executing
    refine ⟨fun u w place => ?_, fun r w place => ?_, fun now isNow => ?_⟩
    · exact issued.trans (Nat.le_of_not_lt fun prior => slice ⟨w, .inl ⟨u, place⟩, prior⟩)
    · exact issued.trans (Nat.le_of_not_lt fun prior => slice ⟨w, .inr ⟨r, place⟩, prior⟩)
    · exact issued.trans (Option.some.inj ((sound.timely.current t executing).symm.trans isNow)).le

/-- The pending event is taken at its own time or at the thread's, whichever is later. -/
lemma takePendingEvent_effects (executing : sys.currentRunnable = some t) :
    ∃ due, (sys.threads t).time ≤ due ∧ ClockEffects due sys (sys.takePendingEvent t) := by
  unfold takePendingEvent
  split
  · refine ⟨_, le_rfl, (SameClocks.refl sys).effects fun u runs => ?_⟩
    obtain rfl : t = u := Option.some.inj (executing.symm.trans runs)
    exact le_rfl
  · rename_i event pending
    refine ⟨max (sys.threads t).time event.time, le_max_left _ _, ?_⟩
    have moved : ClockEffects (max (sys.threads t).time event.time) sys (sys.updateThread t fun th =>
        { th with time := max th.time event.time, waiting := false }) :=
      tick_effects executing (le_max_left _ _) le_rfl rfl fun _ _ => le_rfl
    refine (moved.same (.completeEvent t event.res event.interrupt)).same ?_
    exact .of_threads rfl rfl (fun _ _ _ => id) fun _ _ => .inl

/-- A thread is taken into use, with the clock of the thread that asked for it. -/
structure Allocation (sys post : System) (u time : Nat) : Prop where
  clock : ∀ v, (post.threads v).time = if v = u then time else (sys.threads v).time
  waiting : ∀ v, (post.threads v).waiting = (sys.threads v).waiting
  place : ∀ v, (post.threads v).wakeUpTime = (sys.threads v).wakeUpTime
  exposed : ∀ v, post.Exposed v → sys.Exposed v
  timers : post.timers = sys.timers
  currentRunnable : post.currentRunnable = sys.currentRunnable

lemma allocation_allocThread (sys : System) (u time : Nat) : Allocation sys (sys.allocThread u time) u time := by
  refine ⟨fun v => ?clock, fun v => ?wait, fun v => ?place, fun v seen => ?seen, rfl, rfl⟩
  case clock | wait | place => by_cases same : v = u <;> simp [allocThread, updateThread, same]
  · by_cases same : v = u <;>
      exact seen.mono (by simp [allocThread, updateThread, same])
        (by simp [allocThread, updateThread, same]) fun _ => id

lemma Allocation.addChild {post : System} (alloc : Allocation sys post u time) (s : Nat) :
    Allocation sys (post.addChild s u) u time := by
  refine ⟨fun v => ?_, fun v => ?_, fun v => ?_, fun v seen => alloc.exposed v ?_, alloc.timers,
    alloc.currentRunnable⟩
  · rw [← alloc.clock v]
    by_cases same : v = u <;> simp [System.addChild, System.updateSync, System.updateThread, same]
  · rw [← alloc.waiting v]
    by_cases same : v = u <;> simp [System.addChild, System.updateSync, System.updateThread, same]
  · rw [← alloc.place v]
    by_cases same : v = u <;> simp [System.addChild, System.updateSync, System.updateThread, same]
  · by_cases same : v = u <;>
      exact seen.mono (by simp [System.addChild, System.updateSync, System.updateThread, same])
        (by simp [System.addChild, System.updateSync, System.updateThread, same]) fun _ => id

lemma operate_allocation {op : Operation} (allocated : allocates sys op = some u) :
    Allocation sys (sys.operate via t op).1 u (sys.threads t).time := by
  cases op with
  | allocThread =>
    have free : sys.unusedThread = some u := allocated
    simp only [operate, allocUnused, free]
    exact allocation_allocThread sys u _
  | getst s =>
    obtain ⟨inUse, free⟩ : (sys.syncs s).inUse = true ∧ sys.unusedThread = some u := by
      simpa [allocates] using allocated
    simp only [operate, allocUnused, free, inUse, if_true]
    exact (allocation_allocThread sys u _).addChild s
  | _ => simp [allocates] at allocated

lemma Sound.allocate (sound : run.Sound) (running : run.running.executing = some t)
    (alloc : Allocation run.sys post.sys u (run.sys.threads t).time)
    (unqueued : ∀ w, (run.sys.threads u).wakeUpTime = some w → w ≤ (run.sys.threads t).time)
    (goes : run.running.Continues post.running) (ports : post.ports = run.ports)
    (peripherals : post.peripherals = run.peripherals)
    (issued : post.issued = fun v => if v = u then 0 else run.issued v) : post.Sound := by
  have isNow := now_of_executing running
  have time (v : Nat) : post.clocks.clock v = if v = u then (run.sys.threads t).time else run.clocks.clock v :=
    alloc.clock v
  have place {v w : Nat} (put : post.clocks.place v = some w) :
      run.clocks.place v = some w ∧ w ≤ post.clocks.clock v := by
    have put : run.clocks.place v = some w := (alloc.place v).symm.trans put
    refine ⟨put, ?_⟩
    rw [time]
    split
    · rename_i same
      exact unqueued w (same ▸ put)
    · exact sound.timely.places v w put
  have prior (v : Nat) : post.clocks.issued v ≤ run.clocks.issued v := by
    simp only [clocks, issued]
    split
    · exact Nat.zero_le _
    · exact le_rfl
  have work : AgentClocks.Work (run.sys.threads t).time run.clocks post.clocks := by
    constructor
    · exact goes.executing
    · exact goes.busy
    · exact goes.guarded
    · intro n isBefore m isAfter
      refine now_le_of_continues goes (fun v runs => ?_) isBefore isAfter
      obtain rfl : t = v := Option.some.inj (running.symm.trans runs)
      rw [alloc.clock]
      split <;> exact le_rfl
    · intro o w put
      cases o with
      | timer n => exact .inl (by simpa [clocks, others, alloc.timers] using put)
      | port p => exact .inl ((congrFun ports p).symm.trans put)
      | peripheral num => exact .inl ((congrFun peripherals num).symm.trans put)
    · intro v rests
      constructor
      · exact fun w put => ⟨.inr (place put).1, (place put).2⟩
      · intro wait
        have slept : run.clocks.waiting v = true := (alloc.waiting v).symm.trans wait
        refine ⟨slept, prior v, ?_⟩
        rw [time]
        simp only [clocks, issued]
        split
        · exact Nat.zero_le _
        · exact sound.timely.own v rests slept
      · intro wait woken
        have same : post.clocks.waiting v = run.clocks.waiting v := alloc.waiting v
        simp [same, wait] at woken
      · exact alloc.exposed v
    · intro v runs
      obtain rfl : t = v := Option.some.inj (running.symm.trans runs)
      constructor
      · rw [time]
        split <;> exact le_rfl
      · exact now_of_executing (goes.executing.trans runs)
      · exact prior t
      · exact fun w put => ⟨.inr (place put).1, (place put).2⟩
  refine ⟨sound.timely.work work isNow le_rfl, fun running => ?_⟩
  rw [alloc.currentRunnable, goes.executing]
  exact sound.current_of_now isNow

end

end ClockRun

end Axe
