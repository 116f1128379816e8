import Axe.Library.Runs
import Axe.Port.Update
import Axe.System.Synchroniser

/-! The one pending event of the system. A resource that raises an event for the thread
that is executing leaves it pending, and only some instructions look for it when they end. -/

namespace Axe

inductive ResourceInstruction where
  | setc_ru6
  | setc_l2r
  | out_2r
  | outct_2r
  | outct_rus
  | outt_2r
  | eet_2r
  | eef_2r
  | eeu_1r
  | waitet_1r
  | waitef_1r
  | waiteu_0r
  | setsr_u6
  | clrsr_u6
  | kret_0r
  | in_2r
  | inshr_2r
  | outshr_2r
  | inpw_l2rus
  | outpw_l2rus
  | int_2r
  | inct_2r
  | chkct_2r
  | testct_2r
  | testwct_2r
  | peek_2r
  | endin_2r
  | setpsc_2r
  | getd_l2r
  | setd_2r
  | setclk_l2r
  | settw_l2r
  | setrdy_l2r
  | getts_2r
  | setpt_2r
  | clrpt_1r
  | syncr_1r
  | setv_1r
  | setev_1r
  | edu_1r
  | clre_0r
  | freer_1r
  | other
  deriving DecidableEq, Repr

namespace ResourceInstruction

def canEvent : ResourceInstruction → Bool
  | .setc_ru6 | .setc_l2r | .out_2r | .outct_2r | .outct_rus | .outt_2r | .eet_2r | .eef_2r | .eeu_1r
  | .waitet_1r | .waitef_1r | .waiteu_0r => true
  | _ => false

/-- The instructions that write the status register, and take an event that this lets in. -/
def writesSR : ResourceInstruction → Bool
  | .setsr_u6 | .clrsr_u6 | .kret_0r => true
  | _ => false

def takesEvents (inst : ResourceInstruction) : Bool := inst.canEvent || inst.writesSR

end ResourceInstruction

inductive Ending where
  /-- With the next instruction, or with a yield. -/
  | normal (yields : Bool)
  | pauseOn (res : ResourceRef)
  | deschedule
  /-- In the kernel, with a yield if the time slice has expired. -/
  | exception (expired : Bool)
  deriving DecidableEq, Repr

structure Execution where
  sys : System
  /-- The thread whose `run` is active. -/
  executing : Option Nat
  /-- The instruction it is in. -/
  inst : Option ResourceInstruction
  /-- The instruction has raised an event for its own thread. -/
  raised : Bool

/-- What an instruction does besides raising events and changing owners. -/
structure PlainWork where
  run : System → System
  owners : ∀ sys res, ((run sys).eventable res).owner = (sys.eventable res).owner

inductive ExecutionStep where
  /-- The loop takes a thread from the queue. -/
  | dispatch (t : Nat)
  /-- The loop runs a timer, a port or the like, which raises events. -/
  | runOther (evs : List (ResourceRef × Nat))
  /-- The time slice has expired before an instruction. -/
  | yieldBefore
  | begin (inst : ResourceInstruction)
  | work (work : PlainWork)
  /-- The executing thread becomes the owner of a resource that it uses. -/
  | updateOwner (res : ResourceRef)
  /-- A resource is freed. -/
  | clearOwner (res : ResourceRef)
  | raise (res : ResourceRef) (time : Nat)
  | finish (ending : Ending)

namespace System

def raiseEvent (sys : System) (res : ResourceRef) (time : Nat) : System :=
  if sys.eventsPermitted (sys.eventable res) then sys.event res time else sys

/-- The set-up of a resource's events; locks and synchronisers have none. -/
def configure (sys : System) (evs : Eventable) : ResourceRef → System
  | .port p => sys.updatePort p fun port => { port with events := evs }
  | .timer n => sys.updateTimer n fun timer => { timer with events := evs }
  | .chanend c => sys.updateChanend c fun chanend => { chanend with events := evs }
  | .sync _ => sys
  | .lock _ => sys

lemma configure_eventable (sys : System) (evs : Eventable) (res other : ResourceRef) :
    (sys.configure evs res).eventable other = sys.eventable other ∨
      other = res ∧ (sys.configure evs res).eventable other = evs := by
  cases res with
  | port p =>
    cases other with
    | port q => by_cases here : q = p <;> simp [configure, eventable, updatePort, here]
    | chanend | timer | sync | lock => exact .inl rfl
  | chanend c =>
    cases other with
    | chanend d => by_cases here : d = c <;> simp [configure, eventable, updateChanend, here]
    | port | timer | sync | lock => exact .inl rfl
  | timer n =>
    cases other with
    | timer k => by_cases here : k = n <;> simp [configure, eventable, updateTimer, here]
    | port | chanend | sync | lock => exact .inl rfl
  | sync | lock => exact .inl rfl

lemma configure_events (sys : System) (evs : Eventable) (res : ResourceRef) :
    (sys.configure evs res).currentRunnable = sys.currentRunnable ∧
      (sys.configure evs res).pendingEvent = sys.pendingEvent := by
  cases res <;> exact ⟨rfl, rfl⟩

variable {sys : System} {res : ResourceRef}

lemma event_other (other : ∀ t, sys.currentRunnable = some t → (sys.eventable res).owner ≠ some t) (time : Nat) :
    SameEvents sys (sys.event res time) := by
  simp only [event]
  split
  case h_1 => exact ⟨rfl, rfl, rfl⟩
  case h_2 owner owned =>
    have idle : sys.currentRunnable ≠ some owner := fun same => other owner same owned
    rw [if_neg idle]
    exact (SameEvents.updateThread sys owner _).trans (SameEvents.takeEvent _ _ _ _)

lemma event_own {t : Nat} (cur : sys.currentRunnable = some t) (owned : (sys.eventable res).owner = some t)
    (time : Nat) : (sys.event res time).eventable = sys.eventable ∧ (sys.event res time).currentRunnable = some t ∧
      ((sys.event res time).pendingEvent = sys.pendingEvent ∧ sys.pendingEvent.isSome ∨
        (sys.event res time).pendingEvent = some ⟨res, (sys.eventable res).interruptMode, time⟩) := by
  have result : sys.event res time = sys.setPendingEvent res time (sys.eventable res).interruptMode := by
    simp [event, owned, cur]
  rw [result]
  have same (pend : Option PendingEvent) : { sys with pendingEvent := pend }.eventable = sys.eventable := by
    funext res
    cases res <;> rfl
  simp only [setPendingEvent]
  split
  case h_1 event pend =>
    split
    · exact ⟨rfl, cur, .inl ⟨rfl, by simp [pend]⟩⟩
    · exact ⟨same _, cur, .inr rfl⟩
  case h_2 => exact ⟨same _, cur, .inr rfl⟩

end System

namespace Execution

def yield (exec : Execution) (t : Nat) : Execution :=
  { exec with sys := exec.sys.schedule t, executing := none, inst := none }

def takeEvent (exec : Execution) (t : Nat) : Execution :=
  { exec with sys := (exec.sys.takePendingEvent t).schedule t, executing := none, inst := none }

/-- `emitCheckEvents`, and the check after a write to the status register. -/
def looksForEvents (exec : Execution) (inst : ResourceInstruction) : Bool :=
  inst.canEvent || inst.writesSR && exec.raised

def finish (exec : Execution) (t : Nat) (inst : ResourceInstruction) : Ending → Execution
  | .exception expired =>
    if expired then { exec with sys := exec.sys.raise t }.yield t
    else { exec with sys := exec.sys.raise t, inst := none }
  | .normal yields =>
    if exec.looksForEvents inst && exec.sys.pendingEvent.isSome then exec.takeEvent t
    else if yields then exec.yield t
    else { exec with inst := none }
  | .pauseOn res =>
    if exec.looksForEvents inst && exec.sys.pendingEvent.isSome then exec.takeEvent t
    else
      { exec with
        sys := exec.sys.updateThread t fun thread => { thread with pausedOn := some res, waiting := true }
        executing := none, inst := none }
  | .deschedule =>
    if exec.looksForEvents inst && exec.sys.pendingEvent.isSome then exec.takeEvent t
    else
      { exec with
        sys := exec.sys.updateThread t fun thread => { thread with waiting := true }
        executing := none, inst := none }

def step (exec : Execution) (lbl : ExecutionStep) : Execution :=
  match lbl, exec.executing, exec.inst with
  | .dispatch t, none, none =>
    let sys := exec.sys.updateThread t fun thread => { thread with wakeUpTime := none }
    { exec with sys := { sys with currentRunnable := some t }, executing := some t }
  | .runOther evs, none, none =>
    let sys := { exec.sys with currentRunnable := none }
    { exec with sys := evs.foldl (fun sys event => sys.raiseEvent event.1 event.2) sys }
  | .yieldBefore, some t, none => exec.yield t
  | .begin inst, some _, none => { exec with inst := some inst, raised := false }
  | .work work, some _, some _ =>
    { exec with
      sys :=
        { work.run exec.sys with
          currentRunnable := exec.sys.currentRunnable, pendingEvent := exec.sys.pendingEvent } }
  | .updateOwner res, some t, some _ =>
    { exec with sys := exec.sys.configure { exec.sys.eventable res with owner := some t } res }
  | .clearOwner res, some _, some _ =>
    { exec with sys := exec.sys.configure { exec.sys.eventable res with owner := none } res }
  | .raise res time, some t, some _ =>
    let own := exec.sys.eventsPermitted (exec.sys.eventable res) && decide ((exec.sys.eventable res).owner = some t)
    { exec with sys := exec.sys.raiseEvent res time, raised := exec.raised || own }
  | .finish ending, some t, some inst => exec.finish t inst ending
  | _, _, _ => exec

/-- The pending event belongs to the thread that is executing, and there is none when that
thread has stopped. -/
structure PendingRight (exec : Execution) : Prop where
  owned : ∀ event, exec.sys.pendingEvent = some event →
    ∃ t, exec.executing = some t ∧ (exec.sys.eventable event.res).owner = some t
  cleared : exec.executing = none → exec.sys.pendingEvent = none

/-- The operations that free a resource do that first, when it has raised no event yet. -/
def Admissible (exec : Execution) : ExecutionStep → Prop
  | .clearOwner res => ∀ event, exec.sys.pendingEvent = some event → event.res ≠ res
  | _ => True

/-- Only instructions that look for events when they end raise events for their own
thread, and those that did so do not end in an exception. -/
def Checked (exec : Execution) : ExecutionStep → Prop
  | .raise res _ =>
    exec.sys.eventsPermitted (exec.sys.eventable res) = true → (exec.sys.eventable res).owner = exec.executing →
      ∃ inst, exec.inst = some inst ∧ inst.takesEvents = true
  | .finish (.exception _) => exec.raised = false
  | _ => True

structure Inv (exec : Execution) : Prop where
  current : ∀ t, exec.executing = some t → exec.sys.currentRunnable = some t
  idle : exec.executing = none → exec.inst = none
  pending : ∀ event, exec.sys.pendingEvent = some event → exec.raised = true ∧
    (∃ t, exec.executing = some t ∧ (exec.sys.eventable event.res).owner = some t) ∧
    ∃ inst, exec.inst = some inst ∧ inst.takesEvents = true

variable {exec : Execution}

lemma Inv.nothing_pending (inv : exec.Inv) (between : exec.inst = none) : exec.sys.pendingEvent = none := by
  cases pend : exec.sys.pendingEvent with
  | none => rfl
  | some event =>
    obtain ⟨-, -, inst, begun, -⟩ := inv.pending event pend
    simp [between] at begun

lemma Inv.right (inv : exec.Inv) : exec.PendingRight :=
  ⟨fun event pend => (inv.pending event pend).2.1, fun stopped => inv.nothing_pending (inv.idle stopped)⟩

lemma inv_of_nothing {post : Execution} (cur : ∀ t, post.executing = some t →
      post.sys.currentRunnable = some t) (idle : post.executing = none → post.inst = none)
    (nil : post.sys.pendingEvent = none) : post.Inv :=
  ⟨cur, idle, fun event pend => by simp [nil] at pend⟩

variable {inst : ResourceInstruction} {sys : System}

lemma Inv.finish (inv : exec.Inv) {t : Nat} (begun : exec.inst = some inst) {ending : Ending}
    (checked : exec.Checked (.finish ending)) : (exec.finish t inst ending).Inv := by
  -- What is pending was raised by this instruction, so it looks for events.
  have looks : exec.sys.pendingEvent ≠ none → exec.looksForEvents inst = true := by
    intro some
    obtain ⟨event, pend⟩ := Option.ne_none_iff_exists'.mp some
    obtain ⟨trap, -, held, same, takes⟩ := inv.pending event pend
    obtain rfl : inst = held := by simpa [begun] using same
    simpa [looksForEvents, trap, ResourceInstruction.takesEvents] using takes
  have taken : (exec.takeEvent t).Inv :=
    inv_of_nothing nofun (fun _ => rfl) (exec.sys.takePendingEvent_pendingEvent t)
  have nil : ¬(exec.looksForEvents inst && exec.sys.pendingEvent.isSome) = true →
      exec.sys.pendingEvent = none := by
    intro passed
    by_contra some
    exact passed (Bool.and_eq_true_iff.mpr ⟨looks some, Option.isSome_iff_ne_none.mpr some⟩)
  have unraised {expired : Bool} (quiet : exec.Checked (.finish (.exception expired))) :
      exec.sys.pendingEvent = none := by
    by_contra some
    obtain ⟨event, pend⟩ := Option.ne_none_iff_exists'.mp some
    exact nomatch (inv.pending event pend).1.symm.trans quiet
  fun_cases Execution.finish exec t inst ending
  case case1 => exact inv_of_nothing nofun (fun _ => rfl) (unraised checked)
  case case2 => exact inv_of_nothing inv.current (fun _ => rfl) (unraised checked)
  case case3 | case6 | case8 => exact taken
  case case5 _ passed _ => exact inv_of_nothing inv.current (fun _ => rfl) (nil passed)
  case case4 passed | case7 passed | case9 passed => exact inv_of_nothing nofun (fun _ => rfl) (nil passed)

lemma raiseAll_idle (idle : sys.currentRunnable = none) (evs : List (ResourceRef × Nat)) :
    System.SameEvents sys (evs.foldl (fun sys event => sys.raiseEvent event.1 event.2) sys) := by
  induction evs generalizing sys with
  | nil => exact ⟨rfl, rfl, rfl⟩
  | cons event evs ih =>
    have first : System.SameEvents sys (sys.raiseEvent event.1 event.2) := by
      simp only [System.raiseEvent]
      split
      · exact System.event_other (fun t cur => by simp [idle] at cur) event.2
      · exact ⟨rfl, rfl, rfl⟩
    exact first.trans (ih (first.currentRunnable.trans idle))

lemma Inv.raise {t : Nat} {trap : Bool} (inv : Inv ⟨sys, some t, some inst, trap⟩) {res : ResourceRef}
    {time : Nat} (checked : Checked ⟨sys, some t, some inst, trap⟩ (.raise res time)) :
    (step ⟨sys, some t, some inst, trap⟩ (.raise res time)).Inv := by
  have cur : sys.currentRunnable = some t := inv.current t rfl
  simp only [step, System.raiseEvent]
  cases legal : sys.eventsPermitted (sys.eventable res) with
  | false => simpa using inv
  | true =>
    by_cases owned : (sys.eventable res).owner = some t
    · obtain ⟨eventable, still, pend⟩ := System.event_own cur owned time
      refine ⟨fun u run => ?_, nofun, fun event found => ⟨?_, ⟨t, rfl, ?_⟩, checked legal owned⟩⟩
      · cases run
        simpa using still
      · simp [owned]
      · simp only [if_true] at found ⊢
        rw [eventable]
        rcases pend with ⟨kept, -⟩ | fresh
        · rw [kept] at found
          obtain ⟨u, run, owner⟩ := (inv.pending event found).2.1
          cases run
          exact owner
        · rw [fresh] at found
          cases found
          exact owned
    · have other : ∀ u, sys.currentRunnable = some u → (sys.eventable res).owner ≠ some u := by
        intro u runs
        rw [cur] at runs
        cases runs
        exact owned
      have frame := System.event_other other time
      refine ⟨fun u run => ?_, nofun, fun event found => ?_⟩
      · simp only [if_true]
        rw [frame.currentRunnable]
        exact inv.current u run
      · simp only [if_true] at found ⊢
        rw [frame.pendingEvent] at found
        rw [frame.eventable]
        obtain ⟨pre, owner, begun⟩ := inv.pending event found
        have flag : trap = true := pre
        exact ⟨by simp [flag], owner, begun⟩

/-- Work that raises nothing and leaves the owner of what is pending. -/
lemma Inv.work (inv : exec.Inv) (current : sys.currentRunnable = exec.sys.currentRunnable)
    (pending : sys.pendingEvent = exec.sys.pendingEvent)
    (kept : ∀ event, exec.sys.pendingEvent = some event → ∀ t, exec.executing = some t →
      (exec.sys.eventable event.res).owner = some t → (sys.eventable event.res).owner = some t) :
    Inv { exec with sys := sys } := by
  refine ⟨fun t running => current.trans (inv.current t running), inv.idle, fun event found => ?_⟩
  rw [pending] at found
  obtain ⟨trap, ⟨t, running, owner⟩, takes⟩ := inv.pending event found
  exact ⟨trap, ⟨t, running, kept event found t running owner⟩, takes⟩

lemma Inv.step (inv : exec.Inv) {lbl : ExecutionStep} (legal : exec.Admissible lbl)
    (checked : exec.Checked lbl) : (exec.step lbl).Inv := by
  fun_cases Execution.step exec lbl
  case case1 t begun _ _ =>
    refine inv_of_nothing (fun u runs => ?_) nofun (inv.nothing_pending begun)
    cases runs
    rfl
  case case2 evs begun run _ =>
    refine inv_of_nothing (fun _ runs => nomatch run.symm.trans runs) (fun _ => begun) ?_
    rw [(raiseAll_idle rfl evs).pendingEvent]
    exact inv.nothing_pending begun
  case case3 t begun _ => exact inv_of_nothing nofun (fun _ => rfl) (inv.nothing_pending begun)
  case case4 inst t begun run =>
    exact inv_of_nothing inv.current (fun stopped => nomatch run.symm.trans stopped) (inv.nothing_pending begun)
  case case5 work t inst begun run =>
    refine inv.work rfl rfl fun event _ u _ owner => ?_
    have same : ({ work.run exec.sys with
        currentRunnable := exec.sys.currentRunnable, pendingEvent := exec.sys.pendingEvent } :
          System).eventable event.res = (work.run exec.sys).eventable event.res := by
      cases event.res <;> rfl
    rw [same, work.owners]
    exact owner
  case case6 res t inst begun run =>
    obtain ⟨current, pending⟩ := exec.sys.configure_events { exec.sys.eventable res with owner := some t } res
    refine inv.work current pending fun event _ u running owner => ?_
    rcases exec.sys.configure_eventable { exec.sys.eventable res with owner := some t } res event.res with
      same | ⟨-, set⟩
    · rw [same]
      exact owner
    · rw [set]
      exact run.symm.trans running
  case case7 res t inst begun run =>
    obtain ⟨current, pending⟩ := exec.sys.configure_events { exec.sys.eventable res with owner := none } res
    refine inv.work current pending fun event found u _ owner => ?_
    rcases exec.sys.configure_eventable { exec.sys.eventable res with owner := none } res event.res with
      same | ⟨freed, -⟩
    · rw [same]
      exact owner
    · exact absurd freed (legal event found)
  case case8 res time t inst begun run _ =>
    obtain ⟨sys, exe, cur, trap⟩ := exec
    cases run
    cases begun
    exact inv.raise checked
  case case9 ending t inst begun _ => exact inv.finish begun checked
  case case10 => exact inv

def start (sys : System) : Execution := { sys := sys, executing := none, inst := none, raised := false }

/-- In a run in which only instructions that look for events raise events for their own
thread, a pending event belongs to the executing thread and does not outlast it. -/
theorem pendingEvent_right {sys : System} (nothing : sys.pendingEvent = none) {labels : List ExecutionStep}
    (tidy : Runs.Meets step (fun exec lbl => exec.Admissible lbl ∧ exec.Checked lbl) (start sys) labels) :
    (labels.foldl step (start sys)).PendingRight := by
  have preserved : ∀ (exec : Execution) (lbl : ExecutionStep), exec.Inv →
      exec.Admissible lbl ∧ exec.Checked lbl → (exec.step lbl).Inv :=
    fun _ _ inv met => inv.step met.1 met.2
  have init : (start sys).Inv := inv_of_nothing nofun (fun _ => rfl) nothing
  exact (tidy.invariant preserved init).right

/-- Two threads that take events; the first owns a port with events enabled. -/
def eventfulSystem : System :=
  { System.initial with
    threads := fun _ => { inUse := true, eeble := true }
    ports := fun _ => { events := { owner := some 0, vector := 64, eventsEnabled := true } } }

def sampledPort : Port :=
  { inUse := true, events := (eventfulSystem.eventable (.port 0)), width := 1, shiftRegEntries := 1
    transferWidth := 1, portShiftCount := 1, nextEdge := ⟨10, .rising, 10⟩ }

def sampledEnv : PortEnv :=
  { clock := { halfPeriod := 10 }, running := true, readyInValue := {}, eventsPermitted := true }

def raisedBy (p : Nat) (calls : List PortCall) : List ExecutionStep :=
  calls.filterMap fun
    | .event time => some (.raise (.port p) time)
    | _ => none

def enabledPort : List ExecutionStep := [.dispatch 0, .begin .eeu_1r, .raise (.port 0) 10, .finish (.normal false)]

theorem enabledPort_right : (enabledPort.foldl step (start eventfulSystem)).PendingRight := by
  refine pendingEvent_right rfl ⟨⟨trivial, trivial⟩, ⟨trivial, trivial⟩, ⟨trivial, fun _ _ => ?_⟩,
    ⟨trivial, trivial⟩, trivial⟩
  exact ⟨.eeu_1r, rfl, rfl⟩

/-- The owner inputs from its port at the time of the edge and yields. -/
def inputAtEdge : List ExecutionStep :=
  [.dispatch 0, .begin .in_2r] ++ raisedBy 0 (sampledPort.update sampledEnv 10).calls ++
    [.finish (.normal false), .yieldBefore]

def inputThenEnable : List ExecutionStep := inputAtEdge ++ [.dispatch 1, .begin .eeu_1r]

/-- The event is still pending when its thread has stopped, and while the other one executes. -/
theorem inputAtEdge_leaves_event : ¬(inputAtEdge.foldl step (start eventfulSystem)).PendingRight ∧
      ¬(inputThenEnable.foldl step (start eventfulSystem)).PendingRight := by
  refine ⟨fun right => ?_, fun right => ?_⟩
  · have cleared := right.cleared rfl
    exact absurd cleared (by decide)
  · obtain ⟨t, executing, owner⟩ := right.owned ⟨.port 0, false, 10⟩ rfl
    have one : t = 1 := (Option.some.inj executing).symm
    have zero : t = 0 := (Option.some.inj owner).symm
    omega

end Execution

end Axe
