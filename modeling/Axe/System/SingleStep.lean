import Axe.Core.CodeRuns
import Axe.System.FreedThreads

/-! `Thread::singleStep` beside the run loop. Both execute the generated code of one
instruction. The run loop has taken the thread from the queue and made it the current
runnable before, and calls what the cell of the pc points to; a single step has done
neither, and decodes the instruction from memory. -/

namespace Axe

open Function

namespace System

/-- The system with another entry for the thread in the queue and another current runnable. -/
def reframe (sys : System) (t : Nat) (queued cur : Option Nat) : System :=
  { sys.updateThread t fun th => { th with wakeUpTime := queued } with currentRunnable := cur }

section

variable (sys : System) (t : Nat) (queued cur : Option Nat)

lemma reframe_threads (u : Nat) : (sys.reframe t queued cur).threads u =
    if u = t then { sys.threads t with wakeUpTime := queued } else sys.threads u := by
  by_cases here : u = t
  · subst here
    simp [reframe, updateThread]
  · simp [reframe, updateThread, here]

@[simp] lemma reframe_reframe (queued' cur' : Option Nat) :
    (sys.reframe t queued cur).reframe t queued' cur' = sys.reframe t queued' cur' := by
  simp [reframe, updateThread]

variable {u : Nat} {res : ResourceRef}

lemma updateThread_reframe_of_ne (other : u ≠ t) (upd : Thread → Thread) :
    (sys.reframe t queued cur).updateThread u upd = (sys.updateThread u upd).reframe t queued cur := by
  simp only [reframe, updateThread, update_of_ne other, update_of_ne (Ne.symm other),
    update_comm other]

lemma updateThread_reframe_self {upd : Thread → Thread}
    (blind : ∀ th : Thread, upd { th with wakeUpTime := queued } =
      { upd th with wakeUpTime := queued }) :
    (sys.reframe t queued cur).updateThread t upd = (sys.updateThread t upd).reframe t queued cur := by
  simp only [reframe, updateThread, update_self, update_idem, blind]

@[simp] lemma reframe_eventable (res : ResourceRef) :
    (sys.reframe t queued cur).eventable res = sys.eventable res := by
  cases res <;> rfl

@[simp] lemma reframe_eventsPermitted (evs : Eventable) :
    (sys.reframe t queued cur).eventsPermitted evs = sys.eventsPermitted evs := by
  simp only [eventsPermitted]
  split
  · rfl
  · rename_i owner _
    by_cases here : owner = t <;> simp [reframe_threads, here]

lemma cancel_reframe (res : ResourceRef) :
    (sys.reframe t queued cur).cancel res = (sys.cancel res).reframe t queued cur := by
  cases res <;> rfl

lemma completeEvent_reframe (other : u ≠ t) (owned : (sys.eventable res).owner = some u) (intr : Bool) :
    (sys.reframe t queued cur).completeEvent u res intr =
      (sys.completeEvent u res intr).reframe t queued cur := by
  have updated (mid : System) (upd : Thread → Thread) :
      (mid.updateThread u upd).eventable res = mid.eventable res := by cases res <;> rfl
  simp only [completeEvent, updated, reframe_eventable, owned]
  rw [updateThread_reframe_of_ne _ _ _ _ other, updateThread_reframe_of_ne _ _ _ _ other]

lemma takeEvent_reframe (other : u ≠ t) (owned : (sys.eventable res).owner = some u) (intr : Bool) :
    (sys.reframe t queued cur).takeEvent u res intr =
      (sys.takeEvent u res intr).reframe t queued cur := by
  have th : (sys.reframe t queued cur).threads u = sys.threads u := by simp [reframe_threads, other]
  simp only [takeEvent, th]
  split
  · split
    · rw [cancel_reframe, schedule, updateThread_reframe_of_ne _ _ _ _ other]
      refine completeEvent_reframe _ _ _ _ other ?_ _
      rw [(SameEvents.updateThread _ _ _).eventable, (SameEvents.cancel _ _).eventable, owned]
    · rw [schedule, updateThread_reframe_of_ne _ _ _ _ other]
      refine completeEvent_reframe _ _ _ _ other ?_ _
      rw [(SameEvents.updateThread _ _ _).eventable, owned]
  · exact completeEvent_reframe _ _ _ _ other owned _

lemma setPendingEvent_reframe (res : ResourceRef) (time : Nat) (intr : Bool) :
    (sys.reframe t queued cur).setPendingEvent res time intr =
      (sys.setPendingEvent res time intr).reframe t queued cur := by
  have framed : (sys.reframe t queued cur).pendingEvent = sys.pendingEvent := rfl
  simp only [setPendingEvent, framed]
  split
  · split <;> rfl
  · rfl

/-- An event is raised in the same way if its owner is taken to be executing in both systems
or in neither. -/
lemma raiseEvent_reframe
    (told : sys.eventsPermitted (sys.eventable res) = true → ∀ u, (sys.eventable res).owner = some u →
      (sys.currentRunnable = some u ↔ u = t) ∧ (cur = some u ↔ u = t)) (time : Nat) :
    (sys.reframe t queued cur).raiseEvent res time = (sys.raiseEvent res time).reframe t queued cur := by
  simp only [raiseEvent, reframe_eventsPermitted, reframe_eventable]
  split
  case isFalse => rfl
  case isTrue legal =>
    simp only [event, reframe_eventable]
    cases owned : (sys.eventable res).owner with
    | none => rfl
    | some u =>
      obtain ⟨exec, exec'⟩ := told legal u owned
      have framed : (sys.reframe t queued cur).currentRunnable = cur := rfl
      simp only [framed, exec, exec']
      split
      case isTrue => exact setPendingEvent_reframe _ _ _ _ _ _ _
      case isFalse other =>
        rw [updateThread_reframe_of_ne _ _ _ _ other]
        refine takeEvent_reframe _ _ _ _ other ?_ _
        rw [(SameEvents.updateThread _ _ _).eventable, owned]

lemma takePendingEvent_inUse (u : Nat) : ((sys.takePendingEvent t).threads u).inUse = (sys.threads u).inUse :=
  congrFun (congrArg Membership.inUse (sys.takePendingEvent_frame t).2.1) u

end

end System


/-- What instructions see of the code of a core: all but the cells of the decode caches and
the tables of the JIT. -/
def CodeState.visible (st : CodeState) :=
  (st.board, st.breakpoints, st.threads, st.core.ramSizeLog2, st.core.ramBaseMultiple, st.core.memory)

lemma CodeState.visible_setEntry (st : CodeState) (inRam : Bool) (pc : Nat) (tracing : Bool) (entry : Entry) :
    (st.setEntry inRam pc tracing entry).visible = st.visible := by
  cases inRam <;> rfl

structure Machine (World : Type) where
  sys : System
  code : CodeState
  /-- Registers and whatever else instructions work on. -/
  world : World

/-- The machine of the run loop beside that of a single step: the thread is executing and not
in the queue, and cells may have been decoded. -/
structure Machine.Framed {World : Type} (t : Nat) (m n : Machine World) : Prop where
  sys : n.sys = m.sys.reframe t none (some t)
  code : n.code.visible = m.code.visible
  world : n.world = m.world

/-- What an instruction does to threads, resources, memory and the rest of the world. Its code
looks neither at the thread's place in the queue nor at who is executing nor at cells. -/
structure Work (World : Type) (t : Nat) where
  run : Machine World → Machine World
  blind : ∀ m n, m.Framed t n → (run m).Framed t (run n)

/-- Work on registers only. -/
def Work.ofWorld {World : Type} (t : Nat) (change : World → World) : Work World t where
  run m := { m with world := change m.world }
  blind _ _ fr := ⟨fr.sys, fr.code, congrArg change fr.world⟩

/-- Work on a channel end with what registers hold, such as a token put into its buffer. -/
def Work.ofChanend {World : Type} (t c : Nat) (change : World → Chanend → Chanend) : Work World t where
  run m := { m with sys := { m.sys with chanends := update m.sys.chanends c (change m.world (m.sys.chanends c)) } }
  blind m n fr := ⟨by rw [fr.sys, fr.world]; rfl, fr.code, fr.world⟩

inductive Action (World : Type) (t : Nat) where
  | work (work : Work World t)
  /-- A resource raises an event. -/
  | raise (res : ResourceRef) (time : Nat)

inductive BodyEnd (World : Type) (t : Nat) where
  | normal (nextPc : Nat)
  /-- The status register is written back: what `setSR` does, and whether it finds an event. -/
  | setSR (nextPc : Nat) (status : List (Action World t)) (found : Bool)
  /-- `%yield`. -/
  | yield (nextPc : Nat)
  /-- A jump to another decode cache. -/
  | forceYield (nextPc : Nat)
  | pauseOn (res : ResourceRef)
  | deschedule
  | exception

namespace BodyEnd

variable {World : Type} {t : Nat}

def stops : BodyEnd World t → Bool
  | .pauseOn _ | .deschedule => true
  | _ => false

def found : BodyEnd World t → Bool
  | .setSR _ _ found => found
  | _ => false

end BodyEnd

structure Code (World : Type) (t : Nat) where
  yieldBefore : Bool
  canEvent : Bool
  cycles : Nat
  actions : List (Action World t)
  bodyEnd : BodyEnd World t

/-- `InstReturn`, as far as the loops tell its values apart. -/
inductive InstReturn where
  | goOn
  | endThreadExecution
  deriving DecidableEq, Repr

/-- What the execution of thread `t` depends on beside the state. -/
structure Simulator (World : Type) (t : Nat) where
  threads : List Nat
  /-- The wake-up times of what else is in the queue. -/
  due : World → List Nat
  pendingPc : World → Nat
  /-- What the decoder's output variables hold before, in `interpretOne` and in `DECODE`. -/
  outputs : Decoded
  unset : Decoded
  /-- The generated function of an opcode, for its operands and a pc. -/
  function : Opcode → List Nat → Nat → Code World t

namespace Machine

open Axe.System

variable {World : Type} {t : Nat}

def act (m : Machine World) : Action World t → Machine World
  | .work work => work.run m
  | .raise res time => { m with sys := m.sys.raiseEvent res time }

def mapSys (m : Machine World) (change : System → System) : Machine World :=
  { m with sys := change m.sys }

def addTime (m : Machine World) (t cycles : Nat) : Machine World :=
  m.mapSys (·.updateThread t fun th => { th with time := th.time + cycles })

def setPc (m : Machine World) (t pc : Nat) : Machine World :=
  m.mapSys (·.updateThread t fun th => { th with pc := pc })

def schedule (m : Machine World) (t : Nat) : Machine World := m.mapSys (·.schedule t)

def deschedule (m : Machine World) (t : Nat) : Machine World :=
  m.mapSys (·.updateThread t fun th => { th with wakeUpTime := none })

/-- An event that `setSR` found is taken as one that is pending where the code looks for it. -/
def checkEvents (code : Code World t) (m : Machine World) (rest : Machine World × InstReturn) :
    Machine World × InstReturn :=
  if code.bodyEnd.found || code.canEvent && m.sys.pendingEvent.isSome then
    ((m.mapSys (·.takePendingEvent t)).schedule t, .endThreadExecution)
  else rest

def writeBack (code : Code World t) (nextPc : Nat) (m : Machine World) (retval : InstReturn) :
    Machine World × InstReturn :=
  let m := (m.addTime t code.cycles).setPc t nextPc
  checkEvents code m (m, retval)

def body (code : Code World t) (m : Machine World) : Machine World := code.actions.foldl act m

section

variable (sim : Simulator World t)

def hasTimeSliceExpired (m : Machine World) : Bool :=
  let time := (m.sys.threads t).time
  sim.threads.any (fun u => (m.sys.threads u).wakeUpTime.any (· < time)) ||
    (sim.due m.world).any (· < time)

def finishBody (code : Code World t) (m : Machine World) : Machine World × InstReturn :=
  match code.bodyEnd with
  | .normal nextPc => writeBack code nextPc m .goOn
  | .setSR nextPc status _ =>
    let m := status.foldl act ((m.addTime t code.cycles).setPc t nextPc)
    checkEvents code m (m, .goOn)
  | .yield nextPc =>
    if m.hasTimeSliceExpired sim then writeBack code nextPc (m.schedule t) .endThreadExecution
    else writeBack code nextPc m .goOn
  | .forceYield nextPc => writeBack code nextPc (m.schedule t) .endThreadExecution
  | .pauseOn res =>
    let m := m.addTime t code.cycles
    checkEvents code m
      (m.mapSys (·.updateThread t fun th => { th with pausedOn := some res, waiting := true }),
        .endThreadExecution)
  | .deschedule =>
    let m := m.addTime t code.cycles
    checkEvents code m
      (m.mapSys (·.updateThread t fun th => { th with waiting := true }), .endThreadExecution)
  | .exception =>
    let m := (m.mapSys (·.raise t)).addTime t code.cycles
    if m.hasTimeSliceExpired sim then (m.schedule t, .endThreadExecution) else (m, .goOn)

def execute (code : Code World t) (m : Machine World) : Machine World × InstReturn :=
  if code.yieldBefore && m.hasTimeSliceExpired sim then (m.schedule t, .endThreadExecution)
  else finishBody sim code (m.body code)

def call (entry : Entry) (m : Machine World) : Code World t :=
  sim.function entry.opcode entry.decoded.used (m.sys.threads t).pc

/-- What decoding gives at the thread's pc, breakpoints ignored. -/
def decoded (m : Machine World) : Entry := m.code.interpreted t (m.sys.threads t).pc sim.outputs

/-- The address of the thread's pc. -/
def address (m : Machine World) (t : Nat) : Nat := m.code.fromPc (m.code.threads t).inRam (m.sys.threads t).pc

/-- The assertion of `instructionDecode`. -/
def isDecodable (m : Machine World) (t : Nat) : Bool :=
  m.address t % 2 == 0 && m.code.core.isValidAddress m.code.board (m.address t)

/-- `Thread::interpretOne`. The operands it decodes into those of the cell are put back
afterwards. A failed assertion has no result. -/
def interpretOne (m : Machine World) : Option (Machine World × InstReturn) :=
  if m.isDecodable t then some (execute sim (m.call sim (m.decoded sim)) m) else none

/-- A thread at `RUN_JIT` or `INTERPRET_ONE` goes on at its pending pc. -/
def resume (m : Machine World) : Machine World :=
  let pc := (m.sys.threads t).pc
  if pc = m.code.core.getRamSize / 2 + 2 ∨ pc = m.code.core.getRamSize / 2 + 1 then
    m.setPc t (sim.pendingPc m.world)
  else m

def singleStep (m : Machine World) : Option (Machine World) :=
  (interpretOne sim (m.resume sim)).map fun (m, retval) =>
    match retval with
    | .endThreadExecution => m.deschedule t
    | .goOn => (m.deschedule t).schedule t

/-- `SystemState::run` takes the thread from the queue, and `Thread::run` starts it. -/
def dispatch (m : Machine World) (t : Nat) : Machine World :=
  m.mapSys fun sys => (sys.reframe t none (some t)).updateThread t fun th =>
    { th with time := if th.time = 0 then 1 else th.time }

/-- The loop of `Thread::run`, to the end of the first instruction. Compiled code is more than
one instruction, and a breakpoint ends the run; neither has a result here, nor have `RUN_JIT`
and `ILLEGAL_PC_THREAD`. -/
def callCell (m : Machine World) : Option (Machine World × InstReturn) :=
  let th := m.code.threads t
  let pc := (m.sys.threads t).pc
  let size := m.code.cacheSize th.inRam
  if pc < size then
    match m.code.cell th.inRam pc with
    | .decode tracing =>
      if m.isDecodable t ∧ m.address t ∉ m.code.breakpoints then
        let entry := Entry.make (m.code.encoding th.inRam pc) size pc th.dualIssue sim.unset
        let m := { m with code := m.code.setEntry th.inRam pc tracing entry }
        some (execute sim (m.call sim entry) m)
      else none
    | .instruction _ entry =>
      if entry.opcode = .breakpoint then none else some (execute sim (m.call sim entry) m)
    | .function _ => none
  else if pc = size then some (execute sim (sim.function .illegal_pc [] pc) m)
  else if pc = size + 2 then interpretOne sim (m.setPc t (sim.pendingPc m.world))
  else none

def runOne (m : Machine World) : Option (Machine World) := (callCell sim (m.dispatch t)).map Prod.fst

def Runnable (m : Machine World) (t : Nat) : Prop :=
  (m.sys.threads t).waiting = false ∧ (m.sys.threads t).pausedOn = none ∧
    (m.sys.threads t).inUse = true

/-- A single step does what the run loop does, and puts the thread in the queue exactly if
it can go on. -/
def StepRight (m : Machine World) : Prop :=
  ∃ stepped ran, singleStep sim m = some stepped ∧ runOne sim m = some ran ∧
    (stepped.sys.reframe t none none = ran.sys.reframe t none none ∧
      stepped.code.visible = ran.code.visible ∧ stepped.world = ran.world) ∧
    ((stepped.sys.threads t).wakeUpTime.isSome = true ↔ stepped.Runnable t)

/-- The machine when the instruction is done but for its end. -/
def finished (code : Code World t) (m : Machine World) : Machine World :=
  match code.bodyEnd with
  | .setSR nextPc status _ => status.foldl act (((m.body code).addTime t code.cycles).setPc t nextPc)
  | _ => m.body code

def TakesEvent (code : Code World t) (m : Machine World) : Prop :=
  code.bodyEnd ≠ .exception ∧
    (code.bodyEnd.found || code.canEvent && (m.finished code).sys.pendingEvent.isSome) = true

def Yields (code : Code World t) (m : Machine World) : Prop :=
  (code.yieldBefore && m.hasTimeSliceExpired sim) = true ∨
    match code.bodyEnd with
    | .yield _ => (m.body code).hasTimeSliceExpired sim = true
    | .forceYield _ => True
    | .exception => (((m.body code).mapSys (·.raise t)).addTime t code.cycles).hasTimeSliceExpired sim = true
    | _ => False

/-- The run loop executes what decoding gives: the cell of the pc is filled in or holds it, or
the thread is past a breakpoint. -/
def Fetches (m : Machine World) : Prop :=
  let th := m.code.threads t
  let pc := (m.sys.threads t).pc
  let size := m.code.cacheSize th.inRam
  if pc = m.code.core.getRamSize / 2 + 2 then pc = size + 2
  else pc ≠ m.code.core.getRamSize / 2 + 1 ∧ pc < size ∧
    match m.code.cell th.inRam pc with
    | .decode _ => m.address t ∉ m.code.breakpoints ∧ (m.code.encoding th.inRam pc).isSome = true
    | .instruction _ entry => entry.opcode ≠ .breakpoint ∧ entry.opcode = (m.decoded sim).opcode ∧
        entry.decoded.used = (m.decoded sim).decoded.used
    | .function _ => False

end

/-- The execution of the body is told apart rightly from that of other threads: the current
runnable is the owner of a resource that raises an event exactly if that is the thread itself. -/
def Told (m : Machine World) : Action World t → Prop
  | .work _ => True
  | .raise res _ => m.sys.eventsPermitted (m.sys.eventable res) = true →
    ∀ u, (m.sys.eventable res).owner = some u → (m.sys.currentRunnable = some u ↔ u = t)

/-- The thread is running when the step starts, the instruction does not free it and go on,
and the events it raises find out whether their thread is the one that executes. -/
structure Undisturbed (code : Code World t) (m : Machine World) : Prop where
  ready : m.Runnable t
  time : (m.sys.threads t).time ≠ 0
  told : Runs.Meets act Told m code.actions
  toldStatus : ∀ nextPc status found, code.bodyEnd = .setSR nextPc status found →
    Runs.Meets act Told (((m.body code).addTime t code.cycles).setPc t nextPc) status
  running : ((m.finished code).sys.threads t).waiting = false ∧
    ((m.finished code).sys.threads t).pausedOn = none
  used : code.bodyEnd.stops = false ∨ TakesEvent code m → ((m.finished code).sys.threads t).inUse = true

end Machine

/-- A step that goes on leaves the thread runnable, and one that ends the execution leaves it waiting. -/
def InstReturn.Leaves {World : Type} (t : Nat) (post : Machine World) : InstReturn → Prop
  | .goOn => post.Runnable t
  | .endThreadExecution => (post.sys.threads t).waiting = true

namespace Machine

open Axe.System

variable {World : Type} {t : Nat} {m n : Machine World}

namespace Framed

variable (fr : m.Framed t n)
include fr

lemma act {a : Action World t} (told : m.Told a) : (m.act a).Framed t (n.act a) := by
  cases a with
  | work work => exact work.blind m n fr
  | raise res time =>
    refine ⟨?_, fr.code, fr.world⟩
    simp only [Machine.act, fr.sys]
    refine raiseEvent_reframe _ _ _ _ (fun legal u owned => ?_) time
    exact ⟨told legal u owned, by simp [eq_comm]⟩

lemma update {upd : Thread → Thread}
    (blind : ∀ th : Thread, upd { th with wakeUpTime := none } = { upd th with wakeUpTime := none }) :
    (m.mapSys (·.updateThread t upd)).Framed t (n.mapSys (·.updateThread t upd)) :=
  ⟨by simp only [mapSys, fr.sys, updateThread_reframe_self _ _ _ _ blind], fr.code, fr.world⟩

lemma wroteBack (cycles pc : Nat) :
    ((m.addTime t cycles).setPc t pc).Framed t ((n.addTime t cycles).setPc t pc) := by
  have timed : (m.addTime t cycles).Framed t (n.addTime t cycles) := fr.update fun _ => rfl
  exact timed.update fun _ => rfl

lemma pending : n.sys.pendingEvent = m.sys.pendingEvent := by
  rw [fr.sys]
  rfl

lemma expired {sim : Simulator World t} (expired : n.hasTimeSliceExpired sim = true) :
    m.hasTimeSliceExpired sim = true := by
  have time : (n.sys.threads t).time = (m.sys.threads t).time := by
    simp [fr.sys, reframe_threads]
  simp only [hasTimeSliceExpired, time, fr.world, Bool.or_eq_true, List.any_eq_true] at expired ⊢
  rcases expired with ⟨u, mem, prior⟩ | other
  · refine .inl ⟨u, mem, ?_⟩
    by_cases here : u = t
    · simp [fr.sys, reframe_threads, here] at prior
    · simpa [fr.sys, reframe_threads, here] using prior
  · exact .inr other

end Framed

lemma Framed.foldl {acts : List (Action World t)} (fr : m.Framed t n) (told : Runs.Meets Machine.act Told m acts) :
    (acts.foldl Machine.act m).Framed t (acts.foldl Machine.act n) := by
  induction acts generalizing m n with
  | nil => exact fr
  | cons a acts ih => exact ih (fr.act told.1) told.2

section

variable {code : Code World t} {rest : Machine World × InstReturn}

lemma checkEvents_nothing
    (nothing : ¬(code.bodyEnd.found || code.canEvent && m.sys.pendingEvent.isSome) = true) :
    checkEvents code m rest = rest :=
  if_neg nothing

lemma checkEvents_takes
    (takes : (code.bodyEnd.found || code.canEvent && m.sys.pendingEvent.isSome) = true)
    (inUse : (m.sys.threads t).inUse = true) :
    ∃ post, checkEvents code m rest = (post, .endThreadExecution) ∧ post.Runnable t := by
  refine ⟨(m.mapSys (·.takePendingEvent t)).schedule t, if_pos takes, ?_⟩
  simpa [Runnable, schedule, mapSys, System.schedule, System.updateThread, System.takePendingEvent_inUse] using inUse

lemma Runnable.wroteBack (runnable : m.Runnable t) (cycles pc : Nat) :
    ((m.addTime t cycles).setPc t pc).Runnable t := by
  simpa [Runnable, addTime, setPc, mapSys, updateThread] using runnable

lemma Runnable.raise_addTime (runnable : m.Runnable t) (cycles : Nat) :
    ((m.mapSys (·.raise t)).addTime t cycles).Runnable t := by
  simpa [Runnable, addTime, mapSys, raise, updateThread] using runnable

lemma Runnable.schedule (runnable : m.Runnable t) : (m.schedule t).Runnable t := by
  simpa [Runnable, Machine.schedule, mapSys, System.schedule, System.updateThread] using runnable.2.2

variable {sim : Simulator World t}

lemma execute_of_not_before (pre : (code.yieldBefore && m.hasTimeSliceExpired sim) ≠ true) :
    execute sim code m = finishBody sim code (m.body code) := by
  rw [execute, if_neg pre]

section

variable (calm : m.Undisturbed code)
include calm

lemma Undisturbed.runnable (goesOn : code.bodyEnd.stops = false) : (m.finished code).Runnable t :=
  ⟨calm.running.1, calm.running.2, calm.used (.inl goesOn)⟩

lemma Undisturbed.yields_end (yields : Yields sim code m) (nothing : ¬TakesEvent code m) :
    ∃ post, execute sim code m = (post, .endThreadExecution) ∧ post.Runnable t := by
  by_cases pre : (code.yieldBefore && m.hasTimeSliceExpired sim) = true
  · exact ⟨m.schedule t, by rw [execute, if_pos pre], calm.ready.schedule⟩
  · have yields := yields.resolve_left pre
    have runnable := calm.runnable
    rw [execute_of_not_before pre, finishBody]
    obtain ⟨_, _, cycles, actions, bodyEnd⟩ := code
    cases bodyEnd with
    | normal _ | setSR _ _ _ | pauseOn _ | deschedule => exact yields.elim
    | yield next =>
      have quiet := fun takes => nothing ⟨by simp, takes⟩
      simp only [if_pos yields]
      exact ⟨_, checkEvents_nothing quiet, (runnable rfl).schedule.wroteBack cycles next⟩
    | forceYield next =>
      have quiet := fun takes => nothing ⟨by simp, takes⟩
      exact ⟨_, checkEvents_nothing quiet, (runnable rfl).schedule.wroteBack cycles next⟩
    | exception =>
      simp only [if_pos yields]
      exact ⟨_, rfl, ((runnable rfl).raise_addTime _).schedule⟩

lemma Undisturbed.takesEvent_end (takes : TakesEvent code m)
    (pre : (code.yieldBefore && m.hasTimeSliceExpired sim) ≠ true) :
    ∃ post, execute sim code m = (post, .endThreadExecution) ∧ post.Runnable t := by
  have inUse := calm.used (.inr takes)
  obtain ⟨plain, pend⟩ := takes
  rw [execute_of_not_before pre, finishBody]
  obtain ⟨_, _, cycles, actions, bodyEnd⟩ := code
  cases bodyEnd with
  | exception => exact absurd rfl plain
  | setSR next status found => exact checkEvents_takes pend inUse
  | yield next =>
    simp only [finished] at inUse
    simp only
    split
    all_goals
      refine checkEvents_takes pend ?_
      simpa [addTime, setPc, schedule, mapSys, System.schedule, System.updateThread] using inUse
  | _ =>
    simp only [finished] at inUse
    refine checkEvents_takes pend ?_
    simpa [addTime, setPc, schedule, mapSys, System.schedule, System.updateThread] using inUse

/-- Where the instruction neither yields nor takes an event, the machine of the run loop stays
beside that of the step, and the thread goes on or stops. -/
lemma Undisturbed.execute_framed (fr : m.Framed t n) (stays : ¬Yields sim code m)
    (nothing : ¬TakesEvent code m) : ∃ post post' retval, execute sim code m = (post, retval) ∧
      execute sim code n = (post', retval) ∧ post.Framed t post' ∧ retval.Leaves t post := by
  have pre := fun yields => stays (.inl yields)
  have stays := fun yields => stays (.inr yields)
  have pre' : (code.yieldBefore && n.hasTimeSliceExpired sim) ≠ true := by
    intro yields
    obtain ⟨isBefore, expired⟩ := Bool.and_eq_true_iff.mp yields
    exact pre (Bool.and_eq_true_iff.mpr ⟨isBefore, fr.expired expired⟩)
  have bodies : (m.body code).Framed t (n.body code) := fr.foldl calm.told
  have timed : ((m.body code).addTime t code.cycles).Framed t ((n.body code).addTime t code.cycles) :=
    bodies.update fun _ => rfl
  have runnable := calm.runnable
  rw [execute_of_not_before pre, execute_of_not_before pre', finishBody, finishBody]
  obtain ⟨_, _, cycles, actions, bodyEnd⟩ := code
  cases bodyEnd with
  | normal next =>
    have quiet := fun takes => nothing ⟨by simp, takes⟩
    exact ⟨_, _, .goOn, checkEvents_nothing quiet, checkEvents_nothing (bodies.pending ▸ quiet),
      bodies.wroteBack cycles next, (runnable rfl).wroteBack _ _⟩
  | setSR next status found =>
    have quiet := fun takes => nothing ⟨by simp, takes⟩
    have written := (bodies.wroteBack cycles next).foldl (calm.toldStatus next status found rfl)
    exact ⟨_, _, .goOn, checkEvents_nothing quiet, checkEvents_nothing (written.pending ▸ quiet), written,
      runnable rfl⟩
  | yield next =>
    have quiet := fun takes => nothing ⟨by simp, takes⟩
    simp only [if_neg stays, if_neg fun expired => stays (bodies.expired expired)]
    exact ⟨_, _, .goOn, checkEvents_nothing quiet, checkEvents_nothing (bodies.pending ▸ quiet),
      bodies.wroteBack cycles next, (runnable rfl).wroteBack _ _⟩
  | forceYield next => exact (stays trivial).elim
  | pauseOn res =>
    have quiet := fun takes => nothing ⟨by simp, takes⟩
    exact ⟨_, _, .endThreadExecution, checkEvents_nothing quiet, checkEvents_nothing (timed.pending ▸ quiet),
      timed.update fun _ => rfl, by simp [InstReturn.Leaves, mapSys, updateThread]⟩
  | deschedule =>
    have quiet := fun takes => nothing ⟨by simp, takes⟩
    exact ⟨_, _, .endThreadExecution, checkEvents_nothing quiet, checkEvents_nothing (timed.pending ▸ quiet),
      timed.update fun _ => rfl, by simp [InstReturn.Leaves, mapSys, updateThread]⟩
  | exception =>
    have raised : ((m.body _).mapSys (·.raise t)).Framed t ((n.body _).mapSys (·.raise t)) :=
      bodies.update fun _ => rfl
    have timed : (((m.body _).mapSys (·.raise t)).addTime t cycles).Framed t
        (((n.body _).mapSys (·.raise t)).addTime t cycles) := raised.update fun _ => rfl
    simp only [if_neg stays, if_neg fun expired => stays (timed.expired expired)]
    exact ⟨_, _, .goOn, rfl, rfl, timed, (runnable rfl).raise_addTime _⟩

end

lemma dispatch_eq (time : (m.sys.threads t).time ≠ 0) :
    m.dispatch t = m.mapSys (·.reframe t none (some t)) := by
  have time : ((m.sys.reframe t none (some t)).threads t).time ≠ 0 := by
    simpa [reframe_threads] using time
  simp only [dispatch, mapSys, System.updateThread, if_neg time]
  rw [update_eq_self]

lemma interpretOne_of_same (code : n.code = m.code) (pc : (n.sys.threads t).pc = (m.sys.threads t).pc)
    (valid : m.isDecodable t = true) :
    n.interpretOne sim = some (execute sim (m.call sim (m.decoded sim)) n) := by
  simp only [interpretOne, isDecodable, address, call, decoded, code, pc] at valid ⊢
  rw [if_pos valid]

/-- The run loop comes to the instruction that the single step decodes. -/
lemma Fetches.callCell (fetches : Fetches sim m) (time : (m.sys.threads t).time ≠ 0)
    (valid : (m.resume sim).isDecodable t = true) :
    ∃ n, (m.resume sim).Framed t n ∧ callCell sim (m.dispatch t) =
      some (execute sim ((m.resume sim).call sim ((m.resume sim).decoded sim)) n) := by
  have fr : m.Framed t (m.dispatch t) := by
    rw [dispatch_eq time]
    exact ⟨rfl, rfl, rfl⟩
  have pc : ((m.dispatch t).sys.threads t).pc = (m.sys.threads t).pc := by simp [fr.sys, reframe_threads]
  have code : (m.dispatch t).code = m.code := rfl
  simp only [Fetches] at fetches
  split_ifs at fetches with past
  · have resumed : m.resume sim = m.setPc t (sim.pendingPc m.world) := if_pos (.inl past)
    rw [resumed] at valid ⊢
    refine ⟨(m.dispatch t).setPc t (sim.pendingPc m.world), fr.update fun _ => rfl, ?_⟩
    simp only [Machine.callCell, pc, code, fetches]
    rw [if_neg (by omega), if_neg (by omega), if_pos trivial]
    exact interpretOne_of_same rfl (by simp [setPc, mapSys, updateThread, fr.world]) valid
  · obtain ⟨notJit, inside, holds⟩ := fetches
    have resumed : m.resume sim = m := if_neg (not_or.mpr ⟨past, notJit⟩)
    have address : (m.dispatch t).address t = m.address t := by simp only [address, pc, code]
    rw [resumed] at valid ⊢
    simp only [Machine.callCell, pc, code, if_pos inside]
    cases cell : m.code.cell (m.code.threads t).inRam (m.sys.threads t).pc with
    | decode tracing =>
      simp only [cell] at holds
      let entry := Entry.make (m.code.encoding (m.code.threads t).inRam (m.sys.threads t).pc)
        (m.code.cacheSize (m.code.threads t).inRam) (m.sys.threads t).pc (m.code.threads t).dualIssue sim.unset
      have made : entry.opcode = (m.decoded sim).opcode ∧ entry.decoded.used = (m.decoded sim).decoded.used :=
        (Entry.make_of holds.2 _ _ _ _).now (.inl rfl) sim.outputs
      refine ⟨{ m.dispatch t with code := m.code.setEntry (m.code.threads t).inRam (m.sys.threads t).pc tracing entry },
        ⟨fr.sys, CodeState.visible_setEntry _ _ _ _ _, fr.world⟩, ?_⟩
      simp only [address]
      rw [if_pos ⟨by simpa only [isDecodable, address, code] using valid, holds.1⟩]
      simp only [call, pc]
      rw [made.1, made.2]
    | instruction tracing entry =>
      simp only [cell] at holds
      refine ⟨m.dispatch t, fr, ?_⟩
      simp only [if_neg holds.1]
      simp only [call, holds.2, pc]
    | function => simp [cell] at holds

lemma stepRight_of_framed {post post' : Machine World} {retval : InstReturn}
    (stepped : interpretOne sim (m.resume sim) = some (post, retval))
    (ran : callCell sim (m.dispatch t) = some (post', retval)) (fr : post.Framed t post')
    (goes : retval.Leaves t post) : StepRight sim m := by
  cases retval with
  | goOn =>
    obtain ⟨wait, pausedOn, inUse⟩ := goes
    refine ⟨(post.deschedule t).schedule t, post', by simp [singleStep, stepped], by simp [runOne, ran],
      ⟨?_, fr.code.symm, fr.world.symm⟩, ?_⟩
    · simp only [fr.sys, System.reframe_reframe]
      simp only [schedule, deschedule, mapSys, System.reframe, System.schedule, System.updateThread, update_self,
        update_idem, ← wait, ← pausedOn]
    · simp [Runnable, schedule, deschedule, mapSys, System.schedule, System.updateThread, inUse]
  | endThreadExecution =>
    refine ⟨post.deschedule t, post', by simp [singleStep, stepped], by simp [runOne, ran],
      ⟨?_, fr.code.symm, fr.world.symm⟩, ?_⟩
    · simp [fr.sys, deschedule, mapSys, System.reframe, System.updateThread]
    · have wait : (post.sys.threads t).waiting = true := goes
      simp [Runnable, deschedule, mapSys, updateThread, wait]

/-- A thread whose step ends the execution although it can go on is in no queue. -/
lemma not_stepRight_of_end {post : Machine World}
    (stepped : interpretOne sim (m.resume sim) = some (post, .endThreadExecution)) (runnable : post.Runnable t) :
    ¬StepRight sim m := by
  rintro ⟨_, _, one, -, -, queued⟩
  obtain rfl : post.deschedule t = _ := by simpa [singleStep, stepped] using one
  have isQueued := queued.mpr (by simpa [Runnable, deschedule, mapSys, updateThread] using runnable)
  simp [deschedule, mapSys, updateThread] at isQueued

/-- The code of the instruction that the single step decodes. -/
def instruction (sim : Simulator World t) (m : Machine World) : Code World t :=
  (m.resume sim).call sim ((m.resume sim).decoded sim)

end

/-- RAM begins with `outct res[r0], r0`, and `bu -2` comes six bytes on. -/
def steppedCode : CodeState :=
  { CodeState.freshCode with core := { CodeState.freshCode.core with
      memory := fun i => [0xc0, 0x4e, 0, 0, 0, 0, 0x02, 0x77].getD i 0 } }

/-- Thread 0 is at time 20 and in the queue; so is thread 1, which takes events of a channel end. -/
def twoThreads (pc wakeUpTime : Nat) : Machine (BitVec 32) where
  sys := { initial with
    threads := fun u =>
      if u = 0 then { inUse := true, pc := pc, time := 20, wakeUpTime := some 20 }
      else if u = 1 then { inUse := true, eeble := true, time := wakeUpTime, wakeUpTime := some wakeUpTime }
      else {}
    chanends := fun c => if c = 1 then { events := { owner := some 1, eventsEnabled := true } } else {} }
  code := steppedCode
  world := 1

/-- The token goes to the channel end of thread 1, and that thread is told. -/
def outct (pc : Nat) : Code (BitVec 32) 0 where
  yieldBefore := true
  canEvent := true
  cycles := 4
  actions := [.work (.ofChanend 0 1 fun word chanend =>
    { chanend with buf := chanend.buf ++ [⟨word.setWidth 8, true⟩] }), .raise (.chanend 1) 20]
  bodyEnd := .normal (pc + 1)

/-- The operand has become the target. -/
def brbu (target : Nat) : Code (BitVec 32) 0 where
  yieldBefore := false
  canEvent := false
  cycles := 4
  actions := []
  bodyEnd := .yield target

def twoThreadsSimulator : Simulator (BitVec 32) 0 where
  threads := [0, 1]
  due _ := []
  pendingPc _ := 0
  outputs := CodeState.unset
  unset := CodeState.unset
  function opc operands pc := if opc = .brbu_u6 then brbu (operands.headD 0) else outct pc

end Machine

end Axe
