import Axe.Library.Runs
import Axe.Thread.Kernel

/-! What the instructions of a thread read, over every history of writes to its
registers. A write either goes to the register file in use or to the buffer that
replaces it before the next pair of instructions. -/

namespace Axe

open Axe.ThreadContext

inductive RegisterAction where
  | writeRegister (idx : Register) (val : BitVec 32)
  | setReg (idx : Register) (val : BitVec 32)
  | setDualIssue (di : Bool)
  deriving DecidableEq, Repr

namespace ThreadContext

def act (ctx : ThreadContext) : RegisterAction → ThreadContext
  | .writeRegister idx val => ctx.writeRegister idx val
  | .setReg idx val => ctx.setReg idx val
  | .setDualIssue di => ctx.setDualIssue di

/-- The write does not go to a register file that the buffer is about to replace. -/
def Kept (ctx : ThreadContext) : RegisterAction → Prop
  | .writeRegister _ _ => ctx.dualIssue = true ∨ ctx.bufferInitialized = false
  | .setReg _ _ => ctx.bufferInitialized = false
  | .setDualIssue _ => True

instance (ctx : ThreadContext) : (action : RegisterAction) → Decidable (ctx.Kept action)
  | .writeRegister _ _ => inferInstanceAs (Decidable (_ ∨ _))
  | .setReg _ _ => inferInstanceAs (Decidable (_ = _))
  | .setDualIssue _ => isTrue trivial

/-- The files hold these values as the latest written: the buffer does while it is
pending, and without dual issue the file in use always does. -/
structure Holds (ctx : ThreadContext) (latest : RegisterFile) : Prop where
  current : ctx.readRegisterForTrace = latest
  single : ctx.dualIssue = false → ctx.regs = latest

end ThreadContext

def RegisterAction.record (latest : RegisterFile) : RegisterAction → RegisterFile
  | .writeRegister idx val => Function.update latest idx val
  | .setReg idx val => Function.update latest idx val
  | .setDualIssue _ => latest

namespace ThreadContext

variable {ctx : ThreadContext} {latest : RegisterFile}

lemma Holds.pending (holds : Holds ctx latest) (flag : ctx.bufferInitialized = true) :
    ctx.regsBuffer = latest := by
  rw [← holds.current]
  funext r
  simp [readRegisterForTrace, flag]

lemma Holds.clear (holds : Holds ctx latest) (flag : ctx.bufferInitialized = false) : ctx.regs = latest := by
  rw [← holds.current]
  funext r
  simp [readRegisterForTrace, flag]

lemma holds_of_clear (flag : ctx.bufferInitialized = false) (regs : ctx.regs = latest) :
    Holds ctx latest := by
  refine ⟨?_, fun _ => regs⟩
  funext r
  simp [readRegisterForTrace, flag, regs]

section

variable (holds : Holds ctx latest)
include holds

lemma Holds.setReg (flag : ctx.bufferInitialized = false) (idx : Register) (val : BitVec 32) :
    Holds (ctx.setReg idx val) (Function.update latest idx val) := by
  refine holds_of_clear flag ?_
  rw [← holds.clear flag]
  rfl

lemma Holds.writeRegister
    (kept : ctx.dualIssue = true ∨ ctx.bufferInitialized = false) (idx : Register) (val : BitVec 32) :
    Holds (ctx.writeRegister idx val) (Function.update latest idx val) := by
  cases dual : ctx.dualIssue with
  | false =>
    have flag : ctx.bufferInitialized = false := by simpa [dual] using kept
    have direct : ctx.writeRegister idx val = ctx.setReg idx val := by
      simp [ThreadContext.writeRegister, ThreadContext.setReg, dual]
    rw [direct]
    exact holds.setReg flag idx val
  | true =>
    have buf : (if ctx.bufferInitialized then ctx.regsBuffer else ctx.regs) = latest := by
      cases flag : ctx.bufferInitialized with
      | false => simpa using holds.clear flag
      | true => simpa using holds.pending flag
    have wr : ctx.writeRegister idx val =
        { ctx with regsBuffer := Function.update latest idx val, bufferInitialized := true } := by
      simp [ThreadContext.writeRegister, dual, buf]
    rw [wr]
    refine ⟨rfl, fun one => ?_⟩
    simp [dual] at one

lemma Holds.doPendingRegWrites : Holds ctx.doPendingRegWrites latest := by
  cases flag : ctx.bufferInitialized with
  | false => simpa [ThreadContext.doPendingRegWrites, flag] using holds
  | true =>
    simp only [ThreadContext.doPendingRegWrites, flag, if_true]
    exact holds_of_clear rfl (holds.pending flag)

lemma Holds.setDualIssue (di : Bool) : Holds (ctx.setDualIssue di) latest := by
  unfold ThreadContext.setDualIssue
  split
  case isTrue leaving =>
    simp only [Bool.and_eq_true] at leaving
    exact holds_of_clear rfl (holds.pending leaving.2)
  case isFalse staying =>
    refine ⟨holds.current, fun one => ?_⟩
    -- a thread that leaves dual issue here has no pending writes
    cases flag : ctx.bufferInitialized with
    | false => exact holds.clear flag
    | true =>
      have pre : ctx.dualIssue = false := by
        have : di = false := one
        simpa [flag, this] using staying
      exact holds.single pre

lemma Holds.act {a : RegisterAction} (kept : ctx.Kept a) :
    Holds (ctx.act a) (a.record latest) := by
  cases a with
  | writeRegister idx val => exact holds.writeRegister kept idx val
  | setReg idx val => exact holds.setReg kept idx val
  | setDualIssue di => exact holds.setDualIssue di

lemma Holds.acts {acts : List RegisterAction} (kept : Runs.Meets ThreadContext.act Kept ctx acts) :
    Holds (acts.foldl ThreadContext.act ctx) (acts.foldl RegisterAction.record latest) := by
  induction acts generalizing ctx latest with
  | nil => exact holds
  | cons a acts ih => exact ih (holds.act kept.1) kept.2

lemma Holds.regWritePending (size : InstructionSize) : Holds (ctx.regWritePending size) latest := by
  unfold ThreadContext.regWritePending
  split
  · exact holds.doPendingRegWrites
  · exact holds

end

end ThreadContext

/-- The part of an instruction that works on the thread's own registers before the
results are written back: most have none, `TSETR` and its like may name their own
thread, and the stack instructions set the issue mode. -/
inductive InstructionBody where
  | plain
  | writeRegister (idx : Register) (val : BitVec 32)
  | setDualIssue (di : Bool)
  deriving DecidableEq, Repr

def InstructionBody.actions : InstructionBody → List RegisterAction
  | .plain => []
  | .writeRegister idx val => [.writeRegister idx val]
  | .setDualIssue di => [.setDualIssue di]

def writeBack (size : InstructionSize) (res : Register × BitVec 32) : RegisterAction :=
  match size with
  | .short => .writeRegister res.1 res.2
  | .long => .setReg res.1 res.2

inductive RegisterStep where
  /-- The thread executes the instruction at its pc. -/
  | execute (size : InstructionSize) (body : InstructionBody)
      (results : List (Register × BitVec 32)) (nextPc : BitVec 32) (sr : Status)
  /-- The instruction at the pc yields before it does anything, or pauses. -/
  | stall (size : InstructionSize)
  | exception (et : ExceptionType) (ed : BitVec 32)
  | event (intr : Bool) (ev vector : BitVec 32)
  /-- A system call returns a value and goes on at an address. -/
  | syscall (val : BitVec 32) (decodeCache : CodeBlock) (pc : BitVec 32)
  /-- `TINIT*`, `TSETR` and `TSETMR` of another thread, or the debugger. -/
  | writeRegister (idx : Register) (val : BitVec 32)
  | setPc (pc pendingPc : BitVec 32)
  | free
  | alloc

/-- A thread with the value last written to each register, the values from before the
current pair of instructions, and whether the instruction at the pc is the second one
of a pair of which the first was executed just before. -/
structure RegisterRun where
  thread : ThreadContext
  latest : RegisterFile
  beforePair : RegisterFile
  inPair : Bool

namespace RegisterRun

def initial (decodeCache : CodeBlock) : RegisterRun where
  thread := { decodeCache }
  latest := fun _ => 0
  beforePair := fun _ => 0
  inPair := false

/-- The actions on the register files that a step takes, in order, after any pending
writes were applied. -/
def actions (core : CodeSpace) (ctx : ThreadContext) : RegisterStep → List RegisterAction
  | .execute size body results _ _ => body.actions ++ results.map (writeBack size)
  | .exception et ed =>
    if (ctx.exception core et ed).isSome then
      [.setReg .ssr (ctx.regs .ed), .setReg .spc (ctx.decodeCache.fromPc ctx.pc),
        .setReg .sed (ctx.regs .ed), .setReg .et et.code, .setReg .ed ed]
    else []
  | .event true ev _ =>
    [.setReg .ssr (ctx.sr.clear .waiting).toWord, .setReg .spc (ctx.decodeCache.fromPc ctx.pc),
      .setReg .sed (ctx.regs .ed), .writeRegister .ed ev]
  | .event false ev _ => [.writeRegister .ed ev]
  | .syscall val _ _ => [.setReg .r0 val]
  | .writeRegister idx val => [.writeRegister idx val]
  | .stall _ | .setPc _ _ | .free | .alloc => []

def started (ctx : ThreadContext) : RegisterStep → ThreadContext
  | .execute size _ _ _ _ => ctx.regWritePending size
  | .stall size => ctx.regWritePending size
  | _ => ctx

def stepThread (core : CodeSpace) (ctx : ThreadContext) : RegisterStep → ThreadContext
  | .execute size body results nextPc sr =>
    let ctx := body.actions.foldl act (ctx.regWritePending size)
    let ctx := results.foldl (fun ctx res => ctx.regWriteBack size res.1 res.2) ctx
    { ctx with pc := nextPc, sr := sr }
  | .stall size => ctx.regWritePending size
  | .exception et ed => (ctx.exception core et ed).getD ctx
  | .event intr ev vector => ctx.takeEvent intr ev vector
  | .syscall val decodeCache pc => { ctx.setReg .r0 val with decodeCache := decodeCache, pc := pc }
  | .writeRegister idx val => ctx.writeRegister idx val
  | .setPc pc pendingPc => { ctx with pc := pc, pendingPc := pendingPc }
  | .free => ctx.free
  | .alloc => ctx.alloc

/-- Whether the next instruction is the second of a pair. Other threads' writes come
between the two, a change of the pc by anything but the first one ends the pair. -/
def nextInPair (run : RegisterRun) : RegisterStep → Bool
  | .execute size _ _ nextPc _ =>
    size = .short && startsPair size run.thread.pc && nextPc = run.thread.pc + 1
  | .stall size => run.inPair && !startsPair size run.thread.pc
  | .writeRegister _ _ => run.inPair
  | _ => false

def step (core : CodeSpace) (run : RegisterRun) (lbl : RegisterStep) : RegisterRun where
  thread := stepThread core run.thread lbl
  latest := (actions core run.thread lbl).foldl RegisterAction.record run.latest
  beforePair :=
    match lbl with
    | .execute _ _ _ _ _ => run.latest
    | _ => run.beforePair
  inPair := run.nextInPair lbl

/-- No write of the step goes to a register file while buffered writes are waiting to
replace it. -/
def Kept (core : CodeSpace) (run : RegisterRun) (lbl : RegisterStep) : Prop :=
  Runs.Meets ThreadContext.act ThreadContext.Kept (started run.thread lbl) (actions core run.thread lbl)

def files (ctx : ThreadContext) : Bool × RegisterFile × RegisterFile × Bool :=
  (ctx.dualIssue, ctx.regs, ctx.regsBuffer, ctx.bufferInitialized)

variable {first snd : ThreadContext} {size : InstructionSize} {core : CodeSpace} {run : RegisterRun}

lemma holds_of_files {latest : RegisterFile} (same : files first = files snd)
    (holds : Holds snd latest) : Holds first latest := by
  simp only [files, Prod.mk.injEq] at same
  obtain ⟨dual, regs, buf, flag⟩ := same
  refine ⟨?_, fun one => ?_⟩
  · rw [← holds.current]
    funext r
    simp [readRegisterForTrace, regs, buf, flag]
  · rw [regs]
    exact holds.single (dual ▸ one)

lemma files_act (same : files first = files snd) (a : RegisterAction) :
    files (first.act a) = files (snd.act a) := by
  simp only [files, Prod.mk.injEq] at same
  obtain ⟨dual, regs, buf, flag⟩ := same
  cases a with
  | writeRegister idx val =>
    simp only [act, ThreadContext.writeRegister, dual, regs, buf, flag]
    split <;> simp [files]
  | setReg idx val => simp [files, act, setReg, dual, regs, buf, flag]
  | setDualIssue di =>
    simp only [act, setDualIssue, dual, regs, buf, flag]
    split <;> simp [files]

lemma foldl_regWriteBack (size : InstructionSize) (results : List (Register × BitVec 32))
    (ctx : ThreadContext) : results.foldl (fun ctx res => ctx.regWriteBack size res.1 res.2) ctx =
      (results.map (writeBack size)).foldl act ctx := by
  rw [List.foldl_map]
  cases size <;> rfl

lemma stepThread_files (core : CodeSpace) (ctx : ThreadContext) (lbl : RegisterStep) :
    files (stepThread core ctx lbl) = files ((actions core ctx lbl).foldl act (started ctx lbl)) := by
  cases lbl with
  | execute size body results next sr =>
    simp only [stepThread, actions, started, foldl_regWriteBack, List.foldl_append]
    rfl
  | exception et ed =>
    simp only [stepThread, actions, started, exception]
    split
    · rfl
    · rfl
  | event intr ev vector =>
    cases intr with
    | true =>
      refine files_act ?_ (.writeRegister .ed ev)
      rfl
    | false =>
      refine files_act ?_ (.writeRegister .ed ev)
      rfl
  | stall size => rfl
  | syscall val decodeCache pc => rfl
  | writeRegister idx val => rfl
  | setPc pc pendingPc => rfl
  | free => rfl
  | alloc => rfl

lemma writeRegister_dualIssue (ctx : ThreadContext) (idx : Register) (val : BitVec 32) :
    (ctx.writeRegister idx val).dualIssue = ctx.dualIssue := by
  unfold ThreadContext.writeRegister
  split <;> rfl

variable {ctx : ThreadContext}

lemma writeRegister_regs (dual : ctx.dualIssue = true) (idx : Register)
    (val : BitVec 32) : (ctx.writeRegister idx val).regs = ctx.regs := by
  simp [ThreadContext.writeRegister, dual]

lemma shortResults_regs (results : List (Register × BitVec 32))
    (dual : (results.foldl (fun ctx res => ctx.regWriteBack .short res.1 res.2) ctx).dualIssue =
      true) : ctx.dualIssue = true ∧
      (results.foldl (fun ctx res => ctx.regWriteBack .short res.1 res.2) ctx).regs =
        ctx.regs := by
  induction results generalizing ctx with
  | nil => exact ⟨dual, rfl⟩
  | cons res results ih =>
    obtain ⟨pre, same⟩ := ih dual
    have here : ctx.dualIssue = true := (writeRegister_dualIssue ctx res.1 res.2).symm.trans pre
    exact ⟨here, same.trans (writeRegister_regs here res.1 res.2)⟩

/-- An instruction body after which the thread is in dual issue wrote to the buffer only. -/
lemma body_regs (body : InstructionBody) (dual : (body.actions.foldl act ctx).dualIssue = true) :
    (body.actions.foldl act ctx).regs = ctx.regs := by
  cases body with
  | plain => rfl
  | writeRegister idx val =>
    exact writeRegister_regs ((writeRegister_dualIssue ctx idx val).symm.trans dual) idx val
  | setDualIssue di =>
    simp only [InstructionBody.actions, List.foldl_cons, List.foldl_nil, act, setDualIssue] at dual ⊢
    split at dual
    case isTrue leaving =>
      have one : di = false := by
        simp only [Bool.and_eq_true, Bool.not_eq_true'] at leaving
        exact leaving.1.2
      exact absurd (one.symm.trans dual) (by decide)
    case isFalse staying => rw [if_neg staying]

/-- The register files are right in every state of a run. -/
structure Inv (run : RegisterRun) : Prop where
  holds : Holds run.thread run.latest
  pair : run.inPair = true → run.thread.dualIssue = true → run.thread.regs = run.beforePair

lemma inv_initial (decodeCache : CodeBlock) : (initial decodeCache).Inv := by
  refine ⟨⟨rfl, fun _ => rfl⟩, fun inPair => ?_⟩
  cases inPair

lemma regWritePending_of_startsPair (starts : startsPair size ctx.pc = true) :
    ctx.regWritePending size = ctx.doPendingRegWrites := by
  simp [regWritePending, starts]

lemma regWritePending_of_not_startsPair
    (isIn : startsPair size ctx.pc = false) : ctx.regWritePending size = ctx := by
  simp [regWritePending, isIn]

lemma doPendingRegWrites_regs {latest : RegisterFile}
    (holds : Holds ctx latest) : ctx.doPendingRegWrites.regs = latest := by
  refine holds.doPendingRegWrites.clear ?_
  unfold doPendingRegWrites
  split
  · rfl
  · simp_all

/-- The second instruction of a pair finds the registers as the first one found them. -/
lemma pair_step (inv : run.Inv) (lbl : RegisterStep) (inPair : (run.step core lbl).inPair = true)
    (dual : (run.step core lbl).thread.dualIssue = true) :
    (run.step core lbl).thread.regs = (run.step core lbl).beforePair := by
  cases lbl with
  | execute size body results next sr =>
    simp only [step, nextInPair, Bool.and_eq_true, decide_eq_true_eq] at inPair
    obtain ⟨⟨rfl, starts⟩, -⟩ := inPair
    simp only [step, stepThread] at dual ⊢
    obtain ⟨bodyDual, sameResults⟩ := shortResults_regs results dual
    rw [sameResults, body_regs body bodyDual, regWritePending_of_startsPair starts]
    exact doPendingRegWrites_regs inv.holds
  | stall size =>
    simp only [step, nextInPair, Bool.and_eq_true, Bool.not_eq_true'] at inPair
    simp only [step, stepThread, regWritePending_of_not_startsPair inPair.2] at dual ⊢
    exact inv.pair inPair.1 dual
  | writeRegister idx val =>
    simp only [step, stepThread, nextInPair] at inPair dual ⊢
    have pre : run.thread.dualIssue = true := (writeRegister_dualIssue run.thread idx val).symm.trans dual
    rw [writeRegister_regs pre]
    exact inv.pair inPair pre
  | exception et ed => cases inPair
  | event intr ev vector => cases inPair
  | syscall val decodeCache pc => cases inPair
  | setPc pc pendingPc => cases inPair
  | free => cases inPair
  | alloc => cases inPair

lemma inv_step (inv : run.Inv) {lbl : RegisterStep} (kept : run.Kept core lbl) : (run.step core lbl).Inv := by
  refine ⟨holds_of_files (stepThread_files core run.thread lbl) ?_, pair_step inv lbl⟩
  have startedHolds : ThreadContext.Holds (started run.thread lbl) run.latest := by
    cases lbl with
    | execute size body results next sr => exact inv.holds.regWritePending size
    | stall size => exact inv.holds.regWritePending size
    | _ => exact inv.holds
  exact startedHolds.acts kept

/-- What an instruction of the given size reads at the pc: the latest values without dual
issue and at the start of a pair, and inside a pair the values from before it. -/
structure ReadsRight (run : RegisterRun) (size : InstructionSize) : Prop where
  single : run.thread.dualIssue = false → (run.thread.regWritePending size).regs = run.latest
  pairStart : startsPair size run.thread.pc = true →
    (run.thread.regWritePending size).regs = run.latest
  pairEnd : run.thread.dualIssue = true → run.inPair = true →
    startsPair size run.thread.pc = false →
    (run.thread.regWritePending size).regs = run.beforePair

lemma Inv.readsRight (inv : run.Inv) (size : InstructionSize) : run.ReadsRight size := by
  have atStart : startsPair size run.thread.pc = true →
      (run.thread.regWritePending size).regs = run.latest := fun starts => by
    rw [regWritePending_of_startsPair starts]
    exact doPendingRegWrites_regs inv.holds
  refine ⟨fun one => ?_, atStart, fun dual inPair isIn => ?_⟩
  · cases starts : startsPair size run.thread.pc with
    | true => exact atStart starts
    | false =>
      rw [regWritePending_of_not_startsPair starts]
      exact inv.holds.single one
  · rw [regWritePending_of_not_startsPair isIn]
    exact inv.pair inPair dual

/-- In a run in which no write goes to a register file that buffered writes are about to
replace, every instruction reads the right values. -/
theorem reads_are_right {core : CodeSpace} {decodeCache : CodeBlock} {steps : List RegisterStep}
    (kept : Runs.Meets (step core) (Kept core) (initial decodeCache) steps) (size : InstructionSize) :
    (steps.foldl (step core) (initial decodeCache)).ReadsRight size :=
  (kept.invariant (fun _ _ inv met => inv_step inv met) (inv_initial decodeCache)).readsRight size

/-- A pair in dual issue: after `dualentsp` the two instructions write R0 and read it. -/
def dualPair : List RegisterStep :=
  [.setPc 0x20 0, .execute .long (.setDualIssue true) [] 0x22 0, .execute .short .plain [(.r0, 7)] 0x23 0]

theorem dualPair_reads : (dualPair.foldl (step smallCore) (initial smallCore.ramDecodeCache)).ReadsRight
      .short := by
  have kept : Runs.Meets (step smallCore) (Kept smallCore)
      (initial smallCore.ramDecodeCache) dualPair :=
    ⟨trivial, ⟨trivial, trivial⟩, ⟨.inl rfl, trivial⟩, trivial⟩
  exact reads_are_right kept .short

def startedThread : List RegisterStep := [.alloc, .writeRegister .sp 0x1ff00, .setPc 0x20 0]

/-- Its first instruction reads zero from the stack pointer. -/
theorem startedThread_loses_sp : ¬(startedThread.foldl (step smallCore)
      (initial smallCore.ramDecodeCache)).ReadsRight .short := by
  intro right
  have sp := congrFun (right.pairStart rfl) .sp
  exact absurd sp (by decide)

end RegisterRun

end Axe
