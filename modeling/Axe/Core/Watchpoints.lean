import Axe.Core.Resets
import Mathlib.Algebra.Order.Ring.Nat

/-! Watchpoints. Compiled fragments leave out the checks of most loads and stores, so
setting a watchpoint turns the JIT off and the tracing versions of the instructions on:
`disableJIT` changes the mode of the RAM decode cache and invalidates the entries that are
recorded there. Everything that executes instructions of a core is a step here, with what
the instruction did as a label; what is of interest is which code a step runs. -/

namespace Axe

inductive WatchpointType where
  | unset
  | read
  | write
  deriving DecidableEq, Repr

structure Watchpoint where
  type : WatchpointType
  low : Nat
  high : Nat
  deriving DecidableEq, Repr

inductive LoadStoreType where
  | word
  | short
  | byte
  deriving DecidableEq, Repr

def getLoadStoreSize : LoadStoreType → Nat
  | .word => 4
  | .short => 2
  | .byte => 1

/-- A load or store of an instruction; `enableMemCheckOpt` is the flag of the instruction
that lets the JIT make its checks beforehand. -/
structure MemoryAccess where
  type : WatchpointType
  address : Nat
  width : LoadStoreType
  enableMemCheckOpt : Bool
  deriving DecidableEq, Repr

inductive WatchEvent where
  | access (access : MemoryAccess)
  | hitWatchpoint (type : WatchpointType) (address size : Nat)
  /-- A compiled fragment is entered. -/
  | dispatched (compiled : CompiledFunction)
  /-- A fragment is compiled for a pc. -/
  | compiled (pc : Nat)
  deriving DecidableEq, Repr

def shouldEmitMemoryChecks (jit enableMemCheckOpt : Bool) : Bool := !jit || !enableMemCheckOpt

namespace MemoryAccess

def events (jit : Bool) (access : MemoryAccess) : List WatchEvent :=
  .access access ::
    if shouldEmitMemoryChecks jit access.enableMemCheckOpt then
      [.hitWatchpoint access.type access.address (getLoadStoreSize access.width)]
    else []

def invalidation (Inst : Type) (access : MemoryAccess) : CacheCall Inst :=
  match access.width with
  | .word => .invalidateWord access.address
  | .short => .invalidateShort access.address
  | .byte => .invalidateByte access.address

end MemoryAccess

/-- The instructions of a core as far as execution looks at them: their length in bytes,
the flag `MAY_BRANCH`, whether they have a trace format, and what `instructionDecode` and
`getFragmentToCompile` find in memory at a pc. -/
structure InstructionSet (Inst : Type) where
  size : Inst → Nat
  mayBranch : Inst → Bool
  format : Inst → Bool
  decodeAt : Core Inst → Nat → Inst
  fragmentAt : Core Inst → Nat → Fragment
  size_ge : ∀ inst, 2 ≤ size inst
  fragment_size : ∀ core pc, (fragmentAt core pc).found = true → 2 ≤ (fragmentAt core pc).size
  fragment_ram : ∀ core pc, (fragmentAt core pc).found = true → pc < core.getRamSize / 2

namespace Core

variable {Inst : Type}

def setExecutionFrequency (core : Core Inst) (pc : Nat) (count : Int) : Core Inst :=
  { core with ramDecodeCache := { core.ramDecodeCache with
    executionFrequency := Function.update core.ramDecodeCache.executionFrequency pc count } }

def runJIT (isa : InstructionSet Inst) (core : Core Inst) (jitPc : Nat) : Core Inst × List Nat :=
  if jitPc < core.ramDecodeCache.size then
    let core := core.setExecutionFrequency jitPc (-2 ^ 31)
    core.compileBlock jitPc (isa.fragmentAt core)
  else (core, [])

/-- The stores of an instruction invalidate the entries over what they wrote. -/
def invalidateStores (isa : InstructionSet Inst) (core : Core Inst) (accesses : List MemoryAccess) :
    Option (Core Inst) :=
  (accesses.filter (·.type = .write)).foldlM (fun core access => (access.invalidation Inst).run isa.size core) core

end Core

/-- What a thread has of its own: the issue mode, and in its copy of the state of the decode
cache it executes from whether that is the RAM one and which mode it had. -/
structure ThreadMode where
  dualIssue : Bool
  inRam : Bool
  tracingEnabled : Bool
  deriving DecidableEq, Repr

structure WatchState (Inst : Type) where
  core : Core Inst
  romBase : Nat
  romSize : Nat
  jitEnabled : Bool
  watchpoints : List Watchpoint
  /-- A tracer is attached to the system. -/
  tracer : Bool
  threads : Nat → ThreadMode

/-- What an instruction, or the fragments that a dispatch runs through, did: the accesses, where the
thread goes on and whether it got as far as the count of executions. A fragment can also
end in the stub of one that is not compiled. -/
structure WatchOutcome where
  accesses : List MemoryAccess
  pc : Nat
  dualIssue : Bool
  inRam : Bool
  completes : Bool
  stub : Bool
  deriving DecidableEq, Repr

inductive WatchStep (Inst : Type) where
  | setWatchpoint (watchpoint : Watchpoint)
  | unsetWatchpoint (watchpoint : Watchpoint)
  /-- The dispatch loop calls what the cell of the thread's pc points to. -/
  | dispatch (t pc : Nat) (out : WatchOutcome)
  /-- `interpretOne` after a breakpoint or in a single step. -/
  | interpretOne (t : Nat) (inst : Inst) (out : WatchOutcome)
  /-- The dispatch loop calls an entry of the ROM's cache. -/
  | dispatchRom (t : Nat) (inst : Inst) (out : WatchOutcome)

namespace WatchState

variable {Inst : Type}

def isValidAddress (st : WatchState Inst) (address : Nat) : Bool :=
  st.core.isValidRamAddress address || (address + 2 ^ 32 - st.romBase) % 2 ^ 32 < st.romSize

def disableJIT (st : WatchState Inst) : Option (WatchState Inst) :=
  (st.core.setTracing true).resetCaches.map fun core => { st with core := core, jitEnabled := false }

def enableJIT (st : WatchState Inst) : Option (WatchState Inst) :=
  (st.core.setTracing false).resetCaches.map fun core => { st with core := core, jitEnabled := true }

def setWatchpoint (st : WatchState Inst) (watchpoint : Watchpoint) : Option (WatchState Inst) :=
  if watchpoint.low % 2 = 1 ∨ !st.isValidAddress watchpoint.low ∨
      watchpoint.high % 2 = 1 ∨ !st.isValidAddress watchpoint.high then some st
  else
    (if st.jitEnabled then st.disableJIT else some st).map fun st =>
      { st with watchpoints := st.watchpoints.insert watchpoint }

def unsetWatchpoint (st : WatchState Inst) (watchpoint : Watchpoint) : Option (WatchState Inst) :=
  let st := { st with watchpoints := st.watchpoints.filter (· ≠ watchpoint) }
  if st.watchpoints.isEmpty && !st.tracer then st.enableJIT else some st

/-- Where the thread goes on. A thread that leaves its decode cache takes a copy of the
state of the other one; the ROM's cache traces if there is a tracer. -/
def leave (st : WatchState Inst) (t : Nat) (out : WatchOutcome) : WatchState Inst :=
  let thread := st.threads t
  let tracingEnabled :=
    if out.inRam = thread.inRam then thread.tracingEnabled
    else if out.inRam then st.core.ramDecodeCache.tracingEnabled
    else st.tracer
  { st with
    threads := Function.update st.threads t ⟨out.dualIssue, out.inRam, tracingEnabled⟩ }

/-- `updateExecutionFrequency`, and `updateExecutionFrequencyFromStub` with the pseudo
instruction `RUN_JIT` that follows it. A thread in ROM counts in the ROM's cache and
compiles nothing. -/
def updateExecutionFrequency (isa : InstructionSet Inst) (st : WatchState Inst) (t pc : Nat) (fromStub : Bool) :
    WatchState Inst × List WatchEvent :=
  if (st.threads t).inRam then
    let count := st.core.ramDecodeCache.executionFrequency pc + 1
    let core := st.core.setExecutionFrequency pc count
    if 128 < count ∧ (fromStub ∨ (st.threads t).dualIssue = false) then
      let result := core.runJIT isa pc
      ({ st with core := result.1 }, result.2.map .compiled)
    else ({ st with core := core }, [])
  else (st, [])

/-- An instruction function. Its tracing version calls the tracer without a test. -/
def runInstruction (isa : InstructionSet Inst) (st : WatchState Inst) (t : Nat) (tracing : Bool) (inst : Inst)
    (out : WatchOutcome) : Option (WatchState Inst × List WatchEvent) :=
  if tracing && isa.format inst && !st.tracer then none
  else do
    let core ← st.core.invalidateStores isa out.accesses
    let st := { st with core := core }.leave t out
    let events := out.accesses.flatMap (·.events false)
    if !tracing && isa.mayBranch inst && out.completes then
      let (st, compiled) := st.updateExecutionFrequency isa t out.pc false
      return (st, events ++ compiled)
    else return (st, events)

def runFragment (isa : InstructionSet Inst) (st : WatchState Inst) (t : Nat) (compiled : CompiledFunction)
    (out : WatchOutcome) : Option (WatchState Inst × List WatchEvent) := do
  let core ← st.core.invalidateStores isa
    (out.accesses.filter fun access => shouldEmitMemoryChecks true access.enableMemCheckOpt)
  let st := { st with core := core }.leave t out
  let events := .dispatched compiled :: out.accesses.flatMap (·.events true)
  if out.completes then
    let (st, compiled) := st.updateExecutionFrequency isa t out.pc out.stub
    return (st, events ++ compiled)
  else return (st, events)

def dispatch (isa : InstructionSet Inst) (st : WatchState Inst) (t pc : Nat) (out : WatchOutcome) :
    Option (WatchState Inst × List WatchEvent) :=
  match st.core.ramDecodeCache.opcode pc with
  | .decode tracing =>
    let inst := isa.decodeAt st.core pc
    some ({ st with core := st.core.setOpcode pc (.instruction tracing inst) (isa.size inst) }, [])
  | .instruction tracing inst => st.runInstruction isa t tracing inst out
  | .function compiled => st.runFragment isa t compiled out

/-- One step with the events to be seen; without a result if the simulator itself crashes. -/
def act (isa : InstructionSet Inst) (st : WatchState Inst) :
    WatchStep Inst → Option (WatchState Inst × List WatchEvent)
  | .setWatchpoint watchpoint => (st.setWatchpoint watchpoint).map (·, [])
  | .unsetWatchpoint watchpoint => (st.unsetWatchpoint watchpoint).map (·, [])
  | .dispatch t pc out => st.dispatch isa t pc out
  | .interpretOne t inst out => st.runInstruction isa t (st.threads t).tracingEnabled inst out
  | .dispatchRom t inst out => st.runInstruction isa t st.tracer inst out

end WatchState

end Axe
