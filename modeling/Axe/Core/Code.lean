import Axe.Core.Watchpoints
import Axe.Instruction.Transform

/-! The code a core executes. Instructions are decoded from memory once, in the issue mode of
the thread that comes by first, and executed from the decode cache by every thread of the core
from then on. Everything that writes RAM is a step: the stores of instructions and of compiled
fragments, the debugger and the loader, and the system calls that fill a buffer. -/

namespace Axe

/-- A decoded instruction in a decode cache. What `instructionDecode` gave and the issue mode of the
thread that decoded are noted down beside the opcode and the operands; nothing reads them. -/
structure Entry where
  opcode : Opcode
  operands : Operands
  raw : Decoded
  dualIssue : Bool
  deriving DecidableEq, Repr

namespace Entry

def size (entry : Entry) : Nat := entry.opcode.size

def decoded (entry : Entry) : Decoded := ⟨entry.opcode, entry.operands⟩

/-- What `Instruction_DECODE` stores: the output variables held `before` and are assigned what the
encoding at the pc says. -/
def make (asgn : Assignment) (cacheSize pc : Nat) (dualIssue : Bool) (pre : Decoded) : Entry :=
  let raw := asgn.run pre
  let transformed := instructionTransform cacheSize pc dualIssue raw
  ⟨transformed.opcode, transformed.operands, raw, dualIssue⟩

end Entry

structure Board where
  type : NodeType
  romBase : Nat
  romSize : Nat
  rom : Nat → BitVec 8

def Board.isValidRomAddress (board : Board) (addr : Nat) : Bool :=
  (addr + 2 ^ 32 - board.romBase) % 2 ^ 32 < board.romSize

def shortOf (low high : BitVec 8) : Nat := low.toNat + 2 ^ 8 * high.toNat

def Board.loadRomShort (board : Board) (addr : Nat) : Nat :=
  shortOf (board.rom (addr - board.romBase)) (board.rom (addr - board.romBase + 1))

def littleEndian (w value : Nat) : List (BitVec 8) :=
  (List.range w).map fun i => BitVec.ofNat 8 (value / 2 ^ (8 * i))

namespace Core

variable {Inst : Type}

def loadRamShort (core : Core Inst) (addr : Nat) : Nat :=
  shortOf (core.memory (addr - core.getRamBase)) (core.memory (addr - core.getRamBase + 1))

def fromRamPc (core : Core Inst) (pc : Nat) : Nat := (2 * pc + core.getRamBase) % 2 ^ 32

def storeBytes (core : Core Inst) (addr : Nat) (bytes : List (BitVec 8)) : Core Inst :=
  let offset := addr - core.getRamBase
  { core with memory := fun i =>
      if offset ≤ i ∧ i < offset + bytes.length then bytes.getD (i - offset) 0 else core.memory i }

section

variable (board : Board) (core : Core Inst)

def isValidAddress (addr : Nat) : Bool := core.isValidRamAddress addr || board.isValidRomAddress addr

def loadShort (addr : Nat) : Nat :=
  if core.isValidRamAddress addr then core.loadRamShort addr else board.loadRomShort addr

def decodeAt (addr : Nat) : Assignment :=
  let next := (addr + 2) % 2 ^ 32
  let highValid := core.isValidAddress board next
  instructionDecode (core.loadShort board addr) (if highValid then core.loadShort board next else 0) highValid
    board.type

end

/-- RAM has whole words and ends below the last address, the decode cache has a cell for each of
its halfwords, and the ROM lies somewhere else, with a gap after each of the two. -/
structure Geometry (board : Board) (core : Core Inst) : Prop where
  ram : 2 ≤ core.ramSizeLog2
  fits : core.getRamBase + core.getRamSize < 2 ^ 32
  cells : core.ramDecodeCache.size = core.getRamSize / 2
  rom : board.romBase + board.romSize ≤ 2 ^ 32
  apart : board.romSize = 0 ∨ board.romBase + board.romSize + 2 ≤ core.getRamBase ∨
    core.getRamBase + core.getRamSize < board.romBase ∧
      (board.romBase + board.romSize + 2 ≤ 2 ^ 32 ∨ 2 ≤ core.getRamBase)

instance (board : Board) (core : Core Inst) : Decidable (core.Geometry board) :=
  decidable_of_iff (2 ≤ core.ramSizeLog2 ∧ core.getRamBase + core.getRamSize < 2 ^ 32 ∧
      core.ramDecodeCache.size = core.getRamSize / 2 ∧ board.romBase + board.romSize ≤ 2 ^ 32 ∧
      (board.romSize = 0 ∨ board.romBase + board.romSize + 2 ≤ core.getRamBase ∨
        core.getRamBase + core.getRamSize < board.romBase ∧
          (board.romBase + board.romSize + 2 ≤ 2 ^ 32 ∨ 2 ≤ core.getRamBase)))
    ⟨fun ⟨ram, fits, cells, rom, apart⟩ => ⟨ram, fits, cells, rom, apart⟩,
      fun ⟨ram, fits, cells, rom, apart⟩ => ⟨ram, fits, cells, rom, apart⟩⟩

def compileAt (core : Core Inst) (jitPc : Nat) (fragmentAt : Nat → Fragment) : Core Inst :=
  if jitPc < core.ramDecodeCache.size then
    ((core.setExecutionFrequency jitPc (-2 ^ 31)).compileBlock jitPc fragmentAt).1
  else core

def setRamBaseMultiple (core : Core Inst) (multiple : Nat) : Option (Core Inst) :=
  core.resetCaches.map fun core => { core with ramBaseMultiple := multiple }

def writeMemory (core : Core Inst) (addr : Nat) (bytes : List (BitVec 8)) : Option (Core Inst) :=
  if bytes = [] then some core
  else
    let ramEnd := (core.getRamBase + core.getRamSize) % 2 ^ 32
    if addr < core.getRamBase ∨ ramEnd ≤ addr + bytes.length then some core
    else
      ((core.storeBytes addr bytes).invalidateRange addr (addr + bytes.length)).map Prod.fst

end Core

def LoadStoreType.invalidation (w : LoadStoreType) (Inst : Type) (addr : Nat) : CacheCall Inst :=
  match w with
  | .word => .invalidateWord addr
  | .short => .invalidateShort addr
  | .byte => .invalidateByte addr

inductive RamEffect where
  | store (w : LoadStoreType) (addr value : Nat)
  /-- A store of a compiled fragment whose checks were made beforehand. -/
  | unchecked (w : LoadStoreType) (addr value : Nat)
  /-- `SETPS` of the RAM base. -/
  | setRamBase (value : Nat)

def RamEffect.run (core : Core Entry) : RamEffect → Option (Core Entry)
  | .store w addr value =>
    (w.invalidation Entry addr).run Entry.size
      (core.storeBytes addr (littleEndian (getLoadStoreSize w) value))
  | .unchecked w addr value => some (core.storeBytes addr (littleEndian (getLoadStoreSize w) value))
  | .setRamBase value => core.setRamBaseMultiple (value / core.getRamSize)

def RamEffect.step (core : Option (Core Entry)) (effect : RamEffect) : Option (Core Entry) := core.bind effect.run

/-- What is seen of an instruction, or of a compiled fragment and those it chains to: the effects, the
issue modes after each instruction fragment by fragment, whether the thread goes on in RAM and
which block is compiled on the way, if any. -/
structure CodeExecution where
  effects : List RamEffect
  modes : List (List Bool)
  inRam : Bool
  compile : Option (Nat × (Nat → Fragment))

/-- The system calls that write RAM, with what the host puts into the buffer. -/
inductive Syscall where
  | read (buffer size : Nat) (data : List (BitVec 8))
  | time (addr now : Nat)
  | argv (buffer size : Nat) (args : List (List (BitVec 8)))
  | loadImage (dst size : Nat) (data : List (BitVec 8)) (loaded : Bool)

/-- The block of pointers and the strings that `doOsCallArgv` lays out. -/
def argvBytes (buffer : Nat) (args : List (List (BitVec 8))) : List (BitVec 8) :=
  let strings := 4 * args.length + 4
  let positions := (List.range args.length).map fun i => strings + ((args.take i).map (·.length + 1)).sum
  positions.flatMap (fun position => littleEndian 4 (buffer + position)) ++ littleEndian 4 0 ++
    args.flatMap (· ++ [0])

namespace Core

variable {Inst : Type}

def hasRamBuffer (core : Core Inst) (addr size : Nat) : Bool :=
  core.isValidRamAddress addr && core.isValidRamAddress ((addr + size) % 2 ^ 32)

def doSyscall (core : Core Inst) : Syscall → Option (Core Inst)
  | .read buffer size data =>
    if core.hasRamBuffer buffer size then some (core.storeBytes buffer data) else some core
  | .time addr now =>
    if addr ≠ 0 ∧ core.isValidRamAddress addr ∧ addr % 4 = 0 then
      ((core.storeBytes addr (littleEndian 4 now)).invalidateWord addr).map Prod.fst
    else some core
  | .argv buffer size args =>
    -- The size is compared as a signed one.
    if 2 ^ 31 ≤ size ∨ size < (argvBytes buffer args).length then some core
    else if core.hasRamBuffer buffer size then some (core.storeBytes buffer (argvBytes buffer args))
    else some core
  | .loadImage dst size data loaded =>
    if core.hasRamBuffer dst size then
      let core := core.storeBytes dst data
      if loaded then (core.invalidateRange dst ((dst + size) % 2 ^ 32)).map Prod.fst else some core
    else some core

end Core

structure CodeThread where
  dualIssue : Bool
  inRam : Bool
  deriving DecidableEq, Repr

structure CodeState where
  board : Board
  core : Core Entry
  /-- The cells of the ROM's decode cache. It belongs to the system. -/
  romOpcode : Nat → OpcodeCell Entry
  breakpoints : List Nat
  threads : Nat → CodeThread

inductive CodeStep where
  /-- The dispatch loop calls what the cell of the thread's pc points to. -/
  | dispatch (t pc : Nat) (pre : Decoded) (exec : CodeExecution)
  /-- `interpretOne`, which is left by an exception if the instruction hits a watchpoint. -/
  | interpretOne (t pc : Nat) (pre : Decoded) (raised : Bool) (exec : CodeExecution)
  | writeMemory (addr : Nat) (bytes : List (BitVec 8))
  | syscall (call : Syscall)
  | setBreakpoint (addr : Nat)
  | unsetBreakpoint (addr : Nat)
  /-- `disableJIT` and `enableJIT`. -/
  | setTracing (tracing : Bool)
  /-- A thread of another core decodes in ROM, and finds what that core makes of the encoding. -/
  | decodeElsewhere (pc : Nat) (asgn : Assignment) (dualIssue : Bool) (pre : Decoded)
  /-- A thread of another core leaves `interpretOne` by an exception in ROM. -/
  | raiseElsewhere (pc : Nat) (asgn : Assignment) (dualIssue : Bool) (pre : Decoded)

/-- The operands of a cell that `interpretOne` did not restore. Other cells do not read theirs. -/
def OpcodeCell.withOperands (cell : OpcodeCell Entry) (operands : Operands) : OpcodeCell Entry :=
  match cell with
  | .instruction tracing entry => .instruction tracing { entry with operands := operands }
  | other => other

namespace CodeState

/-- The size of the decode cache a thread executes from; that of the ROM's is the number of its bytes. -/
def cacheSize (st : CodeState) (inRam : Bool) : Nat :=
  if inRam then st.core.ramDecodeCache.size else st.board.romSize

def cell (st : CodeState) (inRam : Bool) (pc : Nat) : OpcodeCell Entry :=
  if inRam then st.core.ramDecodeCache.opcode pc else st.romOpcode pc

def fromPc (st : CodeState) (inRam : Bool) (pc : Nat) : Nat :=
  if inRam then st.core.fromRamPc pc else (2 * pc + st.board.romBase) % 2 ^ 32

def encoding (st : CodeState) (inRam : Bool) (pc : Nat) : Assignment :=
  st.core.decodeAt st.board (st.fromPc inRam pc)

def instructionDecode (st : CodeState) (inRam : Bool) (pc : Nat) : Assignment :=
  if st.fromPc inRam pc ∈ st.breakpoints then assign .breakpoint else st.encoding inRam pc

def setEntry (st : CodeState) (inRam : Bool) (pc : Nat) (tracing : Bool) (entry : Entry) : CodeState :=
  if inRam then { st with core := st.core.setOpcode pc (.instruction tracing entry) entry.size }
  else { st with romOpcode := Function.update st.romOpcode pc (.instruction tracing entry) }

def setOperands (st : CodeState) (inRam : Bool) (pc : Nat) (operands : Operands) : CodeState :=
  if inRam then
    { st with core := { st.core with ramDecodeCache := { st.core.ramDecodeCache with
        opcode := Function.update st.core.ramDecodeCache.opcode pc
          ((st.core.ramDecodeCache.opcode pc).withOperands operands) } } }
  else { st with romOpcode := Function.update st.romOpcode pc ((st.romOpcode pc).withOperands operands) }

def execute (st : CodeState) (t : Nat) (exec : CodeExecution) : Option CodeState :=
  (exec.effects.foldl RamEffect.step (some st.core)).map fun core =>
    let core := match exec.compile with
      | none => core
      | some (pc, fragmentAt) => core.compileAt pc fragmentAt
    let dualIssue := exec.modes.flatten.getLastD (st.threads t).dualIssue
    { st with core := core, threads := Function.update st.threads t ⟨dualIssue, exec.inRam⟩ }

def dispatch (st : CodeState) (t pc : Nat) (pre : Decoded) (exec : CodeExecution) : Option CodeState :=
  let th := st.threads t
  match st.cell th.inRam pc with
  | .decode tracing =>
    let entry := Entry.make (st.instructionDecode th.inRam pc) (st.cacheSize th.inRam) pc
      th.dualIssue pre
    some (st.setEntry th.inRam pc tracing entry)
  | _ => st.execute t exec

def interpretOne (st : CodeState) (t pc : Nat) (pre : Decoded) (raised : Bool) (exec : CodeExecution) :
    Option CodeState :=
  let th := st.threads t
  let entry := Entry.make (st.encoding th.inRam pc) (st.cacheSize th.inRam) pc th.dualIssue pre
  (st.execute t exec).map fun after =>
    if raised then after.setOperands th.inRam pc entry.operands else after

def setBreakpoint (st : CodeState) (addr : Nat) : Option CodeState :=
  if addr % 2 = 1 ∨ !st.core.isValidAddress st.board addr ∨ addr ∈ st.breakpoints then some st
  else
    (st.core.invalidateShort addr).map fun (core, _) =>
      { st with core := core, breakpoints := addr :: st.breakpoints }

def unsetBreakpoint (st : CodeState) (addr : Nat) : Option CodeState :=
  if addr ∈ st.breakpoints then
    (st.core.invalidateShort addr).map fun (core, _) =>
      { st with core := core, breakpoints := st.breakpoints.filter (· ≠ addr) }
  else some st

def act (st : CodeState) : CodeStep → Option CodeState
  | .dispatch t pc pre exec => st.dispatch t pc pre exec
  | .interpretOne t pc pre raised exec => st.interpretOne t pc pre raised exec
  | .writeMemory addr bytes => (st.core.writeMemory addr bytes).map ({ st with core := · })
  | .syscall call => (st.core.doSyscall call).map ({ st with core := · })
  | .setBreakpoint addr => st.setBreakpoint addr
  | .unsetBreakpoint addr => st.unsetBreakpoint addr
  | .setTracing tracing => (st.core.setTracing tracing).resetCaches.map ({ st with core := · })
  | .decodeElsewhere pc asgn dualIssue pre =>
    match st.romOpcode pc with
    | .decode tracing =>
      some (st.setEntry false pc tracing (Entry.make asgn st.board.romSize pc dualIssue pre))
    | _ => some st
  | .raiseElsewhere pc asgn dualIssue pre =>
    some (st.setOperands false pc (Entry.make asgn st.board.romSize pc dualIssue pre).operands)

def step (st : Option CodeState) (label : CodeStep) : Option CodeState := st.bind (·.act label)

end CodeState

end Axe
