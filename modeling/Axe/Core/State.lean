import Axe.Core.DecodeCache

/-! A core's memory, its RAM decode cache and the tables the JIT keeps for it,
with the invalidation calls that the stores of the interpreter, the loader and
the debugger make. Addresses are 32-bit values held as natural numbers. -/

namespace Axe

inductive ChainTarget where
  | stub
  | code (compiled : CompiledFunction)
  deriving DecidableEq, Repr

/-- The two LLVM functions made for a fragment: its code with the fast calling
convention and the wrapper the dispatch loop calls. -/
inductive LLVMFunction where
  | fast (compiled : CompiledFunction)
  | thunk (compiled : CompiledFunction)
  deriving DecidableEq, Repr

/-- `JITFunctionInfo`; `ptr` is the value of the global pointer once it exists. -/
structure JITFunctionInfo where
  ptr : Option ChainTarget := none
  fastFunc : Option CompiledFunction := none
  func : Option CompiledFunction := none
  fastFuncValue : Option LLVMFunction := none
  funcValue : Option LLVMFunction := none
  deriving DecidableEq, Repr

/-- `JITCoreInfo`, with the number of functions compiled so far and the
function values that were handed to LLVM for deletion. -/
structure JITCoreInfo where
  unreachableFunctions : List Nat
  functionMap : Nat → Option JITFunctionInfo
  compiledCount : Nat
  deleted : List (Option LLVMFunction)

structure Core (Inst : Type) where
  ramSizeLog2 : Nat
  ramBaseMultiple : Nat
  /-- The bytes of RAM, by offset from the RAM base. -/
  memory : Nat → BitVec 8
  ramDecodeCache : DecodeCache Inst
  jit : JITCoreInfo

namespace Core

variable {Inst : Type}

def getRamSize (core : Core Inst) : Nat := 2 ^ core.ramSizeLog2

def getRamBase (core : Core Inst) : Nat := core.getRamSize * core.ramBaseMultiple

def isValidRamAddress (core : Core Inst) (addr : Nat) : Bool :=
  addr / 2 ^ core.ramSizeLog2 == core.ramBaseMultiple

def toRamPc (core : Core Inst) (addr : Nat) : Nat := (addr - core.getRamBase) / 2

def clearOpcode (core : Core Inst) (pc : Nat) : Core Inst :=
  { core with ramDecodeCache := core.ramDecodeCache.clearOpcode pc }

def setOpcode (core : Core Inst) (pc : Nat) (opc : OpcodeCell Inst) (size : Nat) : Core Inst :=
  { core with ramDecodeCache := core.ramDecodeCache.setOpcode pc opc size }

/-- `JITImpl::invalidate`. The entry of `functionMap` at a pc is the record of
that pc, so the opcode cleared is the one at `pc` itself. -/
def jitInvalidate (core : Core Inst) (pc : Nat) : Core Inst × Bool :=
  match core.jit.functionMap pc with
  | none => (core, false)
  | some _ =>
    ({ core.clearOpcode pc with
        jit := { core.jit with unreachableFunctions := core.jit.unreachableFunctions ++ [pc] } }, true)

def invalidateEntry (core : Core Inst) (pc : Nat) : Core Inst :=
  let (core, cleared) := core.jitInvalidate pc
  let core := if cleared then core else core.clearOpcode pc
  { core with ramDecodeCache :=
    { core.ramDecodeCache with
      executionFrequency := Function.update core.ramDecodeCache.executionFrequency pc 0
      invalidationInfo := Function.update core.ramDecodeCache.invalidationInfo pc .none } }

/-- The walk, by index into the cache. Below index 0 the table ends, and a walk
that goes on there has no result. -/
def invalidateSlowPath (core : Core Inst) (pc : Nat) : Option (Core Inst) :=
  let info := core.ramDecodeCache.invalidationInfo pc
  let core := core.invalidateEntry pc
  if info = .currentAndPrevious then
    match pc with
    | 0 => none
    | previous + 1 => core.invalidateSlowPath previous
  else some core

def invalidateWordSlowPath (core : Core Inst) (pc : Nat) : Option (Core Inst) :=
  if core.ramDecodeCache.invalidationInfo (pc + 1) = .none then
    core.invalidateSlowPath pc
  else
    invalidateSlowPath { core with ramDecodeCache :=
      { core.ramDecodeCache with
        invalidationInfo :=
          Function.update core.ramDecodeCache.invalidationInfo (pc + 1) .currentAndPrevious } } (pc + 1)

def invalidateByteCheck (core : Core Inst) (addr : Nat) : Bool :=
  core.ramDecodeCache.invalidationInfo (core.toRamPc addr) ≠ .none

def invalidateShortCheck (core : Core Inst) (addr : Nat) : Bool :=
  core.ramDecodeCache.invalidationInfo (core.toRamPc addr) ≠ .none

def invalidateWordCheck (core : Core Inst) (addr : Nat) : Bool :=
  core.ramDecodeCache.invalidationInfo (core.toRamPc addr) ≠ .none ∨
    core.ramDecodeCache.invalidationInfo (core.toRamPc addr + 1) ≠ .none

def invalidateByte (core : Core Inst) (addr : Nat) : Option (Core Inst × Bool) :=
  if core.invalidateByteCheck addr then
    (core.invalidateSlowPath (core.toRamPc addr)).map (·, true)
  else some (core, false)

def invalidateShort (core : Core Inst) (addr : Nat) : Option (Core Inst × Bool) :=
  if core.invalidateShortCheck addr then
    (core.invalidateSlowPath (core.toRamPc addr)).map (·, true)
  else some (core, false)

def invalidateWord (core : Core Inst) (addr : Nat) : Option (Core Inst × Bool) :=
  if core.invalidateWordCheck addr then
    (core.invalidateWordSlowPath (core.toRamPc addr)).map (·, true)
  else some (core, false)

/-- A loop of `invalidateRange`: while `continues` holds of the address, the
`width` bytes there are invalidated and the 32-bit address moves on. A loop that
is not done after the given number of rounds has no result. -/
def invalidateWhile (goes : Nat → Bool) (width : Nat)
    (invalidate : Core Inst → Nat → Option (Core Inst × Bool)) :
    Nat → Core Inst → Nat → Bool → Option (Core Inst × Nat × Bool)
  | 0, core, addr, cleared => if goes addr then none else some (core, addr, cleared)
  | rounds + 1, core, addr, cleared =>
    if goes addr then do
      let (core, hit) ← invalidate core addr
      invalidateWhile goes width invalidate rounds core ((addr + width) % 2 ^ 32) (cleared || hit)
    else some (core, addr, cleared)

/-- `invalidateRange`. The sum `address + 3` of the second loop's test is a 32-bit one. -/
def invalidateRange (core : Core Inst) (start limit : Nat) : Option (Core Inst × Bool) := do
  let rounds := limit - start
  let (core, addr, cleared) ←
    invalidateWhile (fun addr => addr % 4 ≠ 0 ∧ addr < limit) 1 invalidateByte rounds core start false
  let (core, addr, cleared) ←
    invalidateWhile (fun addr => (addr + 3) % 2 ^ 32 < limit) 4 invalidateWord rounds core addr cleared
  let (core, _, cleared) ←
    invalidateWhile (fun addr => addr < limit) 1 invalidateByte rounds core addr cleared
  return (core, cleared)

end Core

end Axe
