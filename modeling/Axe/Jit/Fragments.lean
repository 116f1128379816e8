import Axe.Core.State
import Axe.Library.Runs

/-! The JIT's tables for one core: which fragments are compiled, how compiled
fragments chain to each other and how an invalidated fragment is reclaimed. What
LLVM makes of a fragment is not looked into; a compiled function is known by the
pc it was made for and a serial number. -/

namespace Axe

/-- What `getFragmentToCompile` and `getSuccessors` find in RAM at a start pc: whether
any instruction was collected, whether the block ends there, the pc after the
fragment, the bytes collected and the targets the last instruction can chain to. -/
structure Fragment where
  found : Bool
  endOfBlock : Bool
  nextPc : Nat
  size : Nat
  successors : List Nat
  deriving DecidableEq, Repr

namespace JITFunctionInfo

def chainTarget (info : JITFunctionInfo) : ChainTarget :=
  match info.fastFunc with
  | none => .stub
  | some comp => .code comp

def withPointer (info : JITFunctionInfo) : JITFunctionInfo :=
  match info.ptr with
  | some _ => info
  | none => { info with ptr := some info.chainTarget }

end JITFunctionInfo

namespace JITCoreInfo

def reclaim (jit : JITCoreInfo) (pc : Nat) : JITCoreInfo :=
  match jit.functionMap pc with
  | none => jit
  | some info =>
    { jit with
      deleted := jit.deleted ++ [info.funcValue, info.fastFuncValue]
      functionMap := Function.update jit.functionMap pc (some { ptr := info.ptr.map fun _ => .stub }) }

def reclaimUnreachableFunctions (jit : JITCoreInfo) : JITCoreInfo :=
  { jit.unreachableFunctions.foldl reclaim jit with unreachableFunctions := [] }

/-- The pointer of a pc is created when the first fragment chains to it. -/
def getNextFragmentPointer (jit : JITCoreInfo) (pc : Nat) : JITCoreInfo :=
  { jit with
    functionMap := Function.update jit.functionMap pc (some ((jit.functionMap pc).getD {}).withPointer) }

def beginFunction (jit : JITCoreInfo) (comp : CompiledFunction) : JITCoreInfo :=
  let info := (jit.functionMap comp.pc).getD {}
  { jit with
    compiledCount := jit.compiledCount + 1
    functionMap := Function.update jit.functionMap comp.pc
      (some { info with func := none, fastFuncValue := some (.fast comp) }) }

def finishFunction (jit : JITCoreInfo) (comp : CompiledFunction) : JITCoreInfo :=
  let info := (jit.functionMap comp.pc).getD {}
  { jit with
    functionMap := Function.update jit.functionMap comp.pc (some { info with
      fastFunc := some comp
      funcValue := some (.thunk comp)
      func := some comp
      ptr := info.ptr.map fun _ => .code comp }) }

end JITCoreInfo

namespace Core

variable {Inst : Type}

/-- The part of `compileOneFragment` that follows a successful `getFragmentToCompile`. -/
def compileFragment (core : Core Inst) (startPc : Nat) (fragment : Fragment) : Core Inst :=
  let comp : CompiledFunction := ⟨startPc, core.jit.compiledCount, fragment.size⟩
  let jit := core.jit.beginFunction comp
  -- A fragment that is a loop creates the pointer of `startPc` itself here.
  let jit := fragment.successors.foldl JITCoreInfo.getNextFragmentPointer jit
  let jit := jit.finishFunction comp
  { core.setOpcode startPc (.function comp) fragment.size with jit := jit }

/-- What `compileOneFragment` returns: whether a fragment was compiled, whether the
block ends here and the pc to go on at. -/
structure FragmentResult (Inst : Type) where
  core : Core Inst
  compiled : Bool
  endOfBlock : Bool
  pcAfterFragment : Nat

def compileOneFragment (core : Core Inst) (startPc : Nat) (fragment : Fragment) : FragmentResult Inst :=
  if (core.jit.functionMap startPc).any (·.fastFuncValue.isSome) then
    ⟨core, false, true, startPc⟩
  else if fragment.found then
    ⟨core.compileFragment startPc fragment, true, fragment.endOfBlock, fragment.nextPc⟩
  else ⟨core, false, fragment.endOfBlock, fragment.nextPc⟩

/-- The loop of `compileBlock`, with the pcs it compiled. Each round starts further up,
so a cache of n halfwords sees at most n + 1 rounds. -/
def compileFragments (frag : Nat → Fragment) : Nat → Core Inst → Nat → Core Inst × List Nat
  | 0, core, _ => (core, [])
  | rounds + 1, core, pc =>
    let result := core.compileOneFragment pc (frag pc)
    let here := if result.compiled then [pc] else []
    if result.endOfBlock then (result.core, here)
    else
      let rest := compileFragments frag rounds result.core result.pcAfterFragment
      (rest.1, here ++ rest.2)

def compileBlock (core : Core Inst) (pc : Nat) (frag : Nat → Fragment) : Core Inst × List Nat :=
  let core := { core with jit := core.jit.reclaimUnreachableFunctions }
  compileFragments frag (core.ramDecodeCache.size + 1) core pc

end Core

end Axe
