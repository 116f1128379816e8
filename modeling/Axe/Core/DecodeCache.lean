import Mathlib.Algebra.Group.Nat.Defs
import Mathlib.Logic.Function.Basic

/-! The decode cache of a core: one opcode cell and one byte of invalidation
information for each halfword of memory. -/

namespace Axe

inductive InvalidationInfo where
  | none
  | current
  | currentAndPrevious
  deriving DecidableEq, Repr

/-- A compiled fragment. The serial number tells apart the functions LLVM made
for one pc at different times; `size` is the fragment's length in bytes. -/
structure CompiledFunction where
  pc : Nat
  serial : Nat
  size : Nat
  deriving DecidableEq, Repr

/-- What an opcode cell can point to: the `DECODE` pseudo instruction, a decoded
instruction together with its operands, or a compiled fragment. Of the first two
there is a tracing version and one that does not trace. -/
inductive OpcodeCell (Inst : Type) where
  | decode (tracing : Bool)
  | instruction (tracing : Bool) (inst : Inst)
  | function (compiled : CompiledFunction)
  deriving DecidableEq, Repr

def OpcodeCell.live {Inst : Type} : OpcodeCell Inst → Bool
  | .decode _ => false
  | _ => true

def OpcodeCell.isFunction {Inst : Type} : OpcodeCell Inst → Bool
  | .function _ => true
  | _ => false

/-- `DecodeCache::State` of a writable cache. `size` is in halfwords. -/
structure DecodeCache (Inst : Type) where
  size : Nat
  tracingEnabled : Bool
  opcode : Nat → OpcodeCell Inst
  executionFrequency : Nat → Int
  invalidationInfo : Nat → InvalidationInfo

namespace DecodeCache

variable {Inst : Type}

def initCache (Inst : Type) (size : Nat) (tracing : Bool) : DecodeCache Inst where
  size := size
  tracingEnabled := tracing
  opcode := fun _ => .decode tracing
  executionFrequency := fun _ => 0
  invalidationInfo := fun _ => .none

def clearOpcode (cache : DecodeCache Inst) (pc : Nat) : DecodeCache Inst :=
  { cache with opcode := Function.update cache.opcode pc (.decode cache.tracingEnabled) }

/-- The information table after an entry of `size` bytes is stored at `pc`. -/
def setInvalidationInfo (info : Nat → InvalidationInfo) (pc size : Nat) (i : Nat) : InvalidationInfo :=
  if i = pc then
    if info pc = .none then .current else info pc
  else if pc < i ∧ i < pc + size / 2 then .currentAndPrevious
  else info i

def setOpcode (cache : DecodeCache Inst) (pc : Nat) (opc : OpcodeCell Inst) (size : Nat) : DecodeCache Inst :=
  { cache with
    opcode := Function.update cache.opcode pc opc
    invalidationInfo := setInvalidationInfo cache.invalidationInfo pc size }

end DecodeCache

end Axe
