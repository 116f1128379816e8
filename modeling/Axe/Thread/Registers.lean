import Mathlib.Logic.Function.Basic

/-! A thread as its own instructions see it: two register files with the flag
that says which one is current, the status register, and a pc counted in
halfwords from the base of the decode cache the thread runs from. -/

namespace Axe

open BitVec

inductive Register where
  | r0 | r1 | r2 | r3 | r4 | r5 | r6 | r7 | r8 | r9 | r10 | r11
  | cp | dp | sp | lr
  | et | ed | kep | ksp | spc | sed | ssr
  deriving DecidableEq, Repr

abbrev RegisterFile := Register → BitVec 32

inductive SRBit where
  | eeble | ieble | inenb | inint | ink | sink | waiting | fast | di | kedi | hipri
  deriving DecidableEq, Repr

def SRBit.index : SRBit → Nat
  | .eeble => 0
  | .ieble => 1
  | .inenb => 2
  | .inint => 3
  | .ink => 4
  | .sink => 5
  | .waiting => 6
  | .fast => 7
  | .di => 8
  | .kedi => 9
  | .hipri => 10

abbrev Status := BitVec 11

namespace Status

def mask (bit : SRBit) : Status := 1#11 <<< bit.index

def set (sr : Status) (bit : SRBit) : Status := sr ||| mask bit

def clear (sr : Status) (bit : SRBit) : Status := sr &&& ~~~mask bit

def toWord (sr : Status) : BitVec 32 := sr.setWidth 32

def ofWord (value : BitVec 32) : Status := value.setWidth 11

@[simp] lemma ofWord_toWord (sr : Status) : ofWord sr.toWord = sr := by
  have below := sr.isLt
  apply eq_of_toNat_eq
  simp only [ofWord, toWord, toNat_setWidth]
  omega

@[simp] lemma clear_clear (sr : Status) (bit : SRBit) : (sr.clear bit).clear bit = sr.clear bit := by
  simp only [clear, BitVec.and_assoc, BitVec.and_self]

end Status

/-- The addresses a `DecodeCache::State` stands for. Memory blocks start at even
addresses; `size` is in halfwords. -/
structure CodeBlock where
  base : BitVec 32
  size : BitVec 32
  even : base.toNat % 2 = 0
  deriving DecidableEq

namespace CodeBlock

def toPc (block : CodeBlock) (addr : BitVec 32) : BitVec 32 := (addr - block.base) >>> 1

def fromPc (block : CodeBlock) (pc : BitVec 32) : BitVec 32 := (pc <<< 1) + block.base

def contains (block : CodeBlock) (addr : BitVec 32) : Bool := block.toPc addr < block.size

lemma fromPc_even (block : CodeBlock) (pc : BitVec 32) : (block.fromPc pc).toNat % 2 = 0 := by
  have even := block.even
  simp only [fromPc, toNat_add, toNat_shiftLeft, Nat.shiftLeft_eq]
  omega

lemma fromPc_toPc (block : CodeBlock) {addr : BitVec 32} (even : addr.toNat % 2 = 0) :
    block.fromPc (block.toPc addr) = addr := by
  have baseEven := block.even
  have baseBelow := block.base.isLt
  apply eq_of_toNat_eq
  simp only [fromPc, toPc, toNat_add, toNat_shiftLeft, toNat_ushiftRight,
    toNat_sub, Nat.shiftLeft_eq, Nat.shiftRight_eq_div_pow]
  omega

end CodeBlock

structure CodeSpace where
  ramSizeLog2 : Nat
  ramBaseMultiple : BitVec 32
  ramDecodeCache : CodeBlock
  romBase : BitVec 32
  romSize : BitVec 32
  romDecodeCache : CodeBlock

namespace CodeSpace

def isValidRamAddress (core : CodeSpace) (addr : BitVec 32) : Bool :=
  addr >>> core.ramSizeLog2 == core.ramBaseMultiple

def isValidRomAddress (core : CodeSpace) (addr : BitVec 32) : Bool :=
  addr - core.romBase < core.romSize

def getDecodeCacheContaining (core : CodeSpace) (addr : BitVec 32) : Option CodeBlock :=
  if core.isValidRamAddress addr then some core.ramDecodeCache
  else if core.isValidRomAddress addr then some core.romDecodeCache
  else none

def getRamSizeShorts (core : CodeSpace) : BitVec 32 := 1#32 <<< (core.ramSizeLog2 - 1)

def getRunJitAddr (core : CodeSpace) : BitVec 32 := core.getRamSizeShorts - 1 + 2

def getInterpretOneAddr (core : CodeSpace) : BitVec 32 := core.getRamSizeShorts - 1 + 3

def checkPc (core : CodeSpace) (pc : BitVec 32) : Bool := pc >>> (core.ramSizeLog2 - 1) == 0

end CodeSpace

structure ThreadContext where
  inUse : Bool := false
  dualIssue : Bool := false
  regs : RegisterFile := fun _ => 0
  regsBuffer : RegisterFile := fun _ => 0
  bufferInitialized : Bool := true
  pc : BitVec 32 := 0
  pendingPc : BitVec 32 := 0
  sr : Status := 0
  decodeCache : CodeBlock

namespace ThreadContext

def setDualIssue (ctx : ThreadContext) (di : Bool) : ThreadContext :=
  if ctx.dualIssue && !di && ctx.bufferInitialized then
    { ctx with
      regs := ctx.regsBuffer, regsBuffer := ctx.regs, bufferInitialized := false, dualIssue := di }
  else { ctx with dualIssue := di }

def writeRegister (ctx : ThreadContext) (index : Register) (value : BitVec 32) : ThreadContext :=
  if !ctx.dualIssue then { ctx with regs := Function.update ctx.regs index value }
  else
    let buffer := if ctx.bufferInitialized then ctx.regsBuffer else ctx.regs
    { ctx with regsBuffer := Function.update buffer index value, bufferInitialized := true }

/-- An assignment to an element of `regs`, past `writeRegister`. -/
def setReg (ctx : ThreadContext) (index : Register) (value : BitVec 32) : ThreadContext :=
  { ctx with regs := Function.update ctx.regs index value }

def readRegisterForTrace (ctx : ThreadContext) (index : Register) : BitVec 32 :=
  if ctx.bufferInitialized then ctx.regsBuffer index else ctx.regs index

def doPendingRegWrites (ctx : ThreadContext) : ThreadContext :=
  if ctx.bufferInitialized then
    { ctx with regs := ctx.regsBuffer, regsBuffer := ctx.regs, bufferInitialized := false }
  else ctx

inductive InstructionSize where
  | short
  | long
  deriving DecidableEq, Repr

/-- Whether an instruction at this pc starts with the pending register writes. -/
def startsPair (size : InstructionSize) (pc : BitVec 32) : Bool :=
  match size with
  | .short => pc.toNat % 2 == 0
  | .long => true

/-- What `emitRegWritePending` puts at the start of every instruction. -/
def regWritePending (ctx : ThreadContext) (size : InstructionSize) : ThreadContext :=
  if startsPair size ctx.pc then ctx.doPendingRegWrites else ctx

/-- What `emitRegWriteBack` emits for one result: short instructions go through the
buffer, long ones do not. -/
def regWriteBack (ctx : ThreadContext) (size : InstructionSize) (index : Register) (value : BitVec 32) :
    ThreadContext :=
  match size with
  | .short => ctx.writeRegister index value
  | .long => ctx.setReg index value

def getRealPc (core : CodeSpace) (ctx : ThreadContext) : BitVec 32 :=
  if ctx.pc = core.getInterpretOneAddr ∨ ctx.pc = core.getRunJitAddr then
    ctx.decodeCache.fromPc ctx.pendingPc
  else ctx.decodeCache.fromPc ctx.pc

/-- `Thread::alloc` leaves the registers as the last owner of the thread left them. -/
def alloc (ctx : ThreadContext) : ThreadContext := { ctx with inUse := true }

def free (ctx : ThreadContext) : ThreadContext := { ctx with inUse := false }

end ThreadContext

end Axe
