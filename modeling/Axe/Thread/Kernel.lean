import Axe.Thread.Registers

/-! Entry into the kernel by an exception or an interrupt, and the way back by
`KRET`. -/

namespace Axe

inductive ExceptionType where
  | linkError | illegalPc | illegalInstruction | illegalResource | loadStore | illegalPs | arithmetic
  | ecall | resourceDep | kcall
  deriving DecidableEq, Repr

def ExceptionType.code : ExceptionType → BitVec 32
  | .linkError => 1
  | .illegalPc => 2
  | .illegalInstruction => 3
  | .illegalResource => 4
  | .loadStore => 5
  | .illegalPs => 6
  | .arithmetic => 7
  | .ecall => 8
  | .resourceDep => 9
  | .kcall => 15

def Register.isGeneral : Register → Bool
  | .et | .ed | .kep | .ksp | .spc | .sed | .ssr => false
  | _ => true

def isOdd (addr : BitVec 32) : Bool := addr &&& 1#32 != 0#32

lemma isOdd_eq (addr : BitVec 32) : isOdd addr = (addr.toNat % 2 == 1) := by
  have low : (addr &&& 1#32).toNat = addr.toNat % 2 := by
    rw [BitVec.toNat_and]
    exact Nat.and_one_is_mod _
  by_cases odd : addr.toNat % 2 = 1
  · have : addr &&& 1#32 ≠ 0#32 := fun zero => by rw [zero] at low; simp at low; omega
    simp [isOdd, this, odd]
  · have : addr &&& 1#32 = 0#32 := BitVec.eq_of_toNat_eq (by rw [low]; simp; omega)
    simp [isOdd, this, odd]

namespace ThreadContext

def enterException (ctx : ThreadContext) (et : ExceptionType) (ed : BitVec 32) : ThreadContext :=
  let sed := ctx.regs .ed
  let spc := ctx.decodeCache.fromPc ctx.pc
  -- the status register goes to the tracer only, the register SSR gets sed
  let ctx := ((ctx.setReg .ssr sed).setReg .spc spc).setReg .sed sed
  let ctx := { ctx with sr := ((ctx.sr.set .ink).clear .eeble).clear .ieble }
  (ctx.setReg .et et.code).setReg .ed ed

def handlerAddress (ctx : ThreadContext) (et : ExceptionType) : BitVec 32 :=
  ctx.regs .kep + if et = .kcall then 64 else 0

/-- `exception`; the pc it returns is the thread's pc afterwards. Without a handler
in RAM the simulator aborts. -/
def exception (core : CodeSpace) (ctx : ThreadContext) (et : ExceptionType) (ed : BitVec 32) :
    Option ThreadContext :=
  let ctx := ctx.enterException et ed
  let newPc := ctx.handlerAddress et
  if isOdd newPc || !core.isValidRamAddress newPc then none
  else some { ctx with pc := ctx.decodeCache.toPc newPc }

/-- `SystemState::completeEvent` with `EventableResource::completeEvent`: the owner of
the resource is sent to the vector with the resource's event value in ED. -/
def completeEvent (ctx : ThreadContext) (interrupt : Bool) (ev vector : BitVec 32) : ThreadContext :=
  let ctx :=
    if interrupt then
      let ctx := ctx.setReg .ssr ctx.sr.toWord
      let ctx := ctx.setReg .spc (ctx.decodeCache.fromPc ctx.pc)
      let ctx := ctx.setReg .sed (ctx.regs .ed)
      { ctx with sr := ((ctx.sr.clear .ieble).set .inint).set .ink }
    else { ctx with sr := ctx.sr.clear .inenb }
  let ctx := { ctx with sr := ctx.sr.clear .eeble }
  { ctx.writeRegister .ed ev with pc := vector }

/-- Both forms of `SystemState::takeEvent` clear WAITING before the event is completed. -/
def takeEvent (ctx : ThreadContext) (interrupt : Bool) (ev vector : BitVec 32) : ThreadContext :=
  { ctx with sr := ctx.sr.clear .waiting }.completeEvent interrupt ev vector

def tryUpdateDecodeCache (core : CodeSpace) (ctx : ThreadContext) (addr : BitVec 32) :
    Option CodeBlock :=
  if ctx.decodeCache.contains addr then some ctx.decodeCache
  else core.getDecodeCacheContaining addr

/-- The block and the pc that `write_pc` goes to; without a result it raises an exception. -/
def writePc (core : CodeSpace) (ctx : ThreadContext) (addr : BitVec 32) :
    Option (CodeBlock × BitVec 32) :=
  if isOdd addr then none
  else if core.checkPc (ctx.decodeCache.toPc addr) then
    some (ctx.decodeCache, ctx.decodeCache.toPc addr)
  else (ctx.tryUpdateDecodeCache core addr).map fun block => (block, block.toPc addr)

/-- How an instruction ends: completed, or with the exception that it raises. -/
inductive Outcome where
  | done (ctx : ThreadContext)
  | raised (handler : Option ThreadContext)

/-- `KRET`, in its short and its long form. `setSR` leaves the status register given
here; an event that it makes ready is taken afterwards. -/
def kret (core : CodeSpace) (size : InstructionSize) (ctx : ThreadContext) : Outcome :=
  let ctx := ctx.regWritePending size
  let ed := ctx.regs .sed
  let value := (Status.ofWord (ctx.regs .ssr)).clear .waiting
  match ctx.writePc core (ctx.regs .spc) with
  | none => .raised (ctx.exception core .illegalPc (ctx.regs .spc))
  | some (block, nextPc) =>
    let ctx := { ctx with decodeCache := block }.regWriteBack size .ed ed
    .done { ctx with pc := nextPc, sr := value }

/-- The addresses that `write_pc` accepts from a thread that runs in the block. -/
def legalTarget (core : CodeSpace) (block : CodeBlock) (addr : BitVec 32) : Bool :=
  !isOdd addr &&
    (core.checkPc (block.toPc addr) || block.contains addr ||
      core.isValidRamAddress addr || core.isValidRomAddress addr)

lemma isOdd_fromPc (block : CodeBlock) (pc : BitVec 32) : isOdd (block.fromPc pc) = false := by
  simp [isOdd_eq, block.fromPc_even pc]

variable {addr : BitVec 32} {core : CodeSpace} {ctx : ThreadContext}

lemma fromPc_toPc_of_not_isOdd (block : CodeBlock) (even : isOdd addr = false) :
    block.fromPc (block.toPc addr) = addr := by
  refine block.fromPc_toPc ?_
  simp only [isOdd_eq, beq_eq_false_iff_ne] at even
  omega

lemma getDecodeCacheContaining_isSome (core : CodeSpace) (addr : BitVec 32) :
    (core.getDecodeCacheContaining addr).isSome =
      (core.isValidRamAddress addr || core.isValidRomAddress addr) := by
  unfold CodeSpace.getDecodeCacheContaining
  cases core.isValidRamAddress addr <;> cases core.isValidRomAddress addr <;> rfl

lemma writePc_isSome (core : CodeSpace) (ctx : ThreadContext) (addr : BitVec 32) :
    (ctx.writePc core addr).isSome = legalTarget core ctx.decodeCache addr := by
  simp only [writePc, tryUpdateDecodeCache, legalTarget]
  cases isOdd addr with
  | true => rfl
  | false =>
    cases core.checkPc (ctx.decodeCache.toPc addr) with
    | true => rfl
    | false =>
      cases ctx.decodeCache.contains addr with
      | true => rfl
      | false => simp [getDecodeCacheContaining_isSome]

lemma fromPc_of_writePc {pc : BitVec 32} {block : CodeBlock}
    (dst : ctx.writePc core addr = some (block, pc)) : block.fromPc pc = addr := by
  simp only [writePc] at dst
  cases odd : isOdd addr with
  | true => simp [odd] at dst
  | false =>
    simp only [odd, Bool.false_eq_true, if_false] at dst
    split at dst
    · simp only [Option.some.injEq, Prod.mk.injEq] at dst
      obtain ⟨rfl, rfl⟩ := dst
      exact fromPc_toPc_of_not_isOdd _ odd
    · simp only [Option.map_eq_some_iff, Prod.mk.injEq] at dst
      obtain ⟨found, -, rfl, rfl⟩ := dst
      exact fromPc_toPc_of_not_isOdd _ odd

/-- The thread as a completed `KRET` leaves it at the given place. -/
def returned (size : InstructionSize) (flushed : ThreadContext) (block : CodeBlock) (nextPc : BitVec 32) :
    ThreadContext :=
  { { flushed with decodeCache := block }.regWriteBack size .ed (flushed.regs .sed) with
    pc := nextPc, sr := (Status.ofWord (flushed.regs .ssr)).clear .waiting }

@[simp] lemma writeRegister_decodeCache (ctx : ThreadContext) (index : Register) (value : BitVec 32) :
    (ctx.writeRegister index value).decodeCache = ctx.decodeCache := by
  simp only [writeRegister]
  split <;> rfl

@[simp] lemma returned_decodeCache (size : InstructionSize) (flushed : ThreadContext) (block : CodeBlock)
    (next : BitVec 32) : (returned size flushed block next).decodeCache = block := by
  cases size with
  | short => simp [returned, regWriteBack]
  | long => rfl

/-- `KRET` completes with a property exactly when its target is legal and the property
holds of the thread it leaves there. -/
lemma kret_done_iff {size : InstructionSize} {flushed : ThreadContext} (flush : ctx.regWritePending size = flushed)
    {prop : ThreadContext → Prop} {holds : Prop}
    (described : ∀ block next, block.fromPc next = flushed.regs .spc →
      (prop (returned size flushed block next) ↔ holds)) :
    (∃ post, ctx.kret core size = .done post ∧ prop post) ↔
      legalTarget core flushed.decodeCache (flushed.regs .spc) = true ∧ holds := by
  subst flush
  rw [← writePc_isSome]
  simp only [kret]
  cases dst : (ctx.regWritePending size).writePc core ((ctx.regWritePending size).regs .spc) with
  | none => simp
  | some place =>
    obtain ⟨block, next⟩ := place
    have there := described block next (fromPc_of_writePc dst)
    constructor
    · rintro ⟨post, done, prop⟩
      cases done
      exact ⟨rfl, there.mp prop⟩
    · rintro ⟨-, holds⟩
      exact ⟨_, rfl, there.mpr holds⟩

/-- What an exception saves, and that it leaves the general registers alone. -/
structure Entered (ctx entered : ThreadContext) : Prop where
  ssr : entered.regs .ssr = ctx.regs .ed
  spc : entered.regs .spc = ctx.decodeCache.fromPc ctx.pc
  sed : entered.regs .sed = ctx.regs .ed
  general : ∀ r : Register, r.isGeneral → entered.regs r = ctx.regs r

lemma exception_entered {into : ThreadContext} {et : ExceptionType} {ed : BitVec 32}
    (trap : ctx.exception core et ed = some into) : Entered ctx into := by
  simp only [exception] at trap
  split at trap
  · cases trap
  · cases trap
    refine ⟨?_, ?_, ?_, ?_⟩
    · simp [enterException, setReg]
    · simp [enterException, setReg]
    · simp [enterException, setReg]
    · intro r general
      cases r <;> simp [enterException, setReg, Register.isGeneral] at general ⊢

lemma regWritePending_of_unbuffered (noBuf : ctx.bufferInitialized = false)
    (size : InstructionSize) : ctx.regWritePending size = ctx := by
  simp [regWritePending, doPendingRegWrites, noBuf]

lemma regWriteBack_of_single (one : ctx.dualIssue = false) (size : InstructionSize) (index : Register)
    (value : BitVec 32) : ctx.regWriteBack size index value = ctx.setReg index value := by
  cases size <;> simp [regWriteBack, writeRegister, setReg, one]

/-- The kernel was entered from `thread` and left to `after` by a `KRET` in the state
`handler`, and nothing the interrupted code can see has changed. -/
structure RoundTrip (ctx entered handler post : ThreadContext) : Prop where
  status : post.sr = ctx.sr.clear .waiting
  eventData : post.regs .ed = ctx.regs .ed
  pc : post.decodeCache.fromPc post.pc = ctx.decodeCache.fromPc ctx.pc
  entry : ∀ r : Register, r.isGeneral → entered.regs r = ctx.regs r
  exit : ∀ r : Register, r.isGeneral → post.regs r = handler.regs r

/-- A single-issue handler that keeps SPC, SSR and SED brings the interrupted state back
exactly when the low bits of ED happen to be the status register. -/
theorem exception_kret_iff {core : CodeSpace} {ctx entered handler : ThreadContext} {et : ExceptionType}
    {ed : BitVec 32} {size : InstructionSize} (raised : ctx.exception core et ed = some entered)
    (single : handler.dualIssue = false) (unbuffered : handler.bufferInitialized = false)
    (kept : ∀ r, r = .spc ∨ r = .ssr ∨ r = .sed → handler.regs r = entered.regs r) :
    (∃ post, handler.kret core size = .done post ∧ RoundTrip ctx entered handler post) ↔
      legalTarget core handler.decodeCache (ctx.decodeCache.fromPc ctx.pc) = true ∧
        (Status.ofWord (ctx.regs .ed)).clear .waiting = ctx.sr.clear .waiting := by
  have entry := exception_entered raised
  have spc : handler.regs .spc = ctx.decodeCache.fromPc ctx.pc :=
    (kept .spc (by simp)).trans entry.spc
  have ssr : handler.regs .ssr = ctx.regs .ed := (kept .ssr (by simp)).trans entry.ssr
  have sed : handler.regs .sed = ctx.regs .ed := (kept .sed (by simp)).trans entry.sed
  rw [← spc]
  refine kret_done_iff (regWritePending_of_unbuffered unbuffered size) fun block nextPc dst => ?_
  have regs : (returned size handler block nextPc).regs = Function.update handler.regs .ed (ctx.regs .ed) := by
    rw [returned, regWriteBack_of_single (by exact single), sed, setReg]
  have sr : (returned size handler block nextPc).sr = (Status.ofWord (ctx.regs .ed)).clear .waiting := by
    rw [← ssr]
    rfl
  constructor
  · intro trip
    rw [← sr, trip.status]
  · intro same
    refine ⟨sr.trans same, ?_, ?_, entry.general, ?_⟩
    · rw [regs, Function.update_self]
    · rw [returned_decodeCache]
      exact dst.trans spc
    · intro r general
      have other : r ≠ .ed := fun isEd => by simp [isEd, Register.isGeneral] at general
      rw [regs, Function.update_of_ne other]

def smallCore : CodeSpace where
  ramSizeLog2 := 16
  ramBaseMultiple := 1
  ramDecodeCache := ⟨0x10000, 0x8000, rfl⟩
  romBase := 0
  romSize := 0
  romDecodeCache := ⟨0, 0, rfl⟩

def interruptible : ThreadContext where
  inUse := true
  regs := fun r => if r = .kep then 0x10100 else 0
  bufferInitialized := false
  pc := 0x20
  sr := 2
  decodeCache := smallCore.ramDecodeCache

/-- After an exception and a `KRET` at the handler's first instruction interrupts are off. -/
theorem exception_kret_loses_ieble : ∃ entered post, interruptible.exception smallCore .arithmetic 0 = some entered ∧
      entered.kret smallCore .short = .done post ∧ ¬RoundTrip interruptible entered entered post := by
  refine ⟨_, _, rfl, rfl, fun trip => ?_⟩
  have kept : (0 : Status) = 2 := trip.status
  exact absurd kept (by decide)

/-- A thread whose status register is zero, as its ED is. -/
def uninterruptible : ThreadContext := { interruptible with sr := 0 }

theorem exception_kret_uninterruptible : ∃ entered, uninterruptible.exception smallCore .arithmetic 0 = some entered ∧
      ∃ post, entered.kret smallCore .short = .done post ∧ RoundTrip uninterruptible entered entered post := by
  have raised : uninterruptible.exception smallCore .arithmetic 0 = some _ := rfl
  exact ⟨_, raised, (exception_kret_iff raised rfl rfl fun _ _ => rfl).mpr ⟨rfl, rfl⟩⟩

end ThreadContext

end Axe
