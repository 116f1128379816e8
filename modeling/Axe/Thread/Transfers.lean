import Axe.Thread.Branches

/-! Transfers of control that no branch makes: entry into the exception handler and the
delivery of events and interrupts. The handler's address is translated with the decode
cache the thread has at that moment; the vector of a resource was translated when it was
set, with the decode cache of the thread that set it. -/

namespace Axe

open Axe.ThreadContext

/-- The parts of an `EventableResource` that say where its owner is sent. What the last `setv` was given
and the cache it was translated with are noted down beside the vector; nothing reads them. -/
structure EventSource where
  owner : Nat
  vector : BitVec 32
  given : Option (BitVec 32 × CodeBlock)

structure ControlState where
  core : CodeSpace
  threads : Nat → ThreadContext
  resources : Nat → EventSource

inductive ControlStep where
  /-- `eventableSetInUseOn`. -/
  | setInUse (t r : Nat)
  /-- Any other operation of a thread on the resource makes the thread its owner. -/
  | updateOwner (t r : Nat)
  | setv (t r : Nat) (addr : BitVec 32)
  | branch (t : Nat) (instruction : BranchInstruction) (load : BitVec 32 → BitVec 32)
  /-- The loader and the debugger set the pc of a thread. -/
  | setPcFromAddress (t : Nat) (addr : BitVec 32)
  /-- Any other instruction changes registers and goes on in the same cache. -/
  | compute (t : Nat) (regs : RegisterFile) (sr : Status) (pc : BitVec 32)
  /-- `SETPS` of the RAM base. -/
  | setRamBase (value : BitVec 32)
  | exception (t : Nat) (et : ExceptionType) (ed : BitVec 32)
  | event (r : Nat) (intr : Bool) (ev : BitVec 32)

def CodeSpace.setRamBase (core : CodeSpace) (value : BitVec 32) : Option CodeSpace :=
  let size := 1#32 <<< core.ramSizeLog2
  let base := size * (value / size)
  if even : base.toNat % 2 = 0 then
    some { core with
      ramBaseMultiple := value / size
      ramDecodeCache := ⟨base, core.ramDecodeCache.size, even⟩ }
  else none

namespace ThreadContext

def seeRamDecodeCacheChange (core : CodeSpace) (ctx : ThreadContext) : ThreadContext :=
  if ctx.decodeCache.base = core.romDecodeCache.base then ctx
  else { ctx with decodeCache := core.ramDecodeCache }

/-- `setPcFromAddress` asserts that the address is even and in some memory. -/
def setPcFromAddress (core : CodeSpace) (ctx : ThreadContext) (addr : BitVec 32) : Option ThreadContext :=
  if isOdd addr then none
  else (ctx.tryUpdateDecodeCache core addr).map fun block =>
    { ctx with decodeCache := block, pc := block.toPc addr }

/-- The pc is the index of a cell of the opcode array, which has four more than the cache has halfwords. -/
def InOpcodeArray (ctx : ThreadContext) : Prop := ctx.pc.toNat < ctx.decodeCache.size.toNat + 4

end ThreadContext

namespace ControlState

def setThread (st : ControlState) (t : Nat) (ctx : ThreadContext) : ControlState :=
  { st with threads := Function.update st.threads t ctx }

def setResource (st : ControlState) (r : Nat) (src : EventSource) : ControlState :=
  { st with resources := Function.update st.resources r src }

/-- `SETV` stores an index if it passes `CHECK_PC`, and the simulator gives up otherwise. -/
def setv (st : ControlState) (t r : Nat) (addr : BitVec 32) : Option ControlState :=
  let block := (st.threads t).decodeCache
  if st.core.checkPc (block.toPc addr) then
    some (st.setResource r { owner := t, vector := block.toPc addr, given := some (addr, block) })
  else none

/-- A state without a successor is one in which the simulator aborts. -/
def act (st : ControlState) : ControlStep → Option ControlState
  | .setInUse t r => some (st.setResource r { owner := t, vector := 0, given := none })
  | .updateOwner t r => some (st.setResource r { st.resources r with owner := t })
  | .setv t r addr => st.setv t r addr
  | .branch t instruction load =>
    match instruction.execute st.core load (st.threads t) with
    -- the call of `exception` is a step of its own
    | .done ctx | .exception ctx _ _ => some (st.setThread t ctx)
  | .setPcFromAddress t addr => ((st.threads t).setPcFromAddress st.core addr).map (st.setThread t)
  | .compute t regs sr pc => some (st.setThread t { st.threads t with regs := regs, sr := sr, pc := pc })
  | .setRamBase value =>
    (st.core.setRamBase value).map fun core =>
      { st with core := core, threads := fun t => (st.threads t).seeRamDecodeCacheChange core }
  | .exception t et ed => ((st.threads t).exception st.core et ed).map (st.setThread t)
  | .event r intr ev =>
    let src := st.resources r
    some (st.setThread src.owner ((st.threads src.owner).takeEvent intr ev src.vector))

def step (st : Option ControlState) (label : ControlStep) : Option ControlState := st.bind (·.act label)

/-- Exception entry goes to KEP, or 64 bytes on for a kernel call. -/
def EntersHandler (core : CodeSpace) (ctx : ThreadContext) (et : ExceptionType) (ed : BitVec 32) : Prop :=
  ∀ entered, ctx.exception core et ed = some entered →
    entered.decodeCache.fromPc entered.pc = ctx.handlerAddress et ∧ entered.InOpcodeArray

/-- The owner of a resource is sent to the address that `setv` was given. -/
def ReachesVector (ctx : ThreadContext) (src : EventSource) (intr : Bool) (ev : BitVec 32) : Prop :=
  ∀ addr block, src.given = some (addr, block) →
    (ctx.takeEvent intr ev src.vector).decodeCache.fromPc
        (ctx.takeEvent intr ev src.vector).pc = addr ∧
      (ctx.takeEvent intr ev src.vector).InOpcodeArray

def TransfersRight (st : ControlState) : ControlStep → Prop
  | .exception t et ed => EntersHandler st.core (st.threads t) et ed
  | .event r intr ev =>
    ReachesVector (st.threads (st.resources r).owner) (st.resources r) intr ev
  | _ => True

/-- A handler that the simulator accepts has a cell in the opcode array of the thread's current cache. -/
def HandlerFits (core : CodeSpace) (ctx : ThreadContext) (et : ExceptionType) : Prop :=
  isOdd (ctx.handlerAddress et) = false → core.isValidRamAddress (ctx.handlerAddress et) = true →
    (ctx.decodeCache.toPc (ctx.handlerAddress et)).toNat < ctx.decodeCache.size.toNat + 4

/-- The owner runs from a cache with the base of the one the vector was translated with, and that has a
cell for it; and the address given to `setv` was even. -/
def VectorFits (ctx : ThreadContext) (src : EventSource) : Prop :=
  ∀ addr block, src.given = some (addr, block) →
    isOdd addr = false ∧ ctx.decodeCache.base = block.base ∧
      (block.toPc addr).toNat < ctx.decodeCache.size.toNat + 4

def TransfersFit (st : ControlState) : ControlStep → Prop
  | .exception t et _ => HandlerFits st.core (st.threads t) et
  | .event r _ _ => VectorFits (st.threads (st.resources r).owner) (st.resources r)
  | _ => True

lemma entersHandler_iff (core : CodeSpace) (ctx : ThreadContext) (et : ExceptionType) (ed : BitVec 32) :
    EntersHandler core ctx et ed ↔ HandlerFits core ctx et := by
  have same : (ctx.enterException et ed).handlerAddress et = ctx.handlerAddress et := by
    simp [handlerAddress, enterException, setReg]
  simp only [EntersHandler, HandlerFits, exception, same]
  cases odd : isOdd (ctx.handlerAddress et) with
  | true => simp
  | false =>
    cases valid : core.isValidRamAddress (ctx.handlerAddress et) with
    | false => simp
    | true =>
      have arr := fromPc_toPc_of_not_isOdd ctx.decodeCache odd
      constructor
      · exact fun enters _ _ => (enters _ rfl).2
      · rintro fits _ ⟨⟩
        exact ⟨arr, fits rfl rfl⟩

@[simp] lemma takeEvent_decodeCache (ctx : ThreadContext) (intr : Bool) (ev vector : BitVec 32) :
    (ctx.takeEvent intr ev vector).decodeCache = ctx.decodeCache := by
  cases intr <;> simp [takeEvent, completeEvent, setReg]

@[simp] lemma takeEvent_pc (ctx : ThreadContext) (intr : Bool) (ev vector : BitVec 32) :
    (ctx.takeEvent intr ev vector).pc = vector := rfl

lemma fromPc_toPc_iff (block other : CodeBlock) (addr : BitVec 32) :
    other.fromPc (block.toPc addr) = addr ↔ isOdd addr = false ∧ other.base = block.base := by
  constructor
  · intro arr
    have even : isOdd addr = false := by
      rw [← arr]
      exact isOdd_fromPc other _
    refine ⟨even, ?_⟩
    have home := fromPc_toPc_of_not_isOdd block even
    exact (BitVec.add_right_inj _).mp (arr.trans home.symm)
  · rintro ⟨even, same⟩
    rw [CodeBlock.fromPc, same]
    exact fromPc_toPc_of_not_isOdd block even

/-- Vectors are what `toPc` made of the addresses noted down beside them. -/
def Translated (st : ControlState) : Prop :=
  ∀ r addr block, (st.resources r).given = some (addr, block) →
    (st.resources r).vector = block.toPc addr

lemma reachesVector_iff {ctx : ThreadContext} {src : EventSource} (intr : Bool) (ev : BitVec 32)
    (made : ∀ addr block, src.given = some (addr, block) → src.vector = block.toPc addr) :
    ReachesVector ctx src intr ev ↔ VectorFits ctx src := by
  refine forall_congr' fun addr => forall_congr' fun block => forall_congr' fun given => ?_
  rw [InOpcodeArray, takeEvent_decodeCache, takeEvent_pc, made addr block given, fromPc_toPc_iff, and_assoc]

variable {st now : ControlState}

lemma Translated.setThread (made : st.Translated) (t : Nat)
    (ctx : ThreadContext) : (st.setThread t ctx).Translated := made

lemma Translated.setResource (made : st.Translated) (r : Nat) (src : EventSource)
    (right : ∀ addr block, src.given = some (addr, block) → src.vector = block.toPc addr) :
    (st.setResource r src).Translated := by
  intro other
  by_cases same : other = r
  · simpa [ControlState.setResource, same] using right
  · simpa [ControlState.setResource, Function.update_of_ne same] using made other

lemma Translated.act (made : st.Translated) (label : ControlStep)
    (acted : st.act label = some now) : now.Translated := by
  cases label with
  | setInUse t r =>
    cases acted
    exact made.setResource r _ (by simp)
  | updateOwner t r =>
    cases acted
    exact made.setResource r _ (made r)
  | setv t r addr =>
    simp only [ControlState.act, ControlState.setv] at acted
    split at acted
    · cases acted
      refine made.setResource r _ fun given block same => ?_
      cases same
      rfl
    · cases acted
  | branch t instruction load =>
    simp only [ControlState.act] at acted
    split at acted <;> cases acted
    · exact made.setThread t _
    · exact made.setThread t _
  | setPcFromAddress t addr =>
    obtain ⟨ctx, -, rfl⟩ := Option.map_eq_some_iff.mp acted
    exact made.setThread t ctx
  | compute t regs sr pc =>
    cases acted
    exact made.setThread t _
  | setRamBase value =>
    obtain ⟨core, -, rfl⟩ := Option.map_eq_some_iff.mp acted
    exact made
  | exception t et ed =>
    obtain ⟨ctx, -, rfl⟩ := Option.map_eq_some_iff.mp acted
    exact made.setThread t ctx
  | event r intr ev =>
    cases acted
    exact made.setThread _ _

lemma Translated.run {start : ControlState} (made : start.Translated) {steps : List ControlStep}
    (reach : steps.foldl step (some start) = some now) : now.Translated := by
  have kept (st : Option ControlState) (label : ControlStep) (pre : ∀ now ∈ st, now.Translated) :
      ∀ now ∈ step st label, now.Translated := by
    intro now acted
    obtain ⟨earlier, here, acted⟩ := Option.bind_eq_some_iff.mp acted
    exact (pre earlier here).act label acted
  have init : ∀ now ∈ some start, now.Translated := by
    rintro _ ⟨⟩
    exact made
  exact Runs.invariant kept init steps now reach

/-- In every state that a run reaches, a transfer arrives exactly when the index it uses fits the decode cache
of the thread. -/
theorem transfersRight_iff {start now : ControlState} (unset : ∀ r, (start.resources r).given = none)
    {steps : List ControlStep} (reach : steps.foldl step (some start) = some now) (label : ControlStep) :
    now.TransfersRight label ↔ now.TransfersFit label := by
  have made : now.Translated := Translated.run (fun r => by simp [unset r]) reach
  cases label with
  | exception t et ed => exact entersHandler_iff now.core (now.threads t) et ed
  | event r intr ev => exact reachesVector_iff intr ev (made r)
  | _ => exact Iff.rfl

def ready : ControlState where
  core := defaultCore
  threads _ :=
    { regs := fun r => if r = .kep then 0x10080 else if r = .r0 then 0xfff00000 else 0
      bufferInitialized := false
      decodeCache := defaultCore.ramDecodeCache }
  resources _ := { owner := 0, vector := 0, given := none }

def after (steps : List ControlStep) : ControlState := (steps.foldl step (some ready)).getD ready

/-- A thread that branches to ROM and gets an exception there calls through the opcode array behind its end. -/
theorem exception_in_rom : [ControlStep.branch 0 (.bau .r0) fun _ => 0].foldl step (some ready) =
        some (after [.branch 0 (.bau .r0) fun _ => 0]) ∧
      ¬(after [.branch 0 (.bau .r0) fun _ => 0]).TransfersRight (.exception 0 .arithmetic 0) := by
  refine ⟨rfl, fun right => ?_⟩
  have entered := (right _ rfl).2
  simp only [InOpcodeArray] at entered
  revert entered
  decide

/-- A vector that is set in RAM and an exception and an event that are taken there. -/
theorem transfersRight_in_ram : [ControlStep.setv 0 3 0x10200, .exception 1 .ecall 0].foldl step (some ready) =
        some (after [.setv 0 3 0x10200, .exception 1 .ecall 0]) ∧
      (after [.setv 0 3 0x10200, .exception 1 .ecall 0]).TransfersRight (.event 3 true 0) := by
  have reach : [ControlStep.setv 0 3 0x10200, .exception 1 .ecall 0].foldl step (some ready) =
      some (after [.setv 0 3 0x10200, .exception 1 .ecall 0]) := rfl
  refine ⟨reach, (transfersRight_iff (fun _ => rfl) reach (.event 3 true 0)).mpr ?_⟩
  rintro addr block ⟨⟩
  decide

end ControlState

end Axe
