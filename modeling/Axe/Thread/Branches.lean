import Axe.Core.Geometry
import Axe.Thread.Kernel

/-! The instructions that branch to an address with `write_pc`. The address is first
translated with the decode cache the thread uses, and only if the index looks too large
is the core asked which cache it belongs to. -/

namespace Axe

namespace CodeSpace

/-- The address is in RAM or ROM, and the block is the decode cache of that memory. -/
def Covers (core : CodeSpace) (block : CodeBlock) (addr : BitVec 32) : Prop :=
  block = core.ramDecodeCache ∧ core.isValidRamAddress addr = true ∨
    block = core.romDecodeCache ∧ core.isValidRomAddress addr = true

def legal (core : CodeSpace) (addr : BitVec 32) : Bool :=
  !isOdd addr && (core.isValidRamAddress addr || core.isValidRomAddress addr)

/-- `write_pc` stays in the block for these addresses and does not ask the core. -/
def reaches (core : CodeSpace) (block : CodeBlock) (addr : BitVec 32) : Bool :=
  core.checkPc (block.toPc addr) || block.contains addr

end CodeSpace

namespace ThreadContext

/-- What an instruction does around its `write_pc`: the issue mode it sets beforehand, the target, and
the results it writes back if it completes. -/
structure PcWrite where
  size : InstructionSize
  switch : Option Bool := none
  target : BitVec 32
  results : List (Register × BitVec 32) := []
  status : Option Status := none

/-- An instruction completes, or calls `exception` in the state it has reached. -/
inductive BranchOutcome where
  | done (ctx : ThreadContext)
  | exception (ctx : ThreadContext) (et : ExceptionType) (ed : BitVec 32)

namespace PcWrite

def switched (write : PcWrite) (ctx : ThreadContext) : ThreadContext :=
  match write.switch with
  | some di => ctx.setDualIssue di
  | none => ctx

def writeBack (write : PcWrite) (ctx : ThreadContext) : ThreadContext :=
  write.results.foldl (fun ctx result => ctx.regWriteBack write.size result.1 result.2) ctx

def execute (write : PcWrite) (core : CodeSpace) (ctx : ThreadContext) : BranchOutcome :=
  let ctx := write.switched ctx
  match ctx.writePc core write.target with
  | none => .exception ctx .illegalPc write.target
  | some (block, nextPc) =>
    let ctx := write.writeBack { ctx with decodeCache := block }
    .done { ctx with pc := nextPc, sr := write.status.getD ctx.sr }

end PcWrite

/-- The instructions with a `write_pc`. The immediate operands are scaled by the decoder where the
source scales them. -/
inductive BranchInstruction where
  | bau (r : Register)
  | bla (r : Register)
  | bru (r : Register)
  | retsp (size : InstructionSize) (u : BitVec 32)
  | retspXs2a (size : InstructionSize) (u : BitVec 32)
  | blat (size : InstructionSize) (u : BitVec 32)
  | blacp (size : InstructionSize) (u : BitVec 32)
  | kret (size : InstructionSize)

namespace BranchInstruction

def size : BranchInstruction → InstructionSize
  | .bau _ | .bla _ | .bru _ => .short
  | .retsp size _ | .retspXs2a size _ | .blat size _ | .blacp size _ | .kret size => size

def nextPc (size : InstructionSize) (ctx : ThreadContext) : BitVec 32 :=
  ctx.pc + match size with
    | .short => 1
    | .long => 2

def issueBit (ctx : ThreadContext) : BitVec 32 := if ctx.dualIssue then 1 else 0

/-- The operands are read after the pending register writes; `load` is what the words of memory hold.
A load from an address that is not valid raises an exception of its own before `write_pc`. -/
def pcWrite (ctx : ThreadContext) (load : BitVec 32 → BitVec 32) : BranchInstruction → PcWrite
  | .bau r => { size := .short, target := ctx.regs r }
  | .bla r =>
    { size := .short
      target := ctx.regs r
      results := [(.lr, ctx.decodeCache.fromPc (nextPc .short ctx) ||| issueBit ctx)] }
  | .bru r =>
    let scale : BitVec 32 := if ctx.dualIssue then 2 else 1
    { size := .short, target := ctx.decodeCache.fromPc (nextPc .short ctx + ctx.regs r * scale) }
  | .retsp size u =>
    let sp := if 0 < u then ctx.regs .sp + u else ctx.regs .sp
    let lr := if 0 < u then load sp else ctx.regs .lr
    { size := size, target := lr, results := [(.sp, sp), (.lr, lr)] }
  | .retspXs2a size u =>
    let sp := if 0 < u then ctx.regs .sp + u else ctx.regs .sp
    let lr := if 0 < u then load sp else ctx.regs .lr
    { size := size, switch := some (isOdd lr), target := lr &&& ~~~1, results := [(.sp, sp)] }
  | .blat size u =>
    { size := size
      target := load (ctx.regs .r11 + (u <<< 2))
      results := [(.lr, ctx.decodeCache.fromPc (nextPc size ctx))] }
  | .blacp size u =>
    { size := size
      target := load (ctx.regs .cp + (u <<< 2))
      results := [(.lr, ctx.decodeCache.fromPc (nextPc size ctx))] }
  | .kret size =>
    { size := size
      target := ctx.regs .spc
      results := [(.ed, ctx.regs .sed)]
      status := some ((Status.ofWord (ctx.regs .ssr)).clear .waiting) }

def execute (instr : BranchInstruction) (core : CodeSpace) (load : BitVec 32 → BitVec 32)
    (ctx : ThreadContext) : BranchOutcome :=
  let ctx := ctx.regWritePending instr.size
  (instr.pcWrite ctx load).execute core ctx

end BranchInstruction

structure ArrivedAt (core : CodeSpace) (post : ThreadContext) (addr : BitVec 32) : Prop where
  covers : core.Covers post.decodeCache addr
  inside : post.pc < post.decodeCache.size
  fromPc : post.decodeCache.fromPc post.pc = addr

/-- The exception for a branch to an illegal address is raised by a thread that is as it was before. -/
structure RaisesIllegalPc (core : CodeSpace) (pre ctx : ThreadContext) (et : ExceptionType)
    (ed addr : BitVec 32) : Prop where
  type : et = .illegalPc
  data : ed = addr
  issueMode : ctx.dualIssue = pre.dualIssue
  registers : ctx.regs = pre.regs
  entry : ∀ entered, ctx.exception core et ed = some entered →
    entered.regs .et = ExceptionType.illegalPc.code ∧ entered.regs .ed = addr ∧
      entered.regs .spc = pre.decodeCache.fromPc pre.pc ∧ entered.dualIssue = pre.dualIssue ∧
      ∀ r : Register, r.isGeneral ∨ r = .kep ∨ r = .ksp → entered.regs r = pre.regs r

/-- A branch arrives at a legal target and raises the exception at any other. -/
def BranchesCorrectly (core : CodeSpace) (pre : ThreadContext) (target : BitVec 32) (out : BranchOutcome) :
    Prop :=
  if core.legal target then ∃ post, out = .done post ∧ ArrivedAt core post target
  else ∃ ctx et ed, out = .exception ctx et ed ∧ RaisesIllegalPc core pre ctx et ed target

/-- What has to be true of a target before the branch: the quick tests take it for an address of the
current block only if it is one, the cache it ends up in has a cell for it, and no issue mode is set on
the way to an exception. -/
structure TargetFits (core : CodeSpace) (pre : ThreadContext) (write : PcWrite) : Prop where
  within : isOdd write.target = false → core.reaches pre.decodeCache write.target = true →
    core.Covers pre.decodeCache write.target ∧ pre.decodeCache.contains write.target = true
  beyond : isOdd write.target = false → core.reaches pre.decodeCache write.target = false →
    ∀ block, core.getDecodeCacheContaining write.target = some block → block.contains write.target = true
  issueMode : core.legal write.target = false → ∀ di ∈ write.switch, di = pre.dualIssue

section

variable (ctx : ThreadContext)

lemma setDualIssue_self : ctx.setDualIssue ctx.dualIssue = ctx := by
  have stays : (ctx.dualIssue && !ctx.dualIssue && ctx.bufferInitialized) = false := by
    cases ctx.dualIssue <;> rfl
  rw [setDualIssue, stays]
  rfl

@[simp] lemma setDualIssue_dualIssue (di : Bool) : (ctx.setDualIssue di).dualIssue = di := by
  simp only [setDualIssue]
  split <;> rfl

@[simp] lemma setDualIssue_decodeCache (di : Bool) : (ctx.setDualIssue di).decodeCache = ctx.decodeCache := by
  simp only [setDualIssue]
  split <;> rfl

@[simp] lemma regWriteBack_decodeCache (size : InstructionSize) (index : Register)
    (value : BitVec 32) : (ctx.regWriteBack size index value).decodeCache = ctx.decodeCache := by
  cases size with
  | short => exact writeRegister_decodeCache ctx index value
  | long => rfl

end

namespace PcWrite

variable (write : PcWrite) (ctx : ThreadContext)

@[simp] lemma switched_decodeCache : (write.switched ctx).decodeCache = ctx.decodeCache := by
  unfold switched
  split
  · exact setDualIssue_decodeCache ctx _
  · rfl

@[simp] lemma writeBack_decodeCache : (write.writeBack ctx).decodeCache = ctx.decodeCache := by
  simp only [writeBack]
  induction write.results generalizing ctx with
  | nil => rfl
  | cons result rest ih => rw [List.foldl_cons, ih, regWriteBack_decodeCache]

lemma switched_eq_iff : (∀ di ∈ write.switch, di = ctx.dualIssue) ↔ write.switched ctx = ctx := by
  unfold switched
  cases write.switch with
  | none => simp
  | some di =>
    constructor
    · intro kept
      rw [kept di rfl]
      exact setDualIssue_self ctx
    · rintro same _ ⟨⟩
      rw [← setDualIssue_dualIssue ctx di]
      exact congrArg dualIssue same

end PcWrite

lemma raisesIllegalPc_self (core : CodeSpace) (ctx : ThreadContext) (addr : BitVec 32) :
    RaisesIllegalPc core ctx ctx .illegalPc addr addr := by
  refine ⟨rfl, rfl, rfl, rfl, fun entered trap => ?_⟩
  simp only [exception] at trap
  split at trap
  · cases trap
  · cases trap
    refine ⟨?_, ?_, ?_, rfl, fun r kept => ?_⟩
    · simp [enterException, setReg]
    · simp [enterException, setReg]
    · simp [enterException, setReg]
    · cases r <;> simp [enterException, setReg, Register.isGeneral] at kept ⊢

lemma raisesIllegalPc_iff (core : CodeSpace) (ctx : ThreadContext) (write : PcWrite) :
    RaisesIllegalPc core ctx (write.switched ctx) .illegalPc write.target write.target ↔
      ∀ di ∈ write.switch, di = ctx.dualIssue := by
  constructor
  · intro raises di set
    have mode := raises.issueMode
    rw [PcWrite.switched, set] at mode
    exact (setDualIssue_dualIssue ctx di).symm.trans mode
  · intro kept
    rw [(write.switched_eq_iff ctx).mp kept]
    exact raisesIllegalPc_self core ctx write.target

section

variable {core : CodeSpace} {ctx : ThreadContext} {addr : BitVec 32}

lemma writePc_of_odd (odd : isOdd addr = true) : ctx.writePc core addr = none := by
  simp [writePc, odd]

lemma writePc_of_reaches (even : isOdd addr = false) (hits : core.reaches ctx.decodeCache addr = true) :
    ctx.writePc core addr = some (ctx.decodeCache, ctx.decodeCache.toPc addr) := by
  simp only [CodeSpace.reaches, Bool.or_eq_true] at hits
  simp only [writePc, even, tryUpdateDecodeCache]
  obtain quick | sub := hits
  · simp [quick]
  · simp [sub]

lemma writePc_of_not_reaches (even : isOdd addr = false)
    (beyond : core.reaches ctx.decodeCache addr = false) : ctx.writePc core addr =
      (core.getDecodeCacheContaining addr).map fun block => (block, block.toPc addr) := by
  simp only [CodeSpace.reaches, Bool.or_eq_false_iff] at beyond
  simp [writePc, even, tryUpdateDecodeCache, beyond.1, beyond.2]

lemma covers_of_getDecodeCacheContaining {block : CodeBlock}
    (found : core.getDecodeCacheContaining addr = some block) : core.Covers block addr := by
  unfold CodeSpace.getDecodeCacheContaining at found
  split at found
  next ram => exact .inl ⟨(Option.some.inj found).symm, ram⟩
  next =>
    split at found
    next rom => exact .inr ⟨(Option.some.inj found).symm, rom⟩
    next => cases found

lemma legal_of_covers {block : CodeBlock} (even : isOdd addr = false) (cov : core.Covers block addr) :
    core.legal addr = true := by
  obtain ⟨-, valid⟩ | ⟨-, valid⟩ := cov <;> simp [CodeSpace.legal, even, valid]

/-- A branch that completes in the block has arrived exactly if the block is the right one and large enough. -/
lemma arrivedAt_iff (even : isOdd addr = false) (write : PcWrite) (block : CodeBlock) (sr : Status) :
    ArrivedAt core { write.writeBack { ctx with decodeCache := block } with
        pc := block.toPc addr, sr := sr } addr ↔
      core.Covers block addr ∧ block.contains addr = true := by
  have cache : (write.writeBack { ctx with decodeCache := block }).decodeCache = block :=
    write.writeBack_decodeCache _
  constructor
  · rintro ⟨cov, isIn, -⟩
    simp only [cache] at cov isIn
    exact ⟨cov, by simpa [CodeBlock.contains] using isIn⟩
  · rintro ⟨cov, sub⟩
    refine ⟨by simpa only [cache] using cov, ?_, ?_⟩
    · simp only [cache]
      simpa [CodeBlock.contains] using sub
    · simp only [cache]
      exact fromPc_toPc_of_not_isOdd block even

end

namespace PcWrite

variable {core : CodeSpace} {ctx : ThreadContext} {write : PcWrite}

lemma correct_iff_of_rejected (no : core.legal write.target = false)
    (fails : (write.switched ctx).writePc core write.target = none) :
    BranchesCorrectly core ctx write.target (write.execute core ctx) ↔
      ∀ di ∈ write.switch, di = ctx.dualIssue := by
  rw [← raisesIllegalPc_iff core ctx write, BranchesCorrectly, no, execute, fails]
  constructor
  · rintro ⟨_, _, _, ⟨⟩, trap⟩
    exact trap
  · exact fun trap => ⟨_, _, _, rfl, trap⟩

lemma correct_iff_of_found (even : isOdd write.target = false) {block : CodeBlock}
    (found : (write.switched ctx).writePc core write.target = some (block, block.toPc write.target)) :
    BranchesCorrectly core ctx write.target (write.execute core ctx) ↔
      core.Covers block write.target ∧ block.contains write.target = true := by
  rw [← arrivedAt_iff even write block, BranchesCorrectly, execute, found]
  cases ok : core.legal write.target with
  | true =>
    constructor
    · rintro ⟨_, ⟨⟩, came⟩
      exact came
    · exact fun came => ⟨_, rfl, came⟩
  | false =>
    -- the branch completes, so the target had better be legal
    constructor
    · rintro ⟨_, _, _, ⟨⟩, -⟩
    · intro came
      have cov := ((arrivedAt_iff even write block _).mp came).1
      simp [legal_of_covers even cov] at ok

/-- A branch goes where it should exactly when its target fits. -/
lemma execute_correct_iff (core : CodeSpace) (ctx : ThreadContext) (write : PcWrite) :
    BranchesCorrectly core ctx write.target (write.execute core ctx) ↔ TargetFits core ctx write := by
  have cache := write.switched_decodeCache ctx
  cases odd : isOdd write.target with
  | true =>
    have no : core.legal write.target = false := by simp [CodeSpace.legal, odd]
    rw [correct_iff_of_rejected no (writePc_of_odd odd)]
    refine ⟨fun kept => ⟨?_, ?_, fun _ => kept⟩, fun fits => fits.issueMode no⟩ <;> simp [odd]
  | false =>
    cases hits : core.reaches ctx.decodeCache write.target with
    | true =>
      rw [correct_iff_of_found odd (writePc_of_reaches odd (by rw [cache]; exact hits)), cache]
      constructor
      · intro isIn
        refine ⟨fun _ _ => isIn, ?_, fun no => ?_⟩
        · simp [hits]
        · simp [legal_of_covers odd isIn.1] at no
      · exact fun fits => fits.within odd hits
    | false =>
      have target := writePc_of_not_reaches odd (cache.symm ▸ hits)
      cases found : core.getDecodeCacheContaining write.target with
      | none =>
        have no : core.legal write.target = false := by
          have nowhere := getDecodeCacheContaining_isSome core write.target
          rw [found] at nowhere
          simp [CodeSpace.legal, ← nowhere]
        rw [correct_iff_of_rejected no (by rw [target, found]; rfl)]
        refine ⟨fun kept => ⟨?_, ?_, fun _ => kept⟩, fun fits => fits.issueMode no⟩ <;> simp [hits, found]
      | some block =>
        have cov := covers_of_getDecodeCacheContaining found
        rw [correct_iff_of_found odd (by rw [target, found]; rfl)]
        constructor
        · rintro ⟨-, sub⟩
          refine ⟨?_, ?_, fun no => ?_⟩
          · simp [hits]
          · simpa [found] using fun _ _ => sub
          · simp [legal_of_covers odd cov] at no
        · exact fun fits => ⟨cov, fits.beyond odd hits block found⟩

end PcWrite

/-- Every branching instruction, in a thread that runs from RAM or from ROM. -/
theorem branch_correct_iff (core : CodeSpace) (load : BitVec 32 → BitVec 32) (instr : BranchInstruction)
    (ctx : ThreadContext) : BranchesCorrectly core (ctx.regWritePending instr.size)
        (instr.pcWrite (ctx.regWritePending instr.size) load).target
        (instr.execute core load ctx) ↔ TargetFits core (ctx.regWritePending instr.size)
        (instr.pcWrite (ctx.regWritePending instr.size) load) :=
  PcWrite.execute_correct_iff core _ _

lemma ramBase_even : (0x10000 : BitVec 32).toNat % 2 = 0 := rfl

def defaultCore : CodeSpace where
  ramSizeLog2 := 16
  ramBaseMultiple := 1
  ramDecodeCache := ⟨0x10000, 0x8000, ramBase_even⟩
  romBase := 0xfff00000
  romSize := 0x2000
  romDecodeCache := ⟨0xfff00000, 0x2000, rfl⟩

def romThread : ThreadContext where
  inUse := true
  regs := fun r => if r = .r0 then 0xfff08000 else 0
  bufferInitialized := false
  decodeCache := defaultCore.romDecodeCache

/-- From ROM a branch to an address in no memory at all completes, behind the cells of the ROM cache. -/
theorem branch_beyond_rom : ¬BranchesCorrectly defaultCore romThread 0xfff08000
      ((BranchInstruction.bau .r0).execute defaultCore (fun _ => 0) romThread) := by
  intro correct
  have illegal : defaultCore.legal 0xfff08000 = false := by decide
  rw [BranchesCorrectly, illegal] at correct
  obtain ⟨_, _, _, raised, -⟩ := correct
  cases raised

end ThreadContext

namespace SystemLayout

def codeSpace (layout : SystemLayout) (ramEven : layout.core.ramDecodeCache.base.toNat % 2 = 0)
    (romEven : layout.romDecodeCache.base.toNat % 2 = 0) : CodeSpace where
  ramSizeLog2 := layout.core.ramSizeLog2
  ramBaseMultiple := layout.core.ramBaseMultiple
  ramDecodeCache := ⟨layout.core.ramDecodeCache.base, layout.core.ramDecodeCache.size, ramEven⟩
  romBase := layout.core.romBase
  romSize := layout.core.romSize
  romDecodeCache := ⟨layout.romDecodeCache.base, layout.romDecodeCache.size, romEven⟩

variable {layout : SystemLayout} {k : Nat} {a : BitVec 32}

/-- Where the RAM cache has a cell for each halfword, the quick tests of a thread in RAM are exact. -/
lemma reaches_ram_iff (al : layout.core.Aligned k) (fits : layout.core.CacheFits k)
    (ramEven : layout.core.ramDecodeCache.base.toNat % 2 = 0) (romEven : layout.romDecodeCache.base.toNat % 2 = 0)
    (even : a.toNat % 2 = 0) : let core := layout.codeSpace ramEven romEven
    core.reaches core.ramDecodeCache a = core.isValidRamAddress a ∧
      core.ramDecodeCache.contains a = core.isValidRamAddress a := by
  have same := (al.ram_agrees fits even).1
  have sub : (layout.codeSpace ramEven romEven).ramDecodeCache.contains a =
      (layout.codeSpace ramEven romEven).isValidRamAddress a := same.symm
  have quick : (layout.codeSpace ramEven romEven).checkPc
      ((layout.codeSpace ramEven romEven).ramDecodeCache.toPc a) =
        (layout.codeSpace ramEven romEven).ramDecodeCache.contains a := by
    have size := fits.2
    rw [Bool.eq_iff_iff]
    simp only [CodeSpace.checkPc, CodeBlock.contains, codeSpace, al.log2, beq_iff_eq, ← BitVec.toNat_inj,
      decide_eq_true_iff, BitVec.lt_def, BitVec.toNat_ushiftRight, Nat.shiftRight_eq_div_pow, size]
    rw [show (0 : BitVec 32).toNat = 0 from rfl, Nat.div_eq_zero_iff]
    have positive := Nat.two_pow_pos (k - 1)
    omega
  exact ⟨by rw [CodeSpace.reaches, quick, Bool.or_self, sub], sub⟩

/-- With the RAM base equal to the RAM size, a branch from RAM is right for every target unless its
instruction sets another issue mode and then raises the exception. -/
lemma targetFits_of_ram (al : layout.core.Aligned k) (fits : layout.core.CacheFits k)
    (rom : layout.romDecodeCache = ⟨layout.core.romSize, layout.core.romBase⟩)
    (ramEven : layout.core.ramDecodeCache.base.toNat % 2 = 0) (romEven : layout.romDecodeCache.base.toNat % 2 = 0)
    (ctx : ThreadContext) (inRam : ctx.decodeCache = (layout.codeSpace ramEven romEven).ramDecodeCache)
    (write : ThreadContext.PcWrite)
    (kept : (layout.codeSpace ramEven romEven).legal write.target = false → ∀ di ∈ write.switch, di = ctx.dualIssue) :
    ThreadContext.TargetFits (layout.codeSpace ramEven romEven) ctx write := by
  have quick (even : isOdd write.target = false) :=
    reaches_ram_iff al fits ramEven romEven (a := write.target) (by
      simp only [isOdd_eq, beq_eq_false_iff_ne] at even
      omega)
  refine ⟨fun even hits => ?_, fun even beyond block found => ?_, kept⟩
  · rw [inRam] at hits ⊢
    have valid := (quick even).1.symm.trans hits
    exact ⟨.inl ⟨rfl, valid⟩, (quick even).2.trans valid⟩
  · rw [inRam, (quick even).1] at beyond
    simp only [CodeSpace.getDecodeCacheContaining, beyond, Bool.false_eq_true, if_false] at found
    split at found
    next valid =>
      cases found
      have off : write.target - layout.core.romBase < layout.core.romSize := of_decide_eq_true valid
      simp only [CodeBlock.contains, CodeBlock.toPc, codeSpace, rom, decide_eq_true_iff]
      rw [BitVec.lt_def] at off ⊢
      rw [BitVec.toNat_ushiftRight, Nat.shiftRight_eq_div_pow]
      omega
    next => cases found

open ThreadContext

/-- Every branching instruction of a thread in RAM is right unless it sets another issue mode and its target is
illegal. -/
theorem branch_from_ram_iff (layout : SystemLayout) (aligned : layout.core.Aligned k) (fits : layout.core.CacheFits k)
    (rom : layout.romDecodeCache = ⟨layout.core.romSize, layout.core.romBase⟩)
    (ramEven : layout.core.ramDecodeCache.base.toNat % 2 = 0) (romEven : layout.romDecodeCache.base.toNat % 2 = 0)
    (load : BitVec 32 → BitVec 32) (instr : BranchInstruction) (ctx : ThreadContext)
    (inRam : ctx.decodeCache = (layout.codeSpace ramEven romEven).ramDecodeCache) :
    let core := layout.codeSpace ramEven romEven
    let pre := ctx.regWritePending instr.size
    let write := instr.pcWrite pre load
    BranchesCorrectly core pre write.target (instr.execute core load ctx) ↔
      (core.legal write.target = false → ∀ di ∈ write.switch, di = pre.dualIssue) := by
  have stays : (ctx.regWritePending instr.size).decodeCache = ctx.decodeCache := by
    unfold regWritePending doPendingRegWrites
    split_ifs <;> rfl
  refine (PcWrite.execute_correct_iff _ _ _).trans ⟨fun right => right.issueMode, fun kept => ?_⟩
  exact targetFits_of_ram aligned fits rom ramEven romEven _ (stays.trans inRam) _ kept

def ramThread : ThreadContext := { romThread with decodeCache := defaultCore.ramDecodeCache }

/-- The target that is taken from ROM raises the exception. -/
theorem bau_from_ram : BranchesCorrectly defaultCore ramThread 0xfff08000
    ((BranchInstruction.bau .r0).execute defaultCore (fun _ => 0) ramThread) :=
  (branch_from_ram_iff ⟨⟨16, 1, ⟨0x8000, 0x10000⟩, 0xfff00000, 0x2000⟩, ⟨0x2000, 0xfff00000⟩⟩ (k := 16)
    ⟨rfl, by decide, by decide, rfl⟩ ⟨by decide, rfl⟩ rfl rfl rfl (fun _ => 0) (.bau .r0) ramThread rfl).mpr
    fun _ _ none => nomatch none

end SystemLayout

end Axe
