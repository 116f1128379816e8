import Axe.Thread.Kernel

/-! An interrupt and the `KRET` of a handler that does nothing else. Entry writes
SSR, SPC and SED into the current register file and ED through the buffer, so what
`KRET` finds depends on whether register writes were pending. -/

namespace Axe

open Function

namespace ThreadContext

/-- The interrupted code goes on as if nothing had happened: the status register, the
real pc and every register other than the three that entry writes are back. -/
structure Resumed (core : CodeSpace) (pre post : ThreadContext) : Prop where
  status : post.sr = pre.sr.clear .waiting
  pc : post.decodeCache.fromPc post.pc = pre.getRealPc core
  registers : ∀ r : Register, r ≠ .spc → r ≠ .ssr → r ≠ .sed →
    post.readRegisterForTrace r = pre.readRegisterForTrace r

def saved (ctx : ThreadContext) : RegisterFile :=
  update (update (update ctx.regs
    .ssr (ctx.sr.clear .waiting).toWord)
    .spc (ctx.decodeCache.fromPc ctx.pc))
    .sed (ctx.regs .ed)

lemma saved_other (ctx : ThreadContext) {r : Register} (notSpc : r ≠ .spc) (notSsr : r ≠ .ssr)
    (notSed : r ≠ .sed) : ctx.saved r = ctx.regs r := by
  simp [saved, notSpc, notSsr, notSed]

def interruptStatus (sr : Status) : Status :=
  ((((sr.clear .waiting).clear .ieble).set .inint).set .ink).clear .eeble

lemma takeEvent_interrupt (ctx : ThreadContext) (ev vector : BitVec 32) : ctx.takeEvent true ev vector =
      { { ctx with regs := ctx.saved, sr := interruptStatus ctx.sr }.writeRegister .ed ev with
        pc := vector } := by
  -- SED is read after SSR and SPC were assigned, neither of which is ED
  have eventData : update (update ctx.regs .ssr (ctx.sr.clear .waiting).toWord)
      .spc (ctx.decodeCache.fromPc ctx.pc) .ed = ctx.regs .ed := by
    simp
  simp only [takeEvent, completeEvent, if_true, setReg, eventData]
  rfl

lemma returned_readRegisterForTrace (size : InstructionSize) (flushed : ThreadContext) (block : CodeBlock)
    (next : BitVec 32) (r : Register) : (returned size flushed block next).readRegisterForTrace r =
      if flushed.bufferInitialized && (size = .long || !flushed.dualIssue) then flushed.regsBuffer r
      else if r = .ed then flushed.regs .sed
      else flushed.readRegisterForTrace r := by
  obtain ⟨inUse, dual, regs, buf, pend, pc, pendingPc, sr, cache⟩ := flushed
  cases size <;> cases dual <;> cases pend <;>
    simp [returned, regWriteBack, writeRegister, setReg, readRegisterForTrace, update_apply]

/-- What the handler's `KRET` reads and what becomes of the other registers. -/
structure HandlerSees (size : InstructionSize) (flushed : ThreadContext) (spc ssr sed : BitVec 32)
    (cache : CodeBlock) (post : RegisterFile) : Prop where
  spc : flushed.regs .spc = spc
  ssr : flushed.regs .ssr = ssr
  sed : flushed.regs .sed = sed
  cache : flushed.decodeCache = cache
  registers : ∀ block nextPc, ∀ r : Register, r ≠ .spc → r ≠ .ssr → r ≠ .sed →
    (returned size flushed block nextPc).readRegisterForTrace r = post r

section

variable {ctx : ThreadContext} {size : InstructionSize} {vector : BitVec 32} (ev : BitVec 32)

/-- Pending writes that the handler's first instruction applies hide what entry saved. -/
lemma handlerSees_pending (pend : ctx.bufferInitialized = true) (pair : startsPair size vector = true) :
    HandlerSees size ((ctx.takeEvent true ev vector).regWritePending size) (ctx.regsBuffer .spc)
      (ctx.regsBuffer .ssr) (ctx.regsBuffer .sed) ctx.decodeCache
      (update ctx.regsBuffer .ed (ctx.regsBuffer .sed)) := by
  rw [takeEvent_interrupt]
  obtain ⟨inUse, dual, regs, buf, flag, pc, pendingPc, sr, cache⟩ := ctx
  cases pend
  constructor
  case registers =>
    intro block next r notSpc notSsr notSed
    rw [returned_readRegisterForTrace]
    cases dual <;> simp [regWritePending, doPendingRegWrites, pair, writeRegister, readRegisterForTrace, update_apply]
    split <;> rfl
  all_goals cases dual <;> simp [regWritePending, doPendingRegWrites, pair, writeRegister]

section

variable (found : (ctx.bufferInitialized && startsPair size vector) = false)
include found

/-- Without pending writes that are applied, only ED may differ from what entry saved. -/
lemma interrupt_keeps_saved :
    ((ctx.takeEvent true ev vector).regWritePending size).decodeCache = ctx.decodeCache ∧
      ∀ r : Register, r ≠ .ed → ((ctx.takeEvent true ev vector).regWritePending size).regs r = ctx.saved r := by
  rw [takeEvent_interrupt]
  generalize ctx.saved = regs
  obtain ⟨inUse, dual, old, buf, flag, pc, pendingPc, sr, cache⟩ := ctx
  cases flag <;> cases dual <;> cases pair : startsPair size vector <;>
    simp_all [regWritePending, doPendingRegWrites, writeRegister]

/-- Otherwise `KRET` reads what entry saved. With writes pending in dual issue, the ED
that entry saved is the one from before those writes. -/
lemma handlerSees_saved : HandlerSees size ((ctx.takeEvent true ev vector).regWritePending size)
      (ctx.decodeCache.fromPc ctx.pc) (ctx.sr.clear .waiting).toWord (ctx.regs .ed)
      ctx.decodeCache
      (update ctx.readRegisterForTrace .ed
        (if ctx.bufferInitialized && !ctx.dualIssue then ctx.regsBuffer .ed else ctx.regs .ed)) := by
  obtain ⟨cache, kept⟩ := interrupt_keeps_saved ev found
  refine ⟨(kept .spc (by decide)).trans rfl, (kept .ssr (by decide)).trans rfl, (kept .sed (by decide)).trans rfl,
    cache, fun block next r notSpc notSsr notSed => ?_⟩
  rw [returned_readRegisterForTrace, takeEvent_interrupt]
  obtain ⟨inUse, dual, regs, buf, flag, pc, pendingPc, sr, cache⟩ := ctx
  cases flag with
  | false =>
    have long : size = .long → startsPair size vector = true := fun isLong => by rw [isLong]; rfl
    by_cases isEd : r = .ed
    · subst isEd
      cases dual <;> cases pair : startsPair size vector <;>
        simp [regWritePending, doPendingRegWrites, pair, writeRegister, saved]
      exact fun isLong => by simp [long isLong] at pair
    · cases dual <;> cases pair : startsPair size vector <;>
        simp [regWritePending, doPendingRegWrites, pair, writeRegister, readRegisterForTrace, isEd,
          saved_other, notSpc, notSsr, notSed]
  | true =>
    have pair : startsPair size vector = false := by simpa using found
    obtain rfl : size = .short := by
      cases size with
      | short => rfl
      | long => simp [startsPair] at pair
    by_cases isEd : r = .ed
    · subst isEd
      cases dual <;> simp [regWritePending, pair, writeRegister, saved]
    · cases dual <;> simp [regWritePending, pair, writeRegister, readRegisterForTrace, isEd]

end

end

lemma HandlerSees.resumed_iff {core : CodeSpace} {size : InstructionSize} {ctx into : ThreadContext}
    {spc ssr sed ed : BitVec 32} {cache : CodeBlock} {rest : RegisterFile}
    (sees : HandlerSees size (into.regWritePending size) spc ssr sed cache (update rest .ed ed))
    (same : rest = ctx.readRegisterForTrace) :
    (∃ post, into.kret core size = .done post ∧ Resumed core ctx post) ↔
      legalTarget core cache spc = true ∧ spc = ctx.getRealPc core ∧
        (Status.ofWord ssr).clear .waiting = ctx.sr.clear .waiting ∧ ed = ctx.readRegisterForTrace .ed := by
  subst same
  rw [← sees.cache, ← sees.spc]
  refine kret_done_iff rfl fun block next target => ?_
  have sr : (returned size (into.regWritePending size) block next).sr =
      (Status.ofWord ssr).clear .waiting := by
    rw [← sees.ssr]
    rfl
  have place : (returned size (into.regWritePending size) block next).decodeCache.fromPc next =
      (into.regWritePending size).regs .spc := by
    rw [returned_decodeCache]
    exact target
  constructor
  · intro resumed
    have eventData := resumed.registers .ed (by decide) (by decide) (by decide)
    rw [sees.registers _ _ .ed (by decide) (by decide) (by decide), update_self] at eventData
    exact ⟨place.symm.trans resumed.pc, sr.symm.trans resumed.status, eventData⟩
  · rintro ⟨pc, status, eventData⟩
    refine ⟨sr.trans status, place.trans pc, fun r notSpc notSsr notSed => ?_⟩
    rw [sees.registers _ _ r notSpc notSsr notSed, eventData, update_eq_self]

/-- When an interrupt at the given vector, returned from at once, leaves no trace. Without
pending writes the pc must be a real one. With pending writes that the handler's `KRET`
applies, SPC, SSR and SED must already have held what entry saves; with pending writes
that it does not apply, ED must not be among them. -/
def Undisturbed (core : CodeSpace) (size : InstructionSize) (vector : BitVec 32) (ctx : ThreadContext) : Prop :=
  if ctx.bufferInitialized && startsPair size vector then
    legalTarget core ctx.decodeCache (ctx.regsBuffer .spc) = true ∧
      ctx.regsBuffer .spc = ctx.getRealPc core ∧
      (Status.ofWord (ctx.regsBuffer .ssr)).clear .waiting = ctx.sr.clear .waiting ∧
      ctx.regsBuffer .sed = ctx.regsBuffer .ed
  else
    legalTarget core ctx.decodeCache (ctx.decodeCache.fromPc ctx.pc) = true ∧
      ctx.decodeCache.fromPc ctx.pc = ctx.getRealPc core ∧
      (ctx.dualIssue = true → ctx.bufferInitialized = true → ctx.regs .ed = ctx.regsBuffer .ed)

/-- An interrupt followed by a `KRET` at the vector. -/
theorem interrupt_kret_iff (core : CodeSpace) (size : InstructionSize) (ev vector : BitVec 32)
    (ctx : ThreadContext) :
    (∃ post, (ctx.takeEvent true ev vector).kret core size = .done post ∧ Resumed core ctx post) ↔
      ctx.Undisturbed core size vector := by
  unfold Undisturbed
  split
  case isTrue hidden =>
    obtain ⟨pending, pair⟩ : ctx.bufferInitialized = true ∧ startsPair size vector = true := by
      simpa using hidden
    have buffered : ctx.regsBuffer = ctx.readRegisterForTrace := by
      funext r
      simp [readRegisterForTrace, pending]
    rw [(handlerSees_pending ev pending pair).resumed_iff buffered, buffered]
  case isFalse found =>
    rw [(handlerSees_saved ev (by simpa using found)).resumed_iff rfl, Status.ofWord_toWord, Status.clear_clear]
    refine and_congr_right fun _ => and_congr_right fun _ => ?_
    simp only [true_and, readRegisterForTrace]
    cases ctx.bufferInitialized <;> cases ctx.dualIssue <;> simp

/-- A dual-issue thread between the two instructions of a pair, the first of which wrote R0. -/
def halfwayThroughPair : ThreadContext :=
  { interruptible with
    dualIssue := true, regsBuffer := update interruptible.regs .r0 5, bufferInitialized := true
    pc := 0x21 }

def stoppedAtBreakpoint : ThreadContext :=
  { interruptible with pc := smallCore.getInterpretOneAddr, pendingPc := 0x20 }

/-- Neither thread is brought back: the handler's `KRET` raises an exception. -/
theorem interrupt_kret_goes_astray :
    (¬∃ post, (halfwayThroughPair.takeEvent true 0 0x40).kret smallCore .short = .done post ∧
        Resumed smallCore halfwayThroughPair post) ∧
      ¬∃ post, (stoppedAtBreakpoint.takeEvent true 0 0x40).kret smallCore .short = .done post ∧
        Resumed smallCore stoppedAtBreakpoint post := by
  constructor
  · rintro ⟨post, done, -⟩
    cases done
  · rintro ⟨post, done, -⟩
    cases done

end ThreadContext

end Axe
