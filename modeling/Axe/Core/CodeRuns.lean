import Axe.Core.Coherence

/-! Runs of a core over code that is decoded, executed, overwritten and decoded again. -/

namespace Axe

def Opcode.mayLeave (opc : Opcode) (pre post : Bool) : Bool :=
  post == pre || match opc with
    | .entsp_u6 | .entsp_lu6 => !post
    | .dualentsp_u6 | .dualentsp_lu6 => post
    | .retsp_xs2a_u6 | .retsp_xs2a_lu6 => true
    | _ => false

def RamEffect.isChecked : RamEffect → Bool
  | .unchecked _ _ _ => false
  | _ => true

def RamEffect.isSetRamBase : RamEffect → Bool
  | .setRamBase _ => true
  | _ => false

/-- An instruction function makes the checks of its stores and switches the mode if it is one that does. -/
def CodeExecution.Interpreted (exec : CodeExecution) (mode : Bool) (opc : Opcode) : Prop :=
  (∀ effect ∈ exec.effects, effect.isChecked = true) ∧
    ∃ left, exec.modes = [[left]] ∧ opc.mayLeave mode left = true

def CodeExecution.Compiles (exec : CodeExecution) (pc : Nat) : Prop :=
  ∃ jitPc frag, exec.compile = some (jitPc, frag) ∧ (frag pc).found = true

namespace CodeState

def Inside (st : CodeState) (inRam : Bool) (pc : Nat) : Prop :=
  if inRam then pc < st.core.ramDecodeCache.size else 2 * pc + 1 < st.board.romSize
  deriving Decidable

structure ExecutionAdmissible (st : CodeState) (thread : CodeThread) (exec : CodeExecution) : Prop where
  effects : Runs.Meets RamEffect.step (fun core effect => ∀ now ∈ core, effect.Admissible now) (some st.core)
    exec.effects
  base : thread.inRam = true → ∀ effect ∈ exec.effects, effect.isSetRamBase = false
  fragments : ∀ jitPc frag, exec.compile = some (jitPc, frag) →
    ∀ now ∈ exec.effects.foldl RamEffect.step (some st.core), now.FragmentsAdmissible frag

def ExecutionCareful (st : CodeState) (exec : CodeExecution) : Prop :=
  Runs.Meets RamEffect.step (fun core effect => ∀ now ∈ core, effect.Careful st.board now) (some st.core)
    exec.effects

def interpreted (st : CodeState) (t pc : Nat) (pre : Decoded) : Entry :=
  Entry.make (st.encoding (st.threads t).inRam pc) (st.cacheSize (st.threads t).inRam) pc
    (st.threads t).dualIssue pre

end CodeState

namespace CodeStep

/-- The steps the simulator can take. Only a load or a store throws, when it hits a watchpoint, and
none of these is relative to the pc. -/
def Admissible (st : CodeState) : CodeStep → Prop
  | .dispatch t pc _ exec =>
    st.Inside (st.threads t).inRam pc ∧
      match st.cell (st.threads t).inRam pc with
      | .decode _ => True
      | .instruction _ entry =>
        st.ExecutionAdmissible (st.threads t) exec ∧
          exec.Interpreted (st.threads t).dualIssue entry.opcode
      | .function _ => st.ExecutionAdmissible (st.threads t) exec
  | .interpretOne t pc pre raised exec =>
    st.Inside (st.threads t).inRam pc ∧ st.ExecutionAdmissible (st.threads t) exec ∧
      exec.Interpreted (st.threads t).dualIssue (st.interpreted t pc pre).opcode ∧
      (raised = true → (st.interpreted t pc pre).raw.opcode.relative = false)
  | .syscall call => call.Admissible
  | .decodeElsewhere pc _ _ _ => st.Inside false pc
  | .raiseElsewhere pc asgn _ pre =>
    st.Inside false pc ∧ (asgn.run pre).opcode.relative = false
  | _ => True

/-- What is decoded is an encoding that `instructionDecode` knows, code that is written is
invalidated, breakpoints are set in RAM, and the other cores read the ROM as this one does. -/
def Careful (st : CodeState) : CodeStep → Prop
  | .dispatch t pc _ exec =>
    match st.cell (st.threads t).inRam pc with
    | .decode _ => (st.instructionDecode (st.threads t).inRam pc).isSome = true
    | _ => st.ExecutionCareful exec
  | .interpretOne t pc _ _ exec =>
    (st.encoding (st.threads t).inRam pc).isSome = true ∧ st.ExecutionCareful exec
  | .syscall call => call.Careful st.core
  | .setBreakpoint addr | .unsetBreakpoint addr => st.core.isValidRamAddress addr = true
  | .decodeElsewhere pc asgn _ _ =>
    asgn.isSome = true ∧ (asgn = assign .breakpoint ∨ asgn = st.encoding false pc)
  | .raiseElsewhere pc asgn _ _ => asgn.isSome = true ∧ asgn = st.encoding false pc
  | _ => True

def Guard (st : Option CodeState) (lbl : CodeStep) : Prop :=
  ∀ now ∈ st, lbl.Admissible now ∧ lbl.Careful now

end CodeStep

lemma OpcodeCell.withOperands_eq {cell : OpcodeCell Entry} {args : Operands} {traced : Bool} {entry : Entry}
    (same : cell.withOperands args = .instruction traced entry) :
    ∃ pre, cell = .instruction traced pre ∧ entry = { pre with operands := args } := by
  cases cell with
  | instruction other pre =>
    obtain ⟨rfl, rfl⟩ : other = traced ∧ _ = entry := OpcodeCell.instruction.inj same
    exact ⟨pre, rfl, rfl⟩
  | decode => cases same
  | function => cases same

lemma OpcodeCell.withOperands_live (cell : OpcodeCell Entry) (args : Operands) :
    (cell.withOperands args).live = cell.live := by
  cases cell <;> rfl

namespace CodeState

variable {st : CodeState}

structure Inv (st : CodeState) : Prop where
  core : st.core.Coherent st.board
  rom : ∀ pc traced entry, st.romOpcode pc = .instruction traced entry →
    2 * pc < st.board.romSize ∧
      (entry.opcode = .breakpoint ∨ entry.Of (st.board.romEncoding pc) st.board.romSize pc)

variable {pc : Nat} {inRam traced : Bool} {entry : Entry}

lemma encoding_rom (geom : st.core.Geometry st.board) (isIn : 2 * pc < st.board.romSize) :
    st.encoding false pc = st.board.romEncoding pc :=
  geom.decodeAt_rom isIn

/-- What an entry is in the cell of a pc: a breakpoint or what the encoding there gives. -/
def Holds (st : CodeState) (inRam : Bool) (pc : Nat) (entry : Entry) : Prop :=
  (inRam = false → 2 * pc < st.board.romSize) ∧
    (entry.opcode = .breakpoint ∨ entry.Of (st.encoding inRam pc) (st.cacheSize inRam) pc)

lemma Inv.holds (inv : st.Inv)
    (cell : st.cell inRam pc = .instruction traced entry) : st.Holds inRam pc entry := by
  cases inRam with
  | true => exact ⟨nofun, inv.core.entries pc traced entry cell⟩
  | false =>
    obtain ⟨below, made⟩ := inv.rom pc traced entry cell
    rw [← encoding_rom inv.core.geometry below] at made
    exact ⟨fun _ => below, made⟩

lemma Inv.of_cells (geom : st.core.Geometry st.board) (sound : st.core.Sound Entry.size)
    (cells : ∀ inRam pc traced entry, st.cell inRam pc = .instruction traced entry → st.Holds inRam pc entry) :
    st.Inv where
  core := ⟨geom, sound, fun pc traced entry cell => (cells true pc traced entry cell).2⟩
  rom := by
    intro pc traced entry cell
    obtain ⟨below, made⟩ := cells false pc traced entry cell
    rw [encoding_rom geom (below rfl)] at made
    exact ⟨below rfl, made⟩

lemma cell_setEntry (st : CodeState) (inRam inRam' : Bool) (pc pc' : Nat) (traced : Bool) (entry : Entry) :
    (st.setEntry inRam pc traced entry).cell inRam' pc' =
      if inRam' = inRam ∧ pc' = pc then .instruction traced entry else st.cell inRam' pc' := by
  cases inRam <;> cases inRam' <;>
    simp [setEntry, cell, Core.setOpcode, DecodeCache.setOpcode, Function.update_apply]

lemma cell_setOperands (st : CodeState) (inRam inRam' : Bool) (pc pc' : Nat) (args : Operands) :
    (st.setOperands inRam pc args).cell inRam' pc' =
      if inRam' = inRam ∧ pc' = pc then (st.cell inRam pc).withOperands args else st.cell inRam' pc' := by
  cases inRam <;> cases inRam' <;> simp [setOperands, cell, Function.update_apply]

lemma Inv.setEntry (inv : st.Inv) (isIn : st.Inside inRam pc) (traced : Bool)
    (made : entry.opcode = .breakpoint ∨ entry.Of (st.encoding inRam pc) (st.cacheSize inRam) pc) :
    (st.setEntry inRam pc traced entry).Inv := by
  have cells : ∀ inRam' q traced' entry',
      (st.setEntry inRam pc traced entry).cell inRam' q = .instruction traced' entry' →
      st.Holds inRam' q entry' := by
    intro inRam' q traced' entry' cell
    rw [cell_setEntry] at cell
    split_ifs at cell with here
    · obtain ⟨rfl, rfl⟩ := here
      cases cell
      refine ⟨?_, made⟩
      rintro rfl
      exact Nat.lt_of_succ_lt isIn
    · exact inv.holds cell
  obtain ⟨ram, fits, halves, rom, apart⟩ := inv.core.geometry
  cases inRam with
  | true =>
    have inRam : pc < st.core.getRamSize / 2 := halves ▸ isIn
    exact .of_cells ⟨ram, fits, halves, rom, apart⟩
      (inv.core.sound.setOpcode (.instruction traced entry) inRam entry.opcode.two_le_size) cells
  | false => exact .of_cells inv.core.geometry inv.core.sound cells

lemma Inv.interpreted_used (inv : st.Inv) (cell : st.cell inRam pc = .instruction traced entry) (mode : Bool)
    (pre : Decoded) (abs : ((st.encoding inRam pc).run pre).opcode.relative = false) :
    entry.opcode = .breakpoint ∨
      (⟨entry.opcode, (Entry.make (st.encoding inRam pc) (st.cacheSize inRam) pc mode
        pre).operands⟩ : Decoded).used = entry.decoded.used := by
  refine (inv.holds cell).2.imp_right fun made => made.interpreted_used ?_ mode pre
  rw [← (made.raw_eq pre).1]
  exact abs

lemma Inv.setOperands (inv : st.Inv) {args : Operands}
    (same : ∀ traced entry, st.cell inRam pc = .instruction traced entry →
      entry.opcode = .breakpoint ∨ (⟨entry.opcode, args⟩ : Decoded).used = entry.decoded.used) :
    (st.setOperands inRam pc args).Inv := by
  have cells : ∀ inRam' q traced entry,
      (st.setOperands inRam pc args).cell inRam' q = .instruction traced entry →
      st.Holds inRam' q entry := by
    intro inRam' q traced entry cell
    rw [cell_setOperands] at cell
    split_ifs at cell with here
    · obtain ⟨rfl, rfl⟩ := here
      obtain ⟨pre, there, rfl⟩ := OpcodeCell.withOperands_eq cell
      obtain ⟨below, made⟩ := inv.holds there
      refine ⟨below, ?_⟩
      rcases made, same traced pre there with ⟨breakpoint | made, breakpoint | used⟩
      · exact .inl breakpoint
      · exact .inl breakpoint
      · exact .inl breakpoint
      · exact .inr (made.withOperands used)
    · exact inv.holds cell
  obtain ⟨ram, fits, halves, rom, apart⟩ := inv.core.geometry
  cases inRam with
  | true =>
    refine .of_cells ⟨ram, fits, halves, rom, apart⟩ ?_ cells
    refine inv.core.sound.of_cells rfl rfl (fun q => ?_) (fun q => ?_) rfl
    all_goals
      by_cases here : q = pc
      · subst here
        simp only [setOperands, if_true, Function.update_self]
        cases st.core.ramDecodeCache.opcode q <;> rfl
      · simp [setOperands, here]
  | false => exact .of_cells inv.core.geometry inv.core.sound cells

/-- What is kept while the effects of an instruction or a fragment happen to `core`. -/
def EffectsInv (board : Board) (core : Core Entry) (reach : Option (Core Entry)) : Prop :=
  ∃ post, reach = some post ∧ post.Coherent board ∧ core.Fewer post

lemma effects_coherent {board : Board} {core : Core Entry} (coh : core.Coherent board) {eff : List RamEffect}
    (legal : Runs.Meets RamEffect.step (fun core effect => ∀ now ∈ core, effect.Admissible now) (some core) eff)
    (safe : Runs.Meets RamEffect.step (fun core effect => ∀ now ∈ core, effect.Careful board now) (some core)
      eff) : EffectsInv board core (eff.foldl RamEffect.step (some core)) := by
  refine (legal.and safe).invariant ?_ ⟨core, rfl, coh, fun _ _ => rfl⟩
  rintro - effect ⟨now, rfl, coherentNow, fewer⟩ ⟨legal, safe⟩
  obtain ⟨post, ran, coherentAfter, fewerAfter⟩ :=
    effect.run_coherent coherentNow (legal now rfl) (safe now rfl)
  exact ⟨post, ran, coherentAfter, fewer.trans fewerAfter⟩

lemma Inv.execute (inv : st.Inv) (t : Nat) {exec : CodeExecution}
    (legal : st.ExecutionAdmissible (st.threads t) exec) (safe : st.ExecutionCareful exec) :
    ∃ post, st.execute t exec = some post ∧ post.Inv ∧
      ∀ inRam pc, (post.cell inRam pc).live = true → post.cell inRam pc = st.cell inRam pc ∨
        inRam = true ∧ exec.Compiles pc ∧ ∃ comp, post.cell inRam pc = .function comp := by
  obtain ⟨core, ran, coh, fewer⟩ := effects_coherent inv.core legal.effects safe
  rw [CodeState.execute, ran]
  cases chosen : exec.compile with
  | none =>
    refine ⟨_, rfl, ⟨coh, inv.rom⟩, fun inRam pc live => .inl ?_⟩
    cases inRam with
    | true => exact fewer pc live
    | false => rfl
  | some block =>
    obtain ⟨jitPc, frag⟩ := block
    obtain ⟨coherentAfter, comp⟩ := coh.compileAt (legal.fragments jitPc frag chosen core ran) jitPc
    refine ⟨_, rfl, ⟨coherentAfter, inv.rom⟩, fun inRam pc live => ?_⟩
    cases inRam with
    | true =>
      rcases comp.cells pc with kept | ⟨fn, cell, found⟩
      · exact .inl (kept.trans (fewer pc (kept ▸ live)))
      · exact .inr ⟨rfl, ⟨jitPc, frag, chosen, found⟩, fn, cell⟩
    | false => exact .inl rfl

end CodeState

namespace CodeStep

def Decodes (st : CodeState) (inRam : Bool) (pc : Nat) (entry : Entry) : CodeStep → Prop
  | .dispatch t here pre _ =>
    inRam = (st.threads t).inRam ∧ pc = here ∧ (st.cell inRam pc).live = false ∧
      entry = Entry.make (st.instructionDecode inRam pc) (st.cacheSize inRam) pc (st.threads t).dualIssue pre
  | .decodeElsewhere here asgn dualIssue pre =>
    inRam = false ∧ pc = here ∧ entry = Entry.make asgn st.board.romSize pc dualIssue pre
  | _ => False

def Compiles (pc : Nat) : CodeStep → Prop
  | .dispatch _ _ _ exec | .interpretOne _ _ _ _ exec => exec.Compiles pc
  | _ => False

/-- Where the entry of a cell comes from: it was there before, apart from its operands maybe, or the
step decoded it or compiled it. -/
def Origin (st : CodeState) (lbl : CodeStep) (inRam : Bool) (pc : Nat) (cell : OpcodeCell Entry) : Prop :=
  cell = st.cell inRam pc ∨ (∃ args, cell = (st.cell inRam pc).withOperands args) ∨
    (∃ traced entry, cell = .instruction traced entry ∧ lbl.Decodes st inRam pc entry) ∨
      inRam = true ∧ lbl.Compiles pc ∧ ∃ comp, cell = .function comp

/-- What a step does: it returns, decoded code stays what decoding gives, and every entry has an origin. -/
def Done (st : CodeState) (lbl : CodeStep) : Prop :=
  ∃ post, st.act lbl = some post ∧ post.Inv ∧
    ∀ inRam pc, (post.cell inRam pc).live = true → lbl.Origin st inRam pc (post.cell inRam pc)

variable {st : CodeState}

variable {lbl : CodeStep} {core : Core Entry} {pc : Nat} {pre : Decoded} {exec : CodeExecution}

lemma done_of_fewer (inv : st.Inv) (acted : st.act lbl = some { st with core := core })
    (coh : core.Coherent st.board) (fewer : st.core.Fewer core) : lbl.Done st := by
  refine ⟨_, acted, ⟨coh, inv.rom⟩, fun inRam pc live => .inl ?_⟩
  cases inRam with
  | true => exact fewer pc live
  | false => rfl

lemma done_setEntry (inv : st.Inv) {inRam : Bool} (traced : Bool) {entry : Entry}
    (acted : st.act lbl = some (st.setEntry inRam pc traced entry)) (isIn : st.Inside inRam pc)
    (made : entry.opcode = .breakpoint ∨ entry.Of (st.encoding inRam pc) (st.cacheSize inRam) pc)
    (decodes : lbl.Decodes st inRam pc entry) : lbl.Done st := by
  refine ⟨_, acted, inv.setEntry isIn traced made, fun inRam' pc' live => ?_⟩
  rw [CodeState.cell_setEntry]
  split_ifs with here
  · obtain ⟨rfl, rfl⟩ := here
    exact .inr (.inr (.inl ⟨traced, entry, rfl, decodes⟩))
  · exact .inl rfl

lemma dispatch_done (inv : st.Inv) {t : Nat} (legal : (dispatch t pc pre exec).Admissible st)
    (safe : (dispatch t pc pre exec).Careful st) : (dispatch t pc pre exec).Done st := by
  obtain ⟨isIn, legal⟩ := legal
  simp only [Careful] at safe
  have runs (live : (st.cell (st.threads t).inRam pc).live = true)
      (legal : st.ExecutionAdmissible (st.threads t) exec)
      (safe : st.ExecutionCareful exec) : (dispatch t pc pre exec).Done st := by
    obtain ⟨post, ran, invAfter, cells⟩ := inv.execute t legal safe
    refine ⟨post, ?_, invAfter, fun inRam q live => (cells inRam q live).imp_right fun new => .inr (.inr new)⟩
    rw [CodeState.act, CodeState.dispatch]
    split
    · simp_all [OpcodeCell.live]
    · exact ran
  cases cell : st.cell (st.threads t).inRam pc with
  | decode traced =>
    simp only [cell] at safe
    refine done_setEntry inv traced ?_ isIn ?_ ⟨rfl, rfl, by rw [cell]; rfl, rfl⟩
    · simp only [CodeState.act, CodeState.dispatch, cell]
    · rw [CodeState.instructionDecode] at safe ⊢
      split_ifs at safe ⊢ with breakpoint
      · exact .inl (Entry.make_breakpoint _ _ _ _)
      · exact .inr (Entry.make_of safe _ _ _ _)
  | instruction traced entry =>
    simp only [cell] at safe legal
    exact runs (by rw [cell]; rfl) legal.1 safe
  | function comp =>
    simp only [cell] at safe legal
    exact runs (by rw [cell]; rfl) legal safe

lemma interpretOne_done (inv : st.Inv) {t : Nat} {trap : Bool}
    (legal : (interpretOne t pc pre trap exec).Admissible st)
    (safe : (interpretOne t pc pre trap exec).Careful st) :
    (interpretOne t pc pre trap exec).Done st := by
  obtain ⟨-, legal, -, abs⟩ := legal
  obtain ⟨post, ran, invAfter, cells⟩ := inv.execute t legal safe.2
  simp only [Done, CodeState.act, CodeState.interpretOne, ran, Option.map_some]
  cases trap with
  | false => exact ⟨post, rfl, invAfter, fun inRam q live => (cells inRam q live).imp_right fun new => .inr (.inr new)⟩
  | true =>
    refine ⟨_, rfl, invAfter.setOperands fun traced entry cell => ?_, fun inRam q live => ?_⟩
    · -- What the instruction left of the cell is what was there, so the operands are its own.
      have live : (post.cell (st.threads t).inRam pc).live = true := by rw [cell]; rfl
      rcases cells _ pc live with kept | ⟨-, -, fn, comp⟩
      · exact inv.interpreted_used (kept ▸ cell) _ pre (abs rfl)
      · rw [comp] at cell
        cases cell
    · rw [if_pos rfl, CodeState.cell_setOperands] at live ⊢
      split_ifs at live ⊢ with here
      · obtain ⟨rfl, rfl⟩ := here
        rw [OpcodeCell.withOperands_live] at live
        rcases cells _ q live with kept | ⟨inRam, compiles, fn, comp⟩
        · exact .inr (.inl ⟨_, by rw [kept]⟩)
        · exact .inr (.inr (.inr ⟨inRam, compiles, fn, by rw [comp]; rfl⟩))
      · exact (cells inRam q live).imp_right fun new => .inr (.inr new)

lemma done_of_invalidated {named : Nat → Prop} (breakpoints : List Nat) (inv : st.Inv)
    (clr : Core.Invalidated Entry.size named st.core core)
    (acted : st.act lbl = some { st with core := core, breakpoints := breakpoints }) : lbl.Done st := by
  have same := clr.sameMemory
  have coh : core.Coherent st.board := by
    refine inv.core.kept (same.geometry inv.core.geometry) same.getRamSize (inv.core.sound.invalidated clr) ?_
    intro pc traced entry cell
    have live : (core.ramDecodeCache.opcode pc).live = true := by rw [cell]; rfl
    exact ⟨(clr.survives pc live).symm.trans cell, fun i _ => by rw [same.memory]⟩
  refine ⟨_, acted, ⟨coh, inv.rom⟩, fun inRam pc live => .inl ?_⟩
  cases inRam with
  | true => exact clr.survives pc live
  | false => rfl

lemma done_of_unchanged (inv : st.Inv) (acted : st.act lbl = some st) : lbl.Done st :=
  ⟨st, acted, inv, fun _ _ _ => .inl rfl⟩

lemma done (inv : st.Inv) (lbl : CodeStep) (legal : lbl.Admissible st)
    (safe : lbl.Careful st) : lbl.Done st := by
  cases lbl with
  | dispatch t pc pre exec => exact dispatch_done inv legal safe
  | interpretOne t pc pre trap exec => exact interpretOne_done inv legal safe
  | writeMemory addr bytes =>
    obtain ⟨core, wr, coh, fewer⟩ := inv.core.writeMemory addr bytes
    exact done_of_fewer inv (by rw [CodeState.act, wr]; rfl) coh fewer
  | syscall call =>
    obtain ⟨core, called, coh, fewer⟩ := call.run_coherent inv.core legal safe
    exact done_of_fewer inv (by rw [CodeState.act, called]; rfl) coh fewer
  | setBreakpoint addr =>
    obtain ⟨core, hit, called, clr⟩ := Core.invalidateShort_spec inv.core.sound.tracked addr
    by_cases ignored : addr % 2 = 1 ∨ (!st.core.isValidAddress st.board addr) = true ∨
        addr ∈ st.breakpoints
    · exact done_of_unchanged inv (if_pos ignored)
    · refine done_of_invalidated (addr :: st.breakpoints) inv clr ?_
      rw [CodeState.act, CodeState.setBreakpoint, if_neg ignored, called]
      rfl
  | unsetBreakpoint addr =>
    obtain ⟨core, hit, called, clr⟩ := Core.invalidateShort_spec inv.core.sound.tracked addr
    by_cases there : addr ∈ st.breakpoints
    · refine done_of_invalidated (st.breakpoints.filter (· ≠ addr)) inv clr ?_
      rw [CodeState.act, CodeState.unsetBreakpoint, if_pos there, called]
      rfl
    · exact done_of_unchanged inv (if_neg there)
  | setTracing traced =>
    have geom := inv.core.geometry
    have switched : (st.core.setTracing traced).Coherent st.board :=
      ⟨⟨geom.ram, geom.fits, geom.cells, geom.rom, geom.apart⟩,
        inv.core.sound.of_same rfl rfl rfl rfl, inv.core.entries⟩
    obtain ⟨core, reset, coh, -, dead⟩ := switched.reset
    refine done_of_fewer inv (by rw [CodeState.act, reset]; rfl) coh fun pc live => ?_
    rw [dead] at live
    cases live
  | decodeElsewhere pc asgn dualIssue pre =>
    cases cell : st.romOpcode pc with
    | decode traced =>
      have isIn : st.Inside false pc := legal
      refine done_setEntry inv traced ?_ isIn ?_ ⟨rfl, rfl, rfl⟩
      · simp only [CodeState.act, cell]
      · rcases safe.2 with rfl | rfl
        · exact .inl (Entry.make_breakpoint _ _ _ _)
        · exact .inr (Entry.make_of safe.1 _ _ _ _)
    | instruction traced entry => exact done_of_unchanged inv (by simp only [CodeState.act, cell])
    | function comp => exact done_of_unchanged inv (by simp only [CodeState.act, cell])
  | raiseElsewhere pc asgn dualIssue pre =>
    obtain ⟨isIn, abs⟩ := legal
    obtain ⟨-, rfl⟩ := safe
    refine ⟨_, rfl, inv.setOperands fun traced entry cell => ?_, fun inRam q live => ?_⟩
    · exact inv.interpreted_used cell dualIssue pre abs
    · rw [CodeState.cell_setOperands] at live ⊢
      split_ifs with here
      · obtain ⟨rfl, rfl⟩ := here
        exact .inr (.inl ⟨_, rfl⟩)
      · exact .inl rfl

end CodeStep

namespace CodeState

structure Initial (st : CodeState) : Prop where
  geometry : st.core.Geometry st.board
  ram : ∃ traced, st.core.ramDecodeCache = .initCache Entry (st.core.getRamSize / 2) traced
  rom : ∀ pc, (st.romOpcode pc).live = false

variable {st : CodeState}

lemma Initial.inv (init : st.Initial) : st.Inv := by
  obtain ⟨traced, empty⟩ := init.ram
  have geom := init.geometry
  have dead : ∀ pc, ¬(st.core.ramDecodeCache.opcode pc).live = true := by
    intro pc
    rw [empty]
    exact Bool.false_ne_true
  refine ⟨⟨geom, ⟨geom.ram, geom.fits, ?_, fun pc live => absurd live (dead pc)⟩, ?_⟩, ?_⟩
  · rw [empty]
    exact DecodeCache.tracked_initCache _ _ _
  · exact fun pc traced entry cell => absurd (congrArg OpcodeCell.live cell) (dead pc)
  · exact fun pc traced entry cell => absurd (congrArg OpcodeCell.live cell) (Bool.eq_false_iff.mp (init.rom pc))

/-- A run that meets the guard is in a state whose decoded code is what decoding gives. -/
def Reached (st : Option CodeState) : Prop := ∃ now, st = some now ∧ now.Inv

lemma reached_step (st : Option CodeState) (lbl : CodeStep) (reach : Reached st)
    (guard : lbl.Guard st) : Reached (step st lbl) := by
  obtain ⟨now, rfl, inv⟩ := reach
  obtain ⟨legal, safe⟩ := guard now rfl
  obtain ⟨post, acted, invAfter, -⟩ := lbl.done inv legal safe
  exact ⟨post, acted, invAfter⟩

/-- Every decoded instruction in the RAM decode cache, breakpoints aside, has the opcode and the raw
operands that `instructionDecode` gives on what RAM holds, and was made from these. -/
def Mirrors (st : CodeState) : Prop :=
  ∀ pc traced entry, st.core.ramDecodeCache.opcode pc = .instruction traced entry →
    entry.opcode ≠ .breakpoint → ∀ pre : Decoded,
      ((st.encoding true pc).run pre).opcode = entry.raw.opcode ∧
        ((st.encoding true pc).run pre).used = entry.raw.used ∧
        entry.opcode = (instructionTransform (st.cacheSize true) pc entry.dualIssue entry.raw).opcode ∧
        entry.decoded.used = (instructionTransform (st.cacheSize true) pc entry.dualIssue entry.raw).used

lemma Inv.mirrors (inv : st.Inv) : st.Mirrors := by
  intro pc traced entry cell real pre
  have made := (inv.core.entries pc traced entry cell).resolve_left real
  obtain ⟨opcode, used⟩ := made.raw_eq pre
  exact ⟨opcode, used, made.opcode, made.used⟩

/-- In every run in which known encodings are decoded and written code is invalidated, the decode
cache mirrors RAM. -/
theorem mirrors_runs (initial : st.Initial) (steps : List CodeStep)
    (meets : Runs.Meets step (fun st lbl => lbl.Guard st) (some st) steps) :
    ∃ post, steps.foldl step (some st) = some post ∧ post.Mirrors := by
  obtain ⟨post, reach, inv⟩ : Reached (steps.foldl step (some st)) :=
    meets.invariant reached_step ⟨st, rfl, initial.inv⟩
  exact ⟨post, reach, inv.mirrors⟩

/-- A core of an XS2-A node with 64 KiB of RAM at 0x10000, without a ROM. RAM begins with
`bu 1`, `stw r0, r0[0]`, `dualentsp 0`, `bu -2`. -/
def freshCode : CodeState where
  board := ⟨.xs2A, 0, 0, fun _ => 0⟩
  core :=
    { ramSizeLog2 := 16
      ramBaseMultiple := 1
      memory := fun i => [0x01, 0x73, 0x00, 0x00, 0x80, 0x7f, 0x02, 0x77].getD i 0
      ramDecodeCache := .initCache Entry (2 ^ 15) false
      jit := ⟨[], fun _ => none, 0, []⟩ }
  romOpcode := fun _ => .decode false
  breakpoints := []
  threads := fun _ => ⟨false, true⟩

lemma freshCode_initial : freshCode.Initial :=
  ⟨by decide +kernel, ⟨false, rfl⟩, fun _ => rfl⟩

def unset : Decoded := ⟨.nop_0r, 0, 0, 0, 0, 0, 0⟩

def noExecution : CodeExecution := ⟨[], [[false]], true, none⟩

lemma decode_guard {t pc : Nat} {traced : Bool} (cell : st.cell (st.threads t).inRam pc = .decode traced)
    (isIn : st.Inside (st.threads t).inRam pc)
    (known : (st.instructionDecode (st.threads t).inRam pc).isSome = true) (pre : Decoded)
    (exec : CodeExecution) : (CodeStep.dispatch t pc pre exec).Admissible st ∧
      (CodeStep.dispatch t pc pre exec).Careful st := by
  simp only [CodeStep.Admissible, CodeStep.Careful, cell]
  exact ⟨⟨isIn, trivial⟩, known⟩

/-- The first instruction is decoded, overwritten by the debugger and decoded again. -/
theorem freshCode_mirrors : let steps := [.dispatch 0 0 unset noExecution, .writeMemory 0x10000 [0x02, 0x77],
      .dispatch 0 0 unset noExecution]
    ∃ post, steps.foldl step (some freshCode) = some post ∧ post.Mirrors := by
  intro steps
  refine mirrors_runs freshCode_initial steps ⟨?_, ?_, ?_, trivial⟩
  · rintro now ⟨⟩
    exact decode_guard rfl (by decide +kernel) (by decide +kernel) _ _
  · rintro now -
    exact ⟨trivial, trivial⟩
  · intro now reach
    let decoded := step (some freshCode) (.dispatch 0 0 unset noExecution)
    let overwritten := step decoded (.writeMemory 0x10000 [0x02, 0x77])
    obtain rfl : overwritten.getD freshCode = now := by
      simp only [decoded, overwritten, Option.mem_def.mp reach, Option.getD_some]
    have cell : (overwritten.getD freshCode).cell true 0 = .decode false := by decide +kernel
    exact decode_guard cell (by decide +kernel) (by decide +kernel) _ _

/-- The first instruction is decoded and then overwritten by a system call that reads a file. -/
theorem readSyscall_stale : let steps := [.dispatch 0 0 unset noExecution, .syscall (.read 0x10000 2 [0x02, 0x77])]
    freshCode.Initial ∧
      Runs.Meets step (fun st lbl => ∀ now ∈ st, lbl.Admissible now) (some freshCode) steps ∧
      ∃ post, steps.foldl step (some freshCode) = some post ∧ ¬post.Mirrors := by
  intro steps
  refine ⟨freshCode_initial, ⟨?_, ?_, trivial⟩, _, rfl, fun mirrors => ?_⟩
  · rintro now ⟨⟩
    exact ⟨by decide +kernel, trivial⟩
  · rintro now -
    exact Nat.le_refl 2
  · have stale := (mirrors 0 false _ rfl (by decide +kernel) unset).1
    revert stale
    decide +kernel

end CodeState

end Axe
