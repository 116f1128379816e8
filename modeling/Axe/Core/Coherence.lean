import Axe.Core.Locality

/-! Decoded copies of code stay copies of the code in RAM. Whatever writes RAM and invalidates what
it wrote clears every entry over a byte that changed, and an entry depends on no other byte. -/

namespace Axe

open Axe.Core

namespace Core

variable {board : Board} {core post : Core Entry}

structure Coherent (board : Board) (core : Core Entry) : Prop where
  geometry : core.Geometry board
  sound : core.Sound Entry.size
  entries : ∀ pc tracing entry, core.ramDecodeCache.opcode pc = .instruction tracing entry →
    entry.opcode = .breakpoint ∨
      entry.Of (core.decodeAt board (core.fromRamPc pc)) core.ramDecodeCache.size pc

def Fewer (pre post : Core Entry) : Prop :=
  ∀ pc, (post.ramDecodeCache.opcode pc).live = true →
    post.ramDecodeCache.opcode pc = pre.ramDecodeCache.opcode pc

lemma Fewer.trans {first snd third : Core Entry} (left : first.Fewer snd) (right : snd.Fewer third) :
    first.Fewer third := by
  intro pc live
  have same := right pc live
  exact same.trans (left pc (same ▸ live))

lemma Coherent.kept (coh : core.Coherent board) (geom : post.Geometry board)
    (ram : post.getRamSize = core.getRamSize) (sound : post.Sound Entry.size)
    (kept : ∀ pc tracing entry, post.ramDecodeCache.opcode pc = .instruction tracing entry →
      core.ramDecodeCache.opcode pc = .instruction tracing entry ∧
        ∀ i < entry.size, post.memory (2 * pc + i) = core.memory (2 * pc + i)) : post.Coherent board := by
  refine ⟨geom, sound, fun pc tracing entry cell => ?_⟩
  obtain ⟨pre, bytes⟩ := kept pc tracing entry cell
  have isIn : pc < core.getRamSize / 2 := (coh.sound.cells pc (by rw [pre]; rfl)).1
  have size : post.ramDecodeCache.size = core.ramDecodeCache.size := by
    rw [geom.cells, coh.geometry.cells, ram]
  rcases coh.entries pc tracing entry pre with breakpoint | made
  · exact .inl breakpoint
  · right
    obtain ⟨opc, operands, found, known, -⟩ := made.raw
    rw [known] at made
    rw [size, coh.geometry.decodeAt_local geom ram isIn known (made.size ▸ bytes)]
    exact made

lemma SameMemory.geometry (same : core.SameMemory post) (geom : core.Geometry board) : post.Geometry board where
  ram := same.ramSizeLog2 ▸ geom.ram
  fits := by rw [same.getRamBase, same.getRamSize]; exact geom.fits
  cells := by rw [same.size, same.getRamSize]; exact geom.cells
  rom := geom.rom
  apart := by rw [same.getRamBase, same.getRamSize]; exact geom.apart

lemma storeBytes_sound (sound : core.Sound Entry.size) (addr : Nat) (bytes : List (BitVec 8)) :
    (core.storeBytes addr bytes).Sound Entry.size :=
  sound.of_same rfl rfl rfl rfl

variable {addr : Nat} {bytes : List (BitVec 8)}

lemma Coherent.written (coh : core.Coherent board) (isIn : core.getRamBase ≤ addr) {named : Nat → Prop}
    (clr : Invalidated Entry.size named (core.storeBytes addr bytes) post)
    (names : ∀ i < bytes.length, named (core.toRamPc (addr + i))) : post.Coherent board ∧ core.Fewer post := by
  have same := clr.sameMemory
  have fewer : core.Fewer post := fun pc live => clr.survives pc live
  have geom : (core.storeBytes addr bytes).Geometry board :=
    ⟨coh.geometry.ram, coh.geometry.fits, coh.geometry.cells, coh.geometry.rom,
      coh.geometry.apart⟩
  have sound := (storeBytes_sound coh.sound addr bytes).invalidated clr
  refine ⟨coh.kept (same.geometry geom) same.getRamSize sound fun pc tracing entry cell => ?_, fewer⟩
  have live : (post.ramDecodeCache.opcode pc).live = true := by rw [cell]; rfl
  refine ⟨(fewer pc live).symm.trans cell, fun i covered => ?_⟩
  rw [same.memory]
  refine storeBytes_memory core addr bytes fun j wrote hits => ?_
  -- The byte lies in a halfword of the entry and in one that was written.
  have even : entry.size % 2 = 0 := entry.opcode.size_even
  refine clr.clears pc _ (names j wrote) ⟨live, ?_, ?_⟩
  · rw [toRamPc]
    omega
  · rw [cell]
    simp only [OpcodeCell.size, toRamPc]
    omega

/-- The bytes lie in RAM, and no entry is over one of them. -/
def Untouched (core : Core Entry) (addr length : Nat) : Prop :=
  core.getRamBase ≤ addr ∧ addr + length ≤ core.getRamBase + core.getRamSize ∧
    ∀ i < length, ∀ pc, ¬core.ramDecodeCache.Covers Entry.size pc (core.toRamPc (addr + i))

lemma Coherent.untouched (coh : core.Coherent board) (untouched : core.Untouched addr bytes.length) :
    (core.storeBytes addr bytes).Coherent board ∧ core.Fewer (core.storeBytes addr bytes) := by
  obtain ⟨isIn, -, clear⟩ := untouched
  have nil : Invalidated Entry.size (fun i => ∃ j < bytes.length, i = core.toRamPc (addr + j))
      (core.storeBytes addr bytes) (core.storeBytes addr bytes) := by
    refine ⟨⟨rfl, rfl, rfl, rfl, rfl⟩, (storeBytes_sound coh.sound addr bytes).tracked, .refl _, ?_⟩
    rintro pc i ⟨j, wrote, rfl⟩
    exact clear j wrote pc
  exact coh.written isIn nil fun j wrote => ⟨j, wrote, rfl⟩

lemma Coherent.reset (coh : core.Coherent board) :
    ∃ post, core.resetCaches = some post ∧ post.Coherent board ∧ core.SameMemory post ∧
      ∀ pc, (post.ramDecodeCache.opcode pc).live = false := by
  obtain ⟨post, done, sound, -, same, dead⟩ := resetCaches_spec coh.sound
  refine ⟨post, done, ⟨same.geometry coh.geometry, sound, fun pc tracing entry cell => ?_⟩, same, dead⟩
  have live := dead pc
  rw [cell] at live
  cases live

lemma length_littleEndian (w value : Nat) : (littleEndian w value).length = w := by
  rw [littleEndian, List.length_map, List.length_range]

end Core

namespace Core

variable {board : Board} {core post : Core Entry}

section

structure Compiled (frag : Nat → Fragment) (pre post : Core Entry) : Prop where
  same : pre.SameMemory post
  cells : ∀ pc, post.ramDecodeCache.opcode pc = pre.ramDecodeCache.opcode pc ∨
    ∃ comp, post.ramDecodeCache.opcode pc = .function comp ∧ (frag pc).found = true

variable {frag : Nat → Fragment}

lemma Compiled.refl (core : Core Entry) : Compiled frag core core :=
  ⟨⟨rfl, rfl, rfl, rfl, rfl⟩, fun _ => .inl rfl⟩

lemma Compiled.trans {first snd third : Core Entry} (left : Compiled frag first snd)
    (right : Compiled frag snd third) : Compiled frag first third where
  same := left.same.trans right.same
  cells := by
    intro pc
    rcases right.cells pc with kept | comp
    · rw [kept]
      exact left.cells pc
    · exact .inr comp

lemma compiled_compileOneFragment (core : Core Entry) (pc : Nat) :
    Compiled frag core (core.compileOneFragment pc (frag pc)).core := by
  rw [compileOneFragment]
  split_ifs with known found
  · exact .refl core
  · refine ⟨⟨rfl, rfl, rfl, rfl, rfl⟩, fun q => ?_⟩
    by_cases here : q = pc
    · subst here
      exact .inr ⟨_, Function.update_self _ _ _, found⟩
    · exact .inl (Function.update_of_ne here _ _)
  · exact .refl core

lemma compiled_compileFragments (n : Nat) (core : Core Entry) (pc : Nat) :
    Compiled frag core (core.compileFragments frag n pc).1 := by
  induction n generalizing core pc with
  | zero => exact .refl core
  | succ n ih =>
    have here : Compiled frag core _ := compiled_compileOneFragment core pc
    simp only [compileFragments]
    cases (core.compileOneFragment pc (frag pc)).endOfBlock with
    | true => exact here
    | false => exact here.trans (ih _ _)

lemma Coherent.compiled (coh : core.Coherent board) (comp : Compiled frag core post)
    (sound : post.Sound Entry.size) : post.Coherent board := by
  refine coh.kept (comp.same.geometry coh.geometry) comp.same.getRamSize sound ?_
  intro pc tracing entry cell
  rcases comp.cells pc with kept | ⟨fn, fragment, -⟩
  · exact ⟨kept ▸ cell, fun i _ => by rw [comp.same.memory]⟩
  · rw [fragment] at cell
    cases cell

def FragmentsAdmissible (core : Core Entry) (frag : Nat → Fragment) : Prop :=
  ∀ pc, (frag pc).found = true → 2 ≤ (frag pc).size ∧ pc < core.getRamSize / 2

lemma Coherent.compileAt (coh : core.Coherent board) (legal : core.FragmentsAdmissible frag)
    (jitPc : Nat) :
    (core.compileAt jitPc frag).Coherent board ∧ Compiled frag core (core.compileAt jitPc frag) := by
  rw [Core.compileAt]
  split_ifs with valid
  · let ready := { core.setExecutionFrequency jitPc (-2 ^ 31) with
      jit := (core.setExecutionFrequency jitPc (-2 ^ 31)).jit.reclaimUnreachableFunctions }
    have cnt : Compiled frag core ready := ⟨⟨rfl, rfl, rfl, rfl, rfl⟩, fun _ => .inl rfl⟩
    have comp := cnt.trans (compiled_compileFragments (ready.ramDecodeCache.size + 1) ready jitPc)
    have soundReady : ready.Sound Entry.size := coh.sound.of_same rfl rfl rfl rfl
    have admissibleReady : ready.FragmentsAdmissible frag := legal
    have sound := Sound.compileFragments (ready.ramDecodeCache.size + 1) admissibleReady soundReady jitPc
    exact ⟨coh.compiled comp sound, comp⟩
  · exact ⟨coh, .refl core⟩

end

section

lemma Geometry.end_aligned (geom : core.Geometry board) : (core.getRamBase + core.getRamSize) % 4 = 0 := by
  obtain ⟨log, large⟩ := Nat.exists_eq_add_of_le geom.ram
  have size : core.getRamSize = 4 * 2 ^ log := by rw [getRamSize, large, Nat.pow_add]
  have base : core.getRamBase = 4 * (2 ^ log * core.ramBaseMultiple) := by rw [getRamBase, size, Nat.mul_assoc]
  omega

lemma Coherent.invalidateRange (coh : core.Coherent board) {start limit : Nat} {bytes : List (BitVec 8)}
    (isIn : core.getRamBase ≤ start) (wrote : start + bytes.length ≤ limit)
    (below : limit < core.getRamBase + core.getRamSize) :
    ∃ post hit, (core.storeBytes start bytes).invalidateRange start limit = some (post, hit) ∧
      post.Coherent board ∧ core.Fewer post := by
  have aligned := coh.geometry.end_aligned
  have fits := coh.geometry.fits
  have sound := storeBytes_sound coh.sound start bytes
  have small : limit < 2 ^ 32 := by omega
  obtain ⟨post, hit, call, upTo⟩ := invalidateRange_spec sound.tracked (Nat.le_of_succ_le sound.ram)
    isIn (by omega) small (by omega)
  refine ⟨post, hit, call, coh.written isIn upTo fun i small => ?_⟩
  exact ⟨start + i, by omega, by omega, rfl⟩

lemma Coherent.writeMemory (coh : core.Coherent board) (addr : Nat) (bytes : List (BitVec 8)) :
    ∃ post, core.writeMemory addr bytes = some post ∧ post.Coherent board ∧ core.Fewer post := by
  simp only [Core.writeMemory]
  split_ifs with empty out
  · exact ⟨core, rfl, coh, fun _ _ => rfl⟩
  · exact ⟨core, rfl, coh, fun _ _ => rfl⟩
  · have fits := coh.geometry.fits
    rw [Nat.mod_eq_of_lt fits] at out
    have wrote : addr + bytes.length ≤ addr + bytes.length := Nat.le_refl _
    obtain ⟨post, hit, call, done⟩ := coh.invalidateRange (by omega) wrote (by omega)
    exact ⟨post, by rw [call]; rfl, done⟩

end

end Core

namespace Syscall

variable {board : Board} {core : Core Entry}

def Admissible : Syscall → Prop
  | .read _ size data | .loadImage _ size data _ => data.length ≤ size
  | _ => True

/-- A buffer that is filled without an invalidation holds no code, and one for an image does not
go beyond the last address. -/
def Careful (core : Core Entry) : Syscall → Prop
  | .read buffer size data => core.hasRamBuffer buffer size = true → core.Untouched buffer data.length
  | .time _ _ => True
  | .argv buffer size args =>
    core.hasRamBuffer buffer size = true → core.Untouched buffer (argvBytes buffer args).length
  | .loadImage dst size data loaded =>
    core.hasRamBuffer dst size = true →
      if loaded then dst + size < 2 ^ 32 else core.Untouched dst data.length

lemma run_coherent (call : Syscall) (coh : core.Coherent board) (legal : call.Admissible)
    (safe : call.Careful core) :
    ∃ post, core.doSyscall call = some post ∧ post.Coherent board ∧ core.Fewer post := by
  have nil : ∃ post, some core = some post ∧ post.Coherent board ∧ core.Fewer post :=
    ⟨core, rfl, coh, fun _ _ => rfl⟩
  cases call with
  | read buf size data =>
    simp only [doSyscall]
    split_ifs with valid
    · exact ⟨_, rfl, coh.untouched (safe valid)⟩
    · exact nil
  | time addr now =>
    simp only [doSyscall]
    split_ifs with valid
    · have sound := storeBytes_sound coh.sound addr (littleEndian 4 now)
      obtain ⟨isIn, -⟩ := (core.isValidRamAddress_iff addr).mp valid.2.1
      obtain ⟨post, hit, called, clr⟩ := invalidateWord_spec sound.tracked addr
      refine ⟨post, by rw [called]; rfl, coh.written isIn clr fun i wrote => ?_⟩
      rw [length_littleEndian] at wrote
      exact toRamPc_word (Nat.le_of_succ_le coh.geometry.ram) isIn valid.2.2 (by omega) (by omega)
    · exact nil
  | argv buf size args =>
    simp only [doSyscall]
    split_ifs with small valid
    · exact nil
    · exact ⟨_, rfl, coh.untouched (safe valid)⟩
    · exact nil
  | loadImage dst size data loaded =>
    simp only [doSyscall]
    split_ifs with valid isLoaded
    · have small : dst + size < 2 ^ 32 := by simpa only [if_pos isLoaded] using safe valid
      rw [hasRamBuffer, Bool.and_eq_true, core.isValidRamAddress_iff, core.isValidRamAddress_iff,
        Nat.mod_eq_of_lt small] at valid
      have wrote : dst + data.length ≤ dst + size := Nat.add_le_add_left legal dst
      obtain ⟨post, hit, called, done⟩ := coh.invalidateRange valid.1.1 wrote valid.2.2
      rw [Nat.mod_eq_of_lt small, called]
      exact ⟨post, rfl, done⟩
    · have clear : core.Untouched dst data.length := by simpa only [if_neg isLoaded] using safe valid
      exact ⟨_, rfl, coh.untouched clear⟩
    · exact nil

end Syscall

namespace RamEffect

variable {board : Board} {core : Core Entry}

def Admissible (core : Core Entry) : RamEffect → Prop
  | .store w addr _ => (w.invalidation Entry addr).Admissible Entry.size core
  | _ => True

/-- A store without checks hits no code, and RAM does not move to where it cannot be. -/
def Careful (board : Board) (core : Core Entry) : RamEffect → Prop
  | .store _ _ _ => True
  | .unchecked w addr _ => core.Untouched addr (getLoadStoreSize w)
  | .setRamBase value => { core with ramBaseMultiple := value / core.getRamSize }.Geometry board

lemma names_stored (w : LoadStoreType) {addr i : Nat} (isIn : i < getLoadStoreSize w) :
    (w.invalidation Entry addr).Names (addr + i) := by
  cases w with
  | word => exact ⟨Nat.le_add_right _ _, Nat.add_lt_add_left isIn _⟩
  | short => exact ⟨Nat.le_add_right _ _, Nat.add_lt_add_left isIn _⟩
  | byte =>
    obtain rfl : i = 0 := Nat.lt_one_iff.mp isIn
    rfl

lemma isInvalidation (w : LoadStoreType) (addr : Nat) :
    (w.invalidation Entry addr).isInvalidation = true := by
  cases w <;> rfl

lemma inside_of_admissible {w : LoadStoreType} {addr : Nat}
    (legal : (w.invalidation Entry addr).Admissible Entry.size core) : core.getRamBase ≤ addr := by
  cases w with
  | word => exact ramBase_le_of_holds legal.2.1
  | short => exact ramBase_le_of_holds legal.2
  | byte => exact ramBase_le_of_holds legal

lemma run_coherent (eff : RamEffect) (coh : core.Coherent board) (legal : eff.Admissible core)
    (safe : eff.Careful board core) :
    ∃ post, eff.run core = some post ∧ post.Coherent board ∧ core.Fewer post := by
  cases eff with
  | store w addr value =>
    have sound := storeBytes_sound coh.sound addr (littleEndian (getLoadStoreSize w) value)
    obtain ⟨post, call, clr⟩ := invalidation_spec (Nat.le_of_succ_le sound.ram) sound.tracked
      (w.invalidation Entry addr) (isInvalidation w addr) (by cases w <;> exact legal)
    refine ⟨post, call, coh.written (inside_of_admissible legal) clr fun i wrote => ?_⟩
    rw [length_littleEndian] at wrote
    exact ⟨addr + i, names_stored w wrote, rfl⟩
  | unchecked w addr value =>
    have clear : core.Untouched addr (littleEndian (getLoadStoreSize w) value).length := by
      rw [length_littleEndian]
      exact safe
    exact ⟨_, rfl, coh.untouched clear⟩
  | setRamBase value =>
    obtain ⟨reset, done, coherentReset, same, dead⟩ := coh.reset
    have dead (pc : Nat) : ¬(reset.ramDecodeCache.opcode pc).live = true := Bool.eq_false_iff.mp (dead pc)
    have geom : { reset with ramBaseMultiple := value / core.getRamSize }.Geometry board := by
      obtain ⟨ram, fits, cells, rom, apart⟩ := safe
      have size : 2 ^ reset.ramSizeLog2 = 2 ^ core.ramSizeLog2 := by rw [same.ramSizeLog2]
      simp only [getRamBase, getRamSize] at fits cells apart
      refine ⟨same.ramSizeLog2 ▸ ram, ?_, ?_, rom, ?_⟩
      all_goals simp only [getRamBase, getRamSize, size, same.size]
      · exact fits
      · exact cells
      · exact apart
    refine ⟨{ reset with ramBaseMultiple := value / core.getRamSize }, ?_, ⟨geom, ?_, ?_⟩, ?_⟩
    · rw [RamEffect.run, setRamBaseMultiple, done]
      rfl
    · exact ⟨geom.ram, geom.fits, coherentReset.sound.tracked, fun pc live => absurd live (dead pc)⟩
    · intro pc tracing entry cell
      exact absurd (congrArg OpcodeCell.live cell) (dead pc)
    · exact fun pc live => absurd live (dead pc)

end RamEffect

end Axe
