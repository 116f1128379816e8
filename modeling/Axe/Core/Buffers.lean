import Axe.Core.Locality

/-! The buffers that programs hand to system calls. Whether a buffer lies in memory is decided
by its first address and by the address after its last, in 32-bit arithmetic. -/

namespace Axe

/-- The system calls that are given a buffer. Whether the file descriptor is valid is all that matters of it here. -/
inductive BufferCall where
  | read (isValidFd : Bool)
  | write (isValidFd : Bool)
  | argv (args : List (List (BitVec 8)))
  | loadImage

structure HostRange where
  inRam : Bool
  offset : Nat
  length : Nat
  deriving DecidableEq, Repr

namespace Core

variable {Inst : Type} (board : Board) (core : Core Inst) (addr size : Nat)

def hasBuffer : Bool :=
  if core.isValidRamAddress addr then core.isValidRamAddress ((addr + size) % 2 ^ 32)
  else board.isValidRomAddress addr && board.isValidRomAddress ((addr + size) % 2 ^ 32)

def ramOffset : Nat := addr - core.getRamBase

def romOffset : Nat := (addr + 2 ^ 32 - board.romBase) % 2 ^ 32

def memRange (length : Nat) : HostRange :=
  if core.isValidRamAddress addr then ⟨true, core.ramOffset addr, length⟩
  else ⟨false, romOffset board addr, length⟩

/-- The bytes that a system call lets the host touch, if it accepts the buffer. -/
def hostRange : BufferCall → Option HostRange
  | .read isValidFd =>
    if isValidFd && core.hasRamBuffer addr size then some ⟨true, core.ramOffset addr, size⟩ else none
  | .write isValidFd =>
    if isValidFd && core.hasBuffer board addr size then some (core.memRange board addr size) else none
  | .argv args =>
    -- The size is compared as a signed one.
    if 2 ^ 31 ≤ size ∨ size < (argvBytes addr args).length then none
    else if core.hasRamBuffer addr size then some ⟨true, core.ramOffset addr, (argvBytes addr args).length⟩
    else none
  | .loadImage => if core.hasRamBuffer addr size then some ⟨true, core.ramOffset addr, size⟩ else none

/-- All addresses of the buffer, computed without wrapping, are in RAM. -/
def LiesInRam : Prop := ∀ i < size, core.getRamBase ≤ addr + i ∧ addr + i < core.getRamBase + core.getRamSize

def LiesInRom : Prop := ∀ i < size, addr + i < 2 ^ 32 ∧ board.isValidRomAddress (addr + i) = true

def Acceptable : BufferCall → Prop
  | .read isValidFd => isValidFd = true ∧ core.LiesInRam addr size
  | .write isValidFd => isValidFd = true ∧ (core.LiesInRam addr size ∨ LiesInRom board addr size)
  | .argv args => size < 2 ^ 31 ∧ (argvBytes addr args).length ≤ size ∧ core.LiesInRam addr size
  | .loadImage => core.LiesInRam addr size

/-- The two tests accept a buffer exactly when it lies in memory. -/
def TestsRight : Prop :=
  (core.hasRamBuffer addr size = true ↔ core.LiesInRam addr size) ∧
    (core.hasBuffer board addr size = true ↔ core.LiesInRam addr size ∨ LiesInRom board addr size)

def Inside (range : HostRange) : Prop :=
  range.offset + range.length ≤ if range.inRam then core.getRamSize else board.romSize

/-- What is claimed of a buffer: it is accepted exactly when it lies in memory, so that no system call touches
anything else and none rejects a buffer that is there. -/
structure BuffersRight : Prop where
  ramBuffer : core.hasRamBuffer addr size = true ↔ core.LiesInRam addr size
  buffer : core.hasBuffer board addr size = true ↔ core.LiesInRam addr size ∨ LiesInRom board addr size
  inside : ∀ call range, core.hostRange board addr size call = some range → core.Inside board range
  accepted : ∀ call, core.Acceptable board addr size call → (core.hostRange board addr size call).isSome = true

/-- A buffer that begins in RAM does not end with RAM, does not come around to it again, and does not go on into a ROM
that overlaps RAM. One that does not begin in RAM is not empty and, if it begins in ROM, does not end with the ROM,
unless that is beyond the last address, and does not come around either. -/
def BufferFits : Prop :=
  if core.isValidRamAddress addr = true then
    core.ramOffset addr + size ≠ core.getRamSize ∧ core.ramOffset addr + size < 2 ^ 32 ∧
      (core.getRamSize < core.ramOffset addr + size → ¬LiesInRom board addr size)
  else
    size ≠ 0 ∧ (board.isValidRomAddress addr = true →
      romOffset board addr + size < 2 ^ 32 ∧
        (romOffset board addr + size < board.romSize → addr + size ≤ 2 ^ 32) ∧
        (romOffset board addr + size = board.romSize → 2 ^ 32 < addr + size))

structure MemoryMap : Prop where
  ramSize : core.getRamSize < 2 ^ 32
  ram : core.getRamBase + core.getRamSize ≤ 2 ^ 32
  romBase : board.romBase < 2 ^ 32
  romSize : board.romSize < 2 ^ 32

end Core

namespace Core

variable {Inst : Type} {board : Board} {core : Core Inst} (map : core.MemoryMap board) {addr size : Nat}

lemma isValidRomAddress_eq (addr : Nat) :
    board.isValidRomAddress addr = decide (romOffset board addr < board.romSize) := rfl

lemma romOffset_lt (fst : board.isValidRomAddress addr = true) : romOffset board addr < board.romSize := by
  simpa [isValidRomAddress_eq] using fst

include map

section

variable (fst : core.isValidRamAddress addr = true) (word : size < 2 ^ 32)

include fst

omit map in
lemma ramOffset_lt : core.ramOffset addr < core.getRamSize ∧
    addr = core.getRamBase + core.ramOffset addr := by
  obtain ⟨low, high⟩ := (core.isValidRamAddress_iff addr).mp fst
  unfold ramOffset
  omega

omit map in
lemma liesInRam_iff : core.LiesInRam addr size ↔ core.ramOffset addr + size ≤ core.getRamSize := by
  obtain ⟨below, place⟩ := ramOffset_lt fst
  constructor
  · intro lies
    rcases Nat.eq_zero_or_pos size with none | some
    · omega
    · have last := lies (size - 1) (by omega)
      omega
  · intro fits i isIn
    omega

include word

/-- The address after the buffer is in RAM if the buffer ends before RAM does, or if it comes around. -/
lemma hasRamBuffer_iff : core.hasRamBuffer addr size = true ↔
    core.ramOffset addr + size < core.getRamSize ∨ 2 ^ 32 ≤ core.ramOffset addr + size := by
  obtain ⟨below, place⟩ := ramOffset_lt fst
  have ram := map.ram
  unfold hasRamBuffer
  rw [fst, Bool.true_and, core.isValidRamAddress_iff]
  omega

end

section

variable (fst : board.isValidRomAddress addr = true) (word : size < 2 ^ 32)

include fst

lemma liesInRom_iff (isIn : addr < 2 ^ 32) : LiesInRom board addr size ↔
    size = 0 ∨ romOffset board addr + size ≤ board.romSize ∧ addr + size ≤ 2 ^ 32 := by
  have romBase := map.romBase
  have romSize := map.romSize
  have below := romOffset_lt fst
  unfold LiesInRom
  simp only [isValidRomAddress_eq, decide_eq_true_eq]
  unfold romOffset at below ⊢
  constructor
  · intro lies
    rcases Nat.eq_zero_or_pos size with none | some
    · exact .inl none
    · have last := lies (size - 1) (by omega)
      refine .inr ⟨?_, by omega⟩
      -- Otherwise the first address after the ROM is in the buffer.
      by_contra beyond
      have after := lies (board.romSize - (addr + 2 ^ 32 - board.romBase) % 2 ^ 32) (by omega)
      omega
  · rintro (none | ⟨fits, low⟩) i before
    · omega
    · omega

include word

lemma isValidRomAddress_end : board.isValidRomAddress ((addr + size) % 2 ^ 32) = true ↔
    romOffset board addr + size < board.romSize ∨ 2 ^ 32 ≤ romOffset board addr + size := by
  have romBase := map.romBase
  have romSize := map.romSize
  have below := romOffset_lt fst
  rw [isValidRomAddress_eq, decide_eq_true_eq]
  unfold romOffset at below ⊢
  omega

end

omit map in
lemma liesInRam_of_not_valid (out : core.isValidRamAddress addr = false) :
    core.LiesInRam addr size ↔ size = 0 := by
  constructor
  · intro lies
    by_contra some
    have fst := (core.isValidRamAddress_iff addr).mpr (lies 0 (Nat.pos_of_ne_zero some))
    rw [out] at fst
    cases fst
  · intro none i isIn
    omega

omit map in
lemma liesInRom_of_not_valid (out : board.isValidRomAddress addr = false) :
    LiesInRom board addr size ↔ size = 0 := by
  constructor
  · intro lies
    by_contra some
    have fst := (lies 0 (Nat.pos_of_ne_zero some)).2
    rw [Nat.add_zero, out] at fst
    cases fst
  · intro none i isIn
    omega

omit map in
lemma hasBuffer_of_valid (fst : core.isValidRamAddress addr = true) :
    core.hasBuffer board addr size = core.hasRamBuffer addr size := by
  rw [hasBuffer, hasRamBuffer, if_pos fst, fst, Bool.true_and]

omit map in
lemma valid_of_hasRamBuffer (found : core.hasRamBuffer addr size = true) :
    core.isValidRamAddress addr = true := by
  rw [hasRamBuffer, Bool.and_eq_true] at found
  exact found.1

section

variable (right : core.TestsRight board addr size)
include right

omit map in
lemma TestsRight.inside_ram (found : core.hasRamBuffer addr size = true) {len : Nat} (most : len ≤ size) :
    core.Inside board ⟨true, core.ramOffset addr, len⟩ := by
  have fits := (liesInRam_iff (valid_of_hasRamBuffer found)).mp (right.1.mp found)
  exact Nat.le_trans (Nat.add_le_add_left most _) fits

lemma TestsRight.inside_memRange (low : addr < 2 ^ 32)
    (found : core.hasBuffer board addr size = true) : core.Inside board (core.memRange board addr size) := by
  cases fst : core.isValidRamAddress addr with
  | true =>
    rw [memRange, if_pos fst]
    rw [hasBuffer_of_valid fst] at found
    exact right.inside_ram found (Nat.le_refl size)
  | false =>
    have rom : board.isValidRomAddress addr = true := by
      simp only [hasBuffer, fst, Bool.false_eq_true, if_false, Bool.and_eq_true] at found
      exact found.1
    have below := romOffset_lt rom
    have fits : romOffset board addr + size ≤ board.romSize := by
      have lies := right.2.mp found
      rw [liesInRam_of_not_valid fst, liesInRom_iff map rom low] at lies
      omega
    simp only [memRange, fst, Bool.false_eq_true, if_false]
    exact fits

lemma TestsRight.buffersRight (low : addr < 2 ^ 32) : core.BuffersRight board addr size := by
  refine ⟨right.1, right.2, ?_, ?_⟩
  · intro call range given
    cases call with
    | read isValidFd =>
      obtain ⟨found, same⟩ := Option.ite_none_right_eq_some.mp given
      rw [Bool.and_eq_true] at found
      cases same
      exact right.inside_ram found.2 (Nat.le_refl size)
    | write isValidFd =>
      obtain ⟨found, same⟩ := Option.ite_none_right_eq_some.mp given
      rw [Bool.and_eq_true] at found
      cases same
      exact right.inside_memRange map low found.2
    | argv args =>
      obtain ⟨large, given⟩ := Option.ite_none_left_eq_some.mp given
      obtain ⟨found, same⟩ := Option.ite_none_right_eq_some.mp given
      cases same
      exact right.inside_ram found (by omega)
    | loadImage =>
      obtain ⟨found, same⟩ := Option.ite_none_right_eq_some.mp given
      cases same
      exact right.inside_ram found (Nat.le_refl size)
  · intro call fits
    cases call with
    | read isValidFd => simp [hostRange, fits.1, right.1.mpr fits.2]
    | write isValidFd => simp [hostRange, fits.1, right.2.mpr fits.2]
    | argv args =>
      obtain ⟨small, long, lies⟩ := fits
      rw [hostRange, if_neg (by omega), if_pos (right.1.mpr lies)]
      rfl
    | loadImage => simp [hostRange, right.1.mpr fits]

end

lemma testsRight_ram (word : size < 2 ^ 32) (fst : core.isValidRamAddress addr = true) :
    core.TestsRight board addr size ↔ core.BufferFits board addr size := by
  have ramSize := map.ramSize
  rw [TestsRight, BufferFits, if_pos fst, hasBuffer_of_valid fst, hasRamBuffer_iff map fst word, liesInRam_iff fst]
  constructor
  · rintro ⟨ramBuffer, buf⟩
    have fits : core.ramOffset addr + size ≠ core.getRamSize ∧ core.ramOffset addr + size < 2 ^ 32 := by omega
    refine ⟨fits.1, fits.2, fun beyond rom => ?_⟩
    have found := buf.mpr (.inr rom)
    omega
  · rintro ⟨ends, around, apart⟩
    refine ⟨by omega, by omega, ?_⟩
    rintro (fits | rom)
    · omega
    · have fits : ¬core.getRamSize < core.ramOffset addr + size := fun beyond => apart beyond rom
      omega

lemma testsRight_rom (low : addr < 2 ^ 32) (word : size < 2 ^ 32)
    (fst : core.isValidRamAddress addr = false) :
    core.TestsRight board addr size ↔ core.BufferFits board addr size := by
  have romSize := map.romSize
  simp only [TestsRight, BufferFits, hasBuffer, hasRamBuffer, fst, Bool.false_and, Bool.false_eq_true, if_false,
    Bool.and_eq_true, liesInRam_of_not_valid fst, false_iff]
  cases rom : board.isValidRomAddress addr with
  | true =>
    have below := romOffset_lt rom
    rw [isValidRomAddress_end map rom word, liesInRom_iff map rom low]
    simp only [true_and, true_implies]
    omega
  | false =>
    rw [liesInRom_of_not_valid rom]
    simp

omit map

def ram64K : Core Nat where
  ramSizeLog2 := 16
  ramBaseMultiple := 1
  memory := fun _ => 0
  ramDecodeCache := .initCache Nat (2 ^ 15) false
  jit := ⟨[], fun _ => none, 0, []⟩

def bootRom : Board where
  type := .xs1L
  romBase := 0xffffc000
  romSize := 0x4000
  rom := fun _ => 0

lemma ram64K_map : ram64K.MemoryMap bootRom where
  ramSize := by decide
  ram := by decide
  romBase := by decide
  romSize := by decide

end Core

end Axe
