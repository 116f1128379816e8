import Axe.Library.Runs
import Mathlib.Tactic.Ring

/-! Where RAM and ROM lie, as a core keeps it and as the decode caches keep it. A core
has the logarithm of the RAM size and the RAM base as a multiple of the size; a decode
cache has a size in halfwords and a base in bytes. All of them are 32-bit values. -/

namespace Axe

/-- The loop of `countLeadingZeros`: `i` goes down from 32 until nothing of the value is left. -/
def countLeadingZerosFrom : Nat → Nat → Nat
  | 0, _ => 0
  | i + 1, val => if val = 0 then i + 1 else countLeadingZerosFrom i (val / 2)

def countLeadingZeros (val : BitVec 32) : Nat := countLeadingZerosFrom 32 val.toNat

lemma countLeadingZerosFrom_eq (i val : Nat) (some : val ≠ 0) (fits : val < 2 ^ i) :
    countLeadingZerosFrom i val = i - 1 - Nat.log2 val := by
  induction i generalizing val with
  | zero => omega
  | succ i ih =>
    rw [countLeadingZerosFrom, if_neg some]
    by_cases last : val / 2 = 0
    · -- one round leaves nothing, and the next one stops
      have one : val = 1 := by omega
      subst one
      have none : (1 : Nat).log2 = 0 := by decide
      rw [none]
      cases i with
      | zero => rfl
      | succ i => rfl
    · have half : val / 2 < 2 ^ i := by omega
      have more : 2 ≤ val := by omega
      rw [ih (val / 2) last half, Nat.log2_def val, if_pos more]
      omega

lemma countLeadingZeros_eq {val : BitVec 32} (some : val ≠ 0) :
    countLeadingZeros val = 31 - Nat.log2 val.toNat := by
  apply countLeadingZerosFrom_eq 32 val.toNat _ val.isLt
  intro zero
  exact some (BitVec.eq_of_toNat_eq zero)

lemma countLeadingZerosFrom_two_pow (i k : Nat) (below : k < i) : countLeadingZerosFrom i (2 ^ k) = i - 1 - k := by
  have pos : 2 ^ k ≠ 0 := Nat.ne_of_gt (Nat.two_pow_pos k)
  rw [countLeadingZerosFrom_eq i (2 ^ k) pos (Nat.pow_lt_pow_right (by decide) below), Nat.log2_two_pow]

structure CacheGeometry where
  size : BitVec 32
  base : BitVec 32
  deriving DecidableEq, Repr

namespace CacheGeometry

variable (cache : CacheGeometry)

def getRunJitAddr : BitVec 32 := cache.size - 1 + 2

def getInterpretOneAddr : BitVec 32 := cache.size - 1 + 3

def getIllegalPCThreadAddr : BitVec 32 := cache.size - 1 + 4

def contains (addr : BitVec 32) : Bool := (addr - cache.base) >>> 1 < cache.size

def isValidPc (pc : BitVec 32) : Bool := pc < cache.size

def toPc (addr : BitVec 32) : BitVec 32 := (addr - cache.base) >>> 1

def fromPc (pc : BitVec 32) : BitVec 32 := (pc <<< 1) + cache.base

end CacheGeometry

structure CoreLayout where
  ramSizeLog2 : Nat
  ramBaseMultiple : BitVec 32
  ramDecodeCache : CacheGeometry
  romBase : BitVec 32
  romSize : BitVec 32
  deriving DecidableEq, Repr

namespace CoreLayout

/-- The constructor of `Core`; the cache gets half the RAM base as its size. -/
def new (ramSize ramBase : BitVec 32) : CoreLayout where
  ramSizeLog2 := 31 - countLeadingZeros ramSize
  ramBaseMultiple := ramBase / ramSize
  ramDecodeCache := ⟨ramBase >>> 1, ramBase⟩
  romBase := 0
  romSize := 0

variable (core : CoreLayout)

def getRamSize : BitVec 32 := 1#32 <<< core.ramSizeLog2

def getRamBase : BitVec 32 := core.getRamSize * core.ramBaseMultiple

/-- A shift by minus one has no result. -/
def getRamSizeShorts : Option (BitVec 32) :=
  if core.ramSizeLog2 = 0 then none else some (1#32 <<< (core.ramSizeLog2 - 1))

def getRunJitAddr : Option (BitVec 32) := core.getRamSizeShorts.map (· - 1 + 2)

def getInterpretOneAddr : Option (BitVec 32) := core.getRamSizeShorts.map (· - 1 + 3)

def getIllegalPCThreadAddr : Option (BitVec 32) := core.getRamSizeShorts.map (· - 1 + 4)

def isValidRamAddress (addr : BitVec 32) : Bool := addr >>> core.ramSizeLog2 == core.ramBaseMultiple

def isValidRomAddress (addr : BitVec 32) : Bool := addr - core.romBase < core.romSize

def isValidRamPc (pc : BitVec 32) : Bool := core.ramDecodeCache.isValidPc pc

def toRamPc (addr : BitVec 32) : BitVec 32 := core.ramDecodeCache.toPc addr

def fromRamPc (pc : BitVec 32) : BitVec 32 := core.ramDecodeCache.fromPc pc

def setRamBaseMultiple (multiple : BitVec 32) : CoreLayout :=
  let moved := { core with ramBaseMultiple := multiple }
  { moved with ramDecodeCache := { core.ramDecodeCache with base := moved.getRamBase } }

def setRamBase (val : BitVec 32) : CoreLayout := core.setRamBaseMultiple (val / core.getRamSize)

def setRom (base size : BitVec 32) : CoreLayout := { core with romBase := base, romSize := size }

end CoreLayout

structure SystemLayout where
  core : CoreLayout
  romDecodeCache : CacheGeometry
  deriving DecidableEq, Repr

namespace SystemLayout

def setRom (core : CoreLayout) (image : List (BitVec 8)) (romBase : BitVec 32) : SystemLayout :=
  let romSize := BitVec.ofNat 32 image.length
  { core := core.setRom romBase romSize, romDecodeCache := ⟨romSize, romBase⟩ }

def configure (ramSize ramBase : BitVec 32) (image : List (BitVec 8)) (romBase : BitVec 32)
    (writes : List (BitVec 32)) : SystemLayout :=
  let start := setRom (.new ramSize ramBase) image romBase
  { start with core := writes.foldl CoreLayout.setRamBase start.core }

structure AgreesAt (layout : SystemLayout) (a : BitVec 32) : Prop where
  ram : layout.core.isValidRamAddress a = layout.core.isValidRamPc (layout.core.toRamPc a)
  rom : layout.core.isValidRomAddress a = layout.romDecodeCache.contains a
  fromRamPc : layout.core.isValidRamAddress a = true → layout.core.fromRamPc (layout.core.toRamPc a) = a
  fromRomPc : layout.core.isValidRomAddress a = true → layout.romDecodeCache.fromPc (layout.romDecodeCache.toPc a) = a

structure Agrees (layout : SystemLayout) : Prop where
  addresses : ∀ a, a.toNat % 2 = 0 → layout.AgreesAt a
  runJit : layout.core.getRunJitAddr = some layout.core.ramDecodeCache.getRunJitAddr
  interpretOne : layout.core.getInterpretOneAddr = some layout.core.ramDecodeCache.getInterpretOneAddr
  illegalPCThread : layout.core.getIllegalPCThreadAddr = some layout.core.ramDecodeCache.getIllegalPCThreadAddr

end SystemLayout

lemma toNat_offset (a base : BitVec 32) : (a - base).toNat = (2 ^ 32 - base.toNat + a.toNat) % 2 ^ 32 :=
  BitVec.toNat_sub a base

namespace CacheGeometry

variable {cache : CacheGeometry} {a : BitVec 32}

lemma contains_iff : cache.contains a = true ↔ (a - cache.base).toNat / 2 < cache.size.toNat := by
  simp [contains, BitVec.lt_def, BitVec.toNat_ushiftRight, Nat.shiftRight_eq_div_pow]

lemma fromPc_toPc (even : (a - cache.base).toNat % 2 = 0) : cache.fromPc (cache.toPc a) = a := by
  have baseBelow := cache.base.isLt
  have below := a.isLt
  apply BitVec.eq_of_toNat_eq
  simp only [toNat_offset] at even
  simp only [fromPc, toPc, BitVec.toNat_add, BitVec.toNat_shiftLeft, BitVec.toNat_ushiftRight, toNat_offset,
    Nat.shiftLeft_eq, Nat.shiftRight_eq_div_pow]
  omega

end CacheGeometry

namespace CoreLayout

structure Aligned (core : CoreLayout) (k : Nat) : Prop where
  log2 : core.ramSizeLog2 = k
  below : k < 32
  fits : 2 ^ k * core.ramBaseMultiple.toNat < 2 ^ 32
  base : core.ramDecodeCache.base = core.getRamBase

variable {core : CoreLayout} {k : Nat}

lemma toNat_getRamSize (log2 : core.ramSizeLog2 = k) (below : k < 32) : core.getRamSize.toNat = 2 ^ k := by
  have small : 2 ^ k < 2 ^ 32 := Nat.pow_lt_pow_right (by omega) below
  simp only [getRamSize, log2, BitVec.toNat_shiftLeft, Nat.shiftLeft_eq, BitVec.toNat_ofNat]
  rw [Nat.one_mod_two_pow (by omega), Nat.one_mul, Nat.mod_eq_of_lt small]

section

variable (aligned : core.Aligned k)
include aligned

lemma Aligned.toNat_base : core.ramDecodeCache.base.toNat = 2 ^ k * core.ramBaseMultiple.toNat := by
  rw [aligned.base, getRamBase, BitVec.toNat_mul, toNat_getRamSize aligned.log2 aligned.below,
    Nat.mod_eq_of_lt aligned.fits]

lemma Aligned.end_le : core.ramDecodeCache.base.toNat + 2 ^ k ≤ 2 ^ 32 := by
  have below := aligned.below
  have whole : (2 : Nat) ^ 32 = 2 ^ k * 2 ^ (32 - k) := by
    rw [← pow_add]
    congr 1
    omega
  have fits := aligned.fits
  rw [whole] at fits
  have fewer : core.ramBaseMultiple.toNat + 1 ≤ 2 ^ (32 - k) := Nat.lt_of_mul_lt_mul_left fits
  calc core.ramDecodeCache.base.toNat + 2 ^ k
      = 2 ^ k * (core.ramBaseMultiple.toNat + 1) := by rw [aligned.toNat_base]; ring
    _ ≤ 2 ^ k * 2 ^ (32 - k) := Nat.mul_le_mul_left _ fewer
    _ = 2 ^ 32 := whole.symm

lemma Aligned.isValidRamAddress_iff (a : BitVec 32) :
    core.isValidRamAddress a = true ↔ (a - core.ramDecodeCache.base).toNat < 2 ^ k := by
  have quot : core.isValidRamAddress a = true ↔ a.toNat / 2 ^ k = core.ramBaseMultiple.toNat := by
    simp only [isValidRamAddress, aligned.log2, beq_iff_eq, ← BitVec.toNat_inj, BitVec.toNat_ushiftRight,
      Nat.shiftRight_eq_div_pow]
  have base := aligned.toNat_base
  have ends := aligned.end_le
  have below := a.isLt
  rw [quot, Nat.div_eq_iff (Nat.two_pow_pos k), toNat_offset]
  rw [Nat.mul_comm, ← base]
  have pos := Nat.two_pow_pos k
  generalize 2 ^ k = size at *
  omega

lemma Aligned.setRamBase (val : BitVec 32) : (core.setRamBase val).Aligned k where
  log2 := aligned.log2
  below := aligned.below
  fits := by
    have mul : (core.setRamBase val).ramBaseMultiple.toNat = val.toNat / 2 ^ k := by
      simp only [CoreLayout.setRamBase, setRamBaseMultiple, BitVec.toNat_udiv]
      rw [toNat_getRamSize aligned.log2 aligned.below]
    rw [mul]
    exact Nat.lt_of_le_of_lt (Nat.mul_div_le _ _) val.isLt
  base := rfl

lemma Aligned.foldl_setRamBase (writes : List (BitVec 32)) : (writes.foldl CoreLayout.setRamBase core).Aligned k := by
  induction writes generalizing core with
  | nil => exact aligned
  | cons val rest ih => exact ih (aligned.setRamBase val)

end

lemma ramSizeLog2_new {size : BitVec 32} (base : BitVec 32) (below : k < 32)
    (power : size.toNat = 2 ^ k) : (new size base).ramSizeLog2 = k := by
  simp only [new, countLeadingZeros, power, countLeadingZerosFrom_two_pow 32 k below]
  omega

lemma new_aligned {size base : BitVec 32} (below : k < 32) (power : size.toNat = 2 ^ k)
    (mul : base.toNat % size.toNat = 0) : (new size base).Aligned k := by
  have log2 := ramSizeLog2_new base below power
  have quot : (new size base).ramBaseMultiple.toNat = base.toNat / 2 ^ k := by
    simp only [new, BitVec.toNat_udiv, power]
  have product : 2 ^ k * (base.toNat / 2 ^ k) = base.toNat :=
    Nat.mul_div_cancel' (Nat.dvd_of_mod_eq_zero (power ▸ mul))
  have fits : 2 ^ k * (new size base).ramBaseMultiple.toNat < 2 ^ 32 := by
    rw [quot, product]
    exact base.isLt
  refine ⟨log2, below, fits, BitVec.eq_of_toNat_eq ?_⟩
  rw [getRamBase, BitVec.toNat_mul, toNat_getRamSize log2 below, Nat.mod_eq_of_lt fits, quot, product]
  rfl

def CacheFits (core : CoreLayout) (k : Nat) : Prop := k ≠ 0 ∧ core.ramDecodeCache.size.toNat = 2 ^ (k - 1)

/-- The constructor makes such a cache only where the base equals the size. -/
lemma cacheFits_new_iff {ramSize : BitVec 32} (base : BitVec 32) (power : ramSize.toNat = 2 ^ k)
    (mul : base.toNat % ramSize.toNat = 0) :
    (new ramSize base).CacheFits k ↔ base = ramSize ∧ 2 ≤ ramSize.toNat := by
  have cells : (new ramSize base).ramDecodeCache.size.toNat = base.toNat / 2 := by
    simp [new, BitVec.toNat_ushiftRight, Nat.shiftRight_eq_div_pow]
  rw [CacheFits, cells, ← BitVec.toNat_inj]
  cases k with
  | zero => simp [power]
  | succ k =>
    have size : ramSize.toNat = 2 * 2 ^ k := by rw [power, pow_succ']
    have pos := Nat.two_pow_pos k
    obtain ⟨quot, product⟩ : 2 * 2 ^ k ∣ base.toNat := size ▸ Nat.dvd_of_mod_eq_zero mul
    have even : base.toNat % 2 = 0 := by
      rw [product, Nat.mul_assoc]
      exact Nat.mul_mod_right 2 _
    simp only [ne_eq, Nat.add_one_ne_zero, not_false_eq_true, true_and, Nat.add_sub_cancel]
    omega

lemma getRamSizeShorts_eq (log2 : core.ramSizeLog2 = k) (below : k < 32) (shorts : BitVec 32) :
    core.getRamSizeShorts = some shorts ↔ k ≠ 0 ∧ shorts.toNat = 2 ^ (k - 1) := by
  have small : 2 ^ (k - 1) < 2 ^ 32 := Nat.pow_lt_pow_right (by omega) (by omega)
  have val : (1#32 <<< (k - 1)).toNat = 2 ^ (k - 1) := by
    simp only [BitVec.toNat_shiftLeft, Nat.shiftLeft_eq, BitVec.toNat_ofNat]
    rw [Nat.one_mod_two_pow (by omega), Nat.one_mul, Nat.mod_eq_of_lt small]
  rw [getRamSizeShorts, log2]
  split
  · simp_all
  next pos => simp [pos, ← BitVec.toNat_inj, val, eq_comm]

lemma pseudoAddr_iff (log2 : core.ramSizeLog2 = k) (below : k < 32) (off : BitVec 32) :
    core.getRamSizeShorts.map (· - 1 + off) = some (core.ramDecodeCache.size - 1 + off) ↔ core.CacheFits k := by
  rw [CacheFits, ← getRamSizeShorts_eq log2 below]
  cases core.getRamSizeShorts with
  | none => simp
  | some shorts => simp

lemma Aligned.base_even (aligned : core.Aligned k) (pos : k ≠ 0) : core.ramDecodeCache.base.toNat % 2 = 0 := by
  obtain ⟨k, rfl⟩ := Nat.exists_eq_succ_of_ne_zero pos
  rw [aligned.toNat_base, Nat.pow_succ, Nat.mul_assoc, Nat.mul_left_comm]
  exact Nat.mul_mod_right 2 _

lemma Aligned.ram_agrees (aligned : core.Aligned k) (fits : core.CacheFits k) {a : BitVec 32}
    (even : a.toNat % 2 = 0) :
    core.isValidRamAddress a = core.isValidRamPc (core.toRamPc a) ∧ core.fromRamPc (core.toRamPc a) = a := by
  have baseEven := aligned.base_even fits.1
  have offsetEven : (a - core.ramDecodeCache.base).toNat % 2 = 0 := by
    rw [toNat_offset]
    omega
  refine ⟨Bool.eq_iff_iff.mpr ?_, CacheGeometry.fromPc_toPc offsetEven⟩
  have size : 2 ^ k = 2 * 2 ^ (k - 1) := by
    rw [← pow_succ']
    congr 1
    have := fits.1
    omega
  have isIn : core.isValidRamPc (core.toRamPc a) = true ↔
      (a - core.ramDecodeCache.base).toNat / 2 < core.ramDecodeCache.size.toNat := CacheGeometry.contains_iff
  rw [aligned.isValidRamAddress_iff, isIn, fits.2, size]
  omega

end CoreLayout

/-- The sizes of ROM in bytes that a cache of as many halfwords is right for. -/
def RomFits (romBase romSize : BitVec 32) : Prop :=
  romSize.toNat = 0 ∨ romBase.toNat % 2 = 0 ∧ (romSize.toNat = 1 ∨ romSize.toNat = 2 ^ 32 - 1)
  deriving Decidable

namespace SystemLayout

lemma rom_agrees_iff (romBase romSize a : BitVec 32) :
    (decide (a - romBase < romSize) = CacheGeometry.contains ⟨romSize, romBase⟩ a) ↔
      ((a - romBase).toNat < romSize.toNat ↔ (a - romBase).toNat / 2 < romSize.toNat) := by
  rw [Bool.eq_iff_iff, CacheGeometry.contains_iff, decide_eq_true_iff, BitVec.lt_def]

lemma exists_address (base : BitVec 32) (off : Nat) (below : off < 2 ^ 32)
    (parity : off % 2 = base.toNat % 2) : ∃ a : BitVec 32, a.toNat % 2 = 0 ∧ (a - base).toNat = off := by
  refine ⟨base + BitVec.ofNat 32 off, ?_, ?_⟩
  · simp only [BitVec.toNat_add, BitVec.toNat_ofNat]
    omega
  · rw [BitVec.add_comm, BitVec.add_sub_cancel, BitVec.toNat_ofNat, Nat.mod_eq_of_lt below]

lemma romFits_of_agrees {romBase romSize : BitVec 32} (agree : ∀ a : BitVec 32, a.toNat % 2 = 0 →
      ((a - romBase).toNat < romSize.toNat ↔ (a - romBase).toNat / 2 < romSize.toNat)) : RomFits romBase romSize := by
  have below := romSize.isLt
  by_contra wrong
  simp only [RomFits, not_or, not_and] at wrong
  obtain ⟨ne, wrong⟩ := wrong
  -- the first address of the right parity behind the ROM is still in the cache
  obtain ⟨off, parity, offsetBelow, behind, inCache⟩ : ∃ off, off % 2 = romBase.toNat % 2 ∧
      off < 2 ^ 32 ∧ romSize.toNat ≤ off ∧ off / 2 < romSize.toNat := by
    by_cases even : romBase.toNat % 2 = 0
    · have := wrong even
      exact ⟨romSize.toNat + romSize.toNat % 2, by omega, by omega, by omega, by omega⟩
    · exact ⟨romSize.toNat + (1 - romSize.toNat % 2), by omega, by omega, by omega, by omega⟩
  obtain ⟨a, aEven, distance⟩ := exists_address romBase off offsetBelow parity
  have := agree a aEven
  rw [distance] at this
  omega

lemma rom_agrees_of_romFits {romBase romSize a : BitVec 32} (fits : RomFits romBase romSize)
    (even : a.toNat % 2 = 0) : ((a - romBase).toNat < romSize.toNat ↔ (a - romBase).toNat / 2 < romSize.toNat) ∧
      ((a - romBase).toNat < romSize.toNat → (a - romBase).toNat % 2 = 0) := by
  have below := (a - romBase).isLt
  obtain empty | ⟨baseEven, fits⟩ := fits
  · simp [empty]
  · have offsetEven : (a - romBase).toNat % 2 = 0 := by
      rw [toNat_offset]
      omega
    refine ⟨?_, fun _ => offsetEven⟩
    obtain one | all := fits <;> omega

lemma agrees_iff {layout : SystemLayout} {k : Nat} (aligned : layout.core.Aligned k)
    (rom : layout.romDecodeCache = ⟨layout.core.romSize, layout.core.romBase⟩) :
    layout.Agrees ↔ layout.core.CacheFits k ∧ RomFits layout.core.romBase layout.core.romSize := by
  have pseudo := layout.core.pseudoAddr_iff aligned.log2 aligned.below
  constructor
  · intro agrees
    refine ⟨(pseudo 2).mp agrees.runJit, romFits_of_agrees fun a even => ?_⟩
    have same := (agrees.addresses a even).rom
    rw [rom] at same
    exact (rom_agrees_iff _ _ a).mp same
  · rintro ⟨ramFits, romFits⟩
    refine ⟨fun a even => ?_, (pseudo 2).mpr ramFits, (pseudo 3).mpr ramFits, (pseudo 4).mpr ramFits⟩
    obtain ⟨ram, fromRamPc⟩ := aligned.ram_agrees ramFits even
    obtain ⟨same, parity⟩ := rom_agrees_of_romFits romFits even
    refine ⟨ram, ?_, fun _ => fromRamPc, fun valid => ?_⟩
    · rw [rom]
      exact (rom_agrees_iff _ _ a).mpr same
    · have isIn : a - layout.core.romBase < layout.core.romSize := by simpa [CoreLayout.isValidRomAddress] using valid
      rw [rom]
      exact CacheGeometry.fromPc_toPc (parity (BitVec.lt_def.mp isIn))

end SystemLayout

lemma CoreLayout.foldl_setRamBase (writes : List (BitVec 32)) (core : CoreLayout) :
    (writes.foldl setRamBase core).ramDecodeCache.size = core.ramDecodeCache.size ∧
      (writes.foldl setRamBase core).romBase = core.romBase ∧
      (writes.foldl setRamBase core).romSize = core.romSize := by
  induction writes generalizing core with
  | nil => exact ⟨rfl, rfl, rfl⟩
  | cons val rest ih => exact ih (core.setRamBase val)

namespace SystemLayout

/-- The representations agree, at first and after every write to `PS_RAM_BASE`, exactly when the RAM base
equals the RAM size and the size of the ROM is one of the few that are the same in bytes and halfwords. -/
theorem configure_agrees_iff (ramSize ramBase : BitVec 32) (power : ∃ k < 32, ramSize.toNat = 2 ^ k)
    (multiple : ramBase.toNat % ramSize.toNat = 0) (image : List (BitVec 8)) (romBase : BitVec 32)
    (writes : List (BitVec 32)) : (configure ramSize ramBase image romBase writes).Agrees ↔
      ramBase = ramSize ∧ 2 ≤ ramSize.toNat ∧ RomFits romBase (BitVec.ofNat 32 image.length) := by
  obtain ⟨k, below, power⟩ := power
  have init : (setRom (.new ramSize ramBase) image romBase).core.Aligned k :=
    let new := CoreLayout.new_aligned below power multiple
    ⟨new.log2, new.below, new.fits, new.base⟩
  have aligned : (configure ramSize ramBase image romBase writes).core.Aligned k :=
    init.foldl_setRamBase writes
  obtain ⟨size, base, bytes⟩ := CoreLayout.foldl_setRamBase writes (setRom (.new ramSize ramBase) image romBase).core
  have rom : (configure ramSize ramBase image romBase writes).romDecodeCache =
      ⟨(configure ramSize ramBase image romBase writes).core.romSize,
        (configure ramSize ramBase image romBase writes).core.romBase⟩ := by
    simp only [configure, bytes, base]
    rfl
  rw [agrees_iff aligned rom]
  have ramFits : (configure ramSize ramBase image romBase writes).core.CacheFits k ↔
      ramBase = ramSize ∧ 2 ≤ ramSize.toNat := by
    rw [← CoreLayout.cacheFits_new_iff ramBase power multiple]
    simp only [CoreLayout.CacheFits, configure, size]
    rfl
  rw [ramFits, and_assoc]
  simp only [configure, bytes, base]
  rfl

/-- The default ROM is 8192 bytes at 0xfff00000; its cache takes the address behind it for one of ROM. -/
theorem configure_romOverrun :
    ¬(configure 0x10000 0x10000 (List.replicate 8192 0) 0xfff00000 []).AgreesAt 0xfff02000 := by
  intro agrees
  have length : (List.replicate 8192 (0 : BitVec 8)).length = 8192 := List.length_replicate
  have wrong := agrees.rom
  simp only [configure, setRom, List.foldl_nil, length] at wrong
  revert wrong
  decide

/-- A core without ROM whose RAM of 64 KiB is at 0x10000, after its RAM was moved to 0x30000. -/
theorem configure_agrees_moved : (configure 0x10000 0x10000 [] 0xfff00000 [0x30000]).Agrees :=
  (configure_agrees_iff 0x10000 0x10000 ⟨16, by decide, by decide⟩ (by decide) [] 0xfff00000 [0x30000]).mpr
    ⟨rfl, by decide, by decide⟩

end SystemLayout

end Axe
