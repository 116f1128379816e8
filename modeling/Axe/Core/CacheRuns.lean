import Axe.Core.Invalidation

/-! Runs of stores into the decode cache and of invalidations, in any order and
with entries that begin inside one another. -/

namespace Axe

variable {Inst : Type}

inductive CacheCall (Inst : Type) where
  | setOpcode (pc : Nat) (opc : OpcodeCell Inst)
  | invalidateByte (addr : Nat)
  | invalidateShort (addr : Nat)
  | invalidateWord (addr : Nat)
  | invalidateRange (start limit : Nat)

namespace CacheCall

def isInvalidation : CacheCall Inst → Bool
  | .setOpcode _ _ => false
  | _ => true

def Names : CacheCall Inst → Nat → Prop
  | .setOpcode _ _, _ => False
  | .invalidateByte addr, b => b = addr
  | .invalidateShort addr, b => addr ≤ b ∧ b < addr + 2
  | .invalidateWord addr, b => addr ≤ b ∧ b < addr + 4
  | .invalidateRange start limit, b => start ≤ b ∧ b < limit

def Holds (core : Core Inst) (addr : Nat) : Prop :=
  core.isValidRamAddress addr ∧ core.toRamPc addr < core.ramDecodeCache.size
  deriving Decidable

/-- An entry has a positive whole number of halfwords and fits in the cache. An
invalidation is aligned and names RAM bytes only; a range may begin anywhere but inside
the last word of the address space. -/
def Admissible (size : Inst → Nat) (core : Core Inst) : CacheCall Inst → Prop
  | .setOpcode pc opc =>
    0 < opc.size size ∧ opc.size size % 2 = 0 ∧ pc + opc.size size / 2 ≤ core.ramDecodeCache.size
  | .invalidateByte addr => Holds core addr
  | .invalidateShort addr => addr % 2 = 0 ∧ Holds core addr
  | .invalidateWord addr => addr % 4 = 0 ∧ Holds core addr ∧ Holds core (addr + 2)
  | .invalidateRange start limit =>
    start ≤ limit ∧ limit < 2 ^ 32 ∧ start + 3 < 2 ^ 32 ∧ Holds core start ∧ ∀ b < limit, start ≤ b → Holds core b

instance (size : Inst → Nat) (core : Core Inst) (call : CacheCall Inst) : Decidable (call.Admissible size core) := by
  cases call <;> unfold Admissible <;> infer_instance

def run (size : Inst → Nat) (core : Core Inst) : CacheCall Inst → Option (Core Inst)
  | .setOpcode pc opc => some (core.setOpcode pc opc (opc.size size))
  | .invalidateByte addr => (core.invalidateByte addr).map Prod.fst
  | .invalidateShort addr => (core.invalidateShort addr).map Prod.fst
  | .invalidateWord addr => (core.invalidateWord addr).map Prod.fst
  | .invalidateRange start limit => (core.invalidateRange start limit).map Prod.fst

end CacheCall

namespace Core

/-- A core after some calls; `none` once a backward walk has left the table. -/
def cacheStep (size : Inst → Nat) (st : Option (Core Inst)) (call : CacheCall Inst) : Option (Core Inst) :=
  st.bind fun core => call.run size core

def CacheGuard (size : Inst → Nat) (st : Option (Core Inst)) (call : CacheCall Inst) : Prop :=
  ∀ core ∈ st, call.Admissible size core
  deriving Decidable

/-- The invariant of the runs: no walk has left the table, and the table records the live entries. -/
def CacheInv (size : Inst → Nat) (st : Option (Core Inst)) : Prop :=
  ∃ core, st = some core ∧ 1 ≤ core.ramSizeLog2 ∧ core.ramDecodeCache.Tracked size

section

variable {size : Inst → Nat} {core : Core Inst}

lemma ramBase_le_of_holds {addr : Nat} (holds : CacheCall.Holds core addr) : core.getRamBase ≤ addr := by
  have same : addr / 2 ^ core.ramSizeLog2 = core.ramBaseMultiple := by
    simpa [isValidRamAddress] using holds.1
  rw [getRamBase, getRamSize, ← same]
  exact Nat.mul_div_le _ _

lemma toRamPc_short (ram : 1 ≤ core.ramSizeLog2) {addr b : Nat} (aligned : addr % 2 = 0)
    (low : addr ≤ b) (high : b < addr + 2) : core.toRamPc b = core.toRamPc addr := by
  have even := getRamBase_even ram
  unfold toRamPc
  omega

/-- Every admissible invalidation returns, keeps the table right and clears the entries over the bytes it names. -/
lemma invalidation_spec (ram : 1 ≤ core.ramSizeLog2) (seen : core.ramDecodeCache.Tracked size)
    (call : CacheCall Inst) (invalidates : call.isInvalidation) (legal : call.Admissible size core) :
    ∃ post, call.run size core = some post ∧
      Invalidated size (fun i => ∃ b, call.Names b ∧ core.toRamPc b = i) core post := by
  cases call with
  | setOpcode pc opc => simp [CacheCall.isInvalidation] at invalidates
  | invalidateByte addr =>
    obtain ⟨post, hit, called, clr⟩ := invalidateByte_spec seen addr
    refine ⟨post, by simp [CacheCall.run, called], clr.mono ?_⟩
    rintro i ⟨b, rfl, rfl⟩
    rfl
  | invalidateShort addr =>
    obtain ⟨post, hit, called, clr⟩ := invalidateShort_spec seen addr
    refine ⟨post, by simp [CacheCall.run, called], clr.mono ?_⟩
    rintro i ⟨b, ⟨low, high⟩, rfl⟩
    exact toRamPc_short ram legal.1 low high
  | invalidateWord addr =>
    obtain ⟨post, hit, called, clr⟩ := invalidateWord_spec seen addr
    refine ⟨post, by simp [CacheCall.run, called], clr.mono ?_⟩
    rintro i ⟨b, ⟨low, high⟩, rfl⟩
    exact toRamPc_word ram (ramBase_le_of_holds legal.2.1) legal.1 low high
  | invalidateRange start limit =>
    obtain ⟨ordered, small, fits, first, -⟩ := legal
    obtain ⟨post, hit, called, clr⟩ :=
      invalidateRange_spec seen ram (ramBase_le_of_holds first) ordered small fits
    refine ⟨post, by simp [CacheCall.run, called], clr.mono ?_⟩
    rintro i ⟨b, ⟨low, high⟩, rfl⟩
    exact ⟨b, low, high, rfl⟩

lemma cacheStep_inv (st : Option (Core Inst)) (call : CacheCall Inst) (inv : CacheInv size st)
    (guard : CacheGuard size st call) : CacheInv size (cacheStep size st call) := by
  obtain ⟨core, rfl, ram, seen⟩ := inv
  cases invalidates : call.isInvalidation with
  | true =>
    obtain ⟨post, called, clr⟩ := invalidation_spec ram seen call invalidates (guard core rfl)
    exact ⟨post, called, clr.sameMemory.ramSizeLog2 ▸ ram, clr.tracked⟩
  | false =>
    cases call with
    | setOpcode pc opc => exact ⟨_, rfl, ram, seen.setOpcode pc opc⟩
    | _ => simp [CacheCall.isInvalidation] at invalidates

/-- In every run from an empty cache no backward walk leaves the table, the table
records every live entry, and an invalidation leaves no entry over a byte it names. -/
theorem cache_runs_coherent {halfwords : Nat} {tracing : Bool}
    (empty : core.ramDecodeCache = .initCache Inst halfwords tracing)
    (ram : 1 ≤ core.ramSizeLog2) (calls : List (CacheCall Inst))
    (meets : Runs.Meets (cacheStep size) (CacheGuard size) (some core) calls) :
    ∃ post, calls.foldl (cacheStep size) (some core) = some post ∧
      (∀ pc, (post.ramDecodeCache.opcode pc).live = true → post.ramDecodeCache.invalidationInfo pc ≠ .none ∧
        ∀ i, 0 < i → i < (post.ramDecodeCache.opcode pc).size size / 2 →
          post.ramDecodeCache.invalidationInfo (pc + i) = .currentAndPrevious) ∧
      ∀ call : CacheCall Inst, call.isInvalidation → call.Admissible size post →
        ∃ final, call.run size post = some final ∧
          ∀ b, call.Names b → ∀ pc, ¬ final.ramDecodeCache.Covers size pc (final.toRamPc b) := by
  obtain ⟨post, reach, ram, tracked⟩ : CacheInv size (calls.foldl (cacheStep size) (some core)) :=
    meets.invariant cacheStep_inv ⟨core, rfl, ram, empty ▸ DecodeCache.tracked_initCache size halfwords tracing⟩
  refine ⟨post, reach, ?_, ?_⟩
  · intro pc live
    refine ⟨tracked.head pc live, fun i positive inside => ?_⟩
    exact tracked.tail pc (pc + i) ⟨live, by omega, by omega⟩ (by omega)
  · intro call invalidates legal
    obtain ⟨final, called, cleared⟩ := invalidation_spec ram tracked call invalidates legal
    refine ⟨final, called, fun b named pc => ?_⟩
    rw [cleared.sameMemory.toRamPc b]
    exact cleared.clears pc _ ⟨b, named, rfl⟩

/-- A core with eight bytes of RAM and an empty cache; instructions are their lengths. -/
def smallCore : Core Nat where
  ramSizeLog2 := 3
  ramBaseMultiple := 1
  memory := fun _ => 0
  ramDecodeCache := .initCache Nat 4 false
  jit := ⟨[], fun _ => none, 0, []⟩

/-- Two long entries over each other, a walk that clears both and a range over all of RAM but one byte. -/
theorem cache_runs_coherent_overlap :
    let calls := [.setOpcode 0 (.instruction false 4), .setOpcode 1 (.instruction false 4), .invalidateByte 13,
      .setOpcode 2 (.instruction false 2), .invalidateRange 9 16]
    Runs.Meets (cacheStep id) (CacheGuard id) (some smallCore) calls ∧
      ∃ post, calls.foldl (cacheStep id) (some smallCore) = some post ∧
        ∀ pc, (post.ramDecodeCache.opcode pc).live = true → post.ramDecodeCache.invalidationInfo pc ≠ .none := by
  intro calls
  have meets : Runs.Meets (cacheStep id) (CacheGuard id) (some smallCore) calls := by decide
  obtain ⟨post, reach, marked, -⟩ := cache_runs_coherent rfl (by decide) calls meets
  exact ⟨meets, post, reach, fun pc live => (marked pc live).1⟩

-- With RAM in the last eight bytes of the address space, a range inside the last word leads the second loop on
-- from the end of the range to the first addresses.
example : ({ smallCore with ramBaseMultiple := 2 ^ 29 - 1 } : Core Nat).invalidateRange (2 ^ 32 - 3) (2 ^ 32 - 2) =
    none := by decide

end

end Core

end Axe
