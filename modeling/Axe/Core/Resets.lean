import Axe.Core.CacheRuns
import Axe.Jit.Fragments

/-! `resetCaches` invalidates RAM word by word. The entries of the decode cache are recorded and
lie in RAM, so the loop reaches all of them. -/

namespace Axe

variable {Inst : Type}

namespace Core

def setTracing (core : Core Inst) (tracing : Bool) : Core Inst :=
  { core with ramDecodeCache := { core.ramDecodeCache with tracingEnabled := tracing } }

/-- `resetCaches`; the end of RAM is a 32-bit sum. -/
def resetCaches (core : Core Inst) : Option (Core Inst) :=
  let ramBase := core.getRamBase
  let ramEnd := (ramBase + core.getRamSize) % 2 ^ 32
  (List.range ((ramEnd - ramBase + 3) / 4)).foldlM
    (fun core i => (core.invalidateWord (ramBase + 4 * i)).map Prod.fst) core

structure Sound (size : Inst → Nat) (core : Core Inst) : Prop where
  ram : 2 ≤ core.ramSizeLog2
  fits : core.getRamBase + core.getRamSize < 2 ^ 32
  tracked : core.ramDecodeCache.Tracked size
  cells : ∀ pc, (core.ramDecodeCache.opcode pc).live = true →
    pc < core.getRamSize / 2 ∧ 2 ≤ (core.ramDecodeCache.opcode pc).size size

section

variable {size : Inst → Nat} {core post : Core Inst}

lemma SameMemory.getRamSize (same : core.SameMemory post) : post.getRamSize = core.getRamSize := by
  rw [Core.getRamSize, Core.getRamSize, same.ramSizeLog2]

lemma SameMemory.getRamBase (same : core.SameMemory post) : post.getRamBase = core.getRamBase := by
  rw [Core.getRamBase, Core.getRamBase, same.getRamSize, same.ramBaseMultiple]

section

variable (sound : core.Sound size)
include sound

lemma Sound.invalidated {named : Nat → Prop}
    (clr : Invalidated size named core post) : post.Sound size where
  ram := clr.sameMemory.ramSizeLog2 ▸ sound.ram
  fits := by
    rw [clr.sameMemory.getRamBase, clr.sameMemory.getRamSize]
    exact sound.fits
  tracked := clr.tracked
  cells := by
    intro pc live
    have kept := clr.survives pc live
    rw [kept, clr.sameMemory.getRamSize]
    exact sound.cells pc (kept ▸ live)

lemma Sound.setOpcode {pc : Nat} (opc : OpcodeCell Inst)
    (isIn : pc < core.getRamSize / 2) (long : 2 ≤ opc.size size) :
    (core.setOpcode pc opc (opc.size size)).Sound size where
  ram := sound.ram
  fits := sound.fits
  tracked := sound.tracked.setOpcode pc opc
  cells := by
    intro q live
    by_cases here : q = pc
    · subst here
      refine ⟨isIn, ?_⟩
      simpa only [Core.setOpcode, DecodeCache.setOpcode, Function.update_self] using long
    · simp only [Core.setOpcode, DecodeCache.setOpcode, Function.update_of_ne here] at live ⊢
      exact sound.cells q live

lemma Sound.of_cells (log : post.ramSizeLog2 = core.ramSizeLog2)
    (mul : post.ramBaseMultiple = core.ramBaseMultiple)
    (live : ∀ pc, (post.ramDecodeCache.opcode pc).live = (core.ramDecodeCache.opcode pc).live)
    (long : ∀ pc, (post.ramDecodeCache.opcode pc).size size = (core.ramDecodeCache.opcode pc).size size)
    (info : post.ramDecodeCache.invalidationInfo = core.ramDecodeCache.invalidationInfo) : post.Sound size := by
  have ramSize : post.getRamSize = core.getRamSize := by rw [getRamSize, getRamSize, log]
  have base : post.getRamBase = core.getRamBase := by rw [getRamBase, getRamBase, ramSize, mul]
  obtain ⟨ram, fits, ⟨head, tail, first⟩, cells⟩ := sound
  refine ⟨log ▸ ram, by rw [base, ramSize]; exact fits, ⟨fun pc => ?_, fun pc i => ?_, by rw [info]; exact first⟩,
    fun pc => ?_⟩
  · rw [live, info]
    exact head pc
  · rw [DecodeCache.Covers, live, long, info]
    exact tail pc i
  · rw [live, long, ramSize]
    exact cells pc

lemma Sound.of_same (log : post.ramSizeLog2 = core.ramSizeLog2)
    (mul : post.ramBaseMultiple = core.ramBaseMultiple)
    (opcode : post.ramDecodeCache.opcode = core.ramDecodeCache.opcode)
    (info : post.ramDecodeCache.invalidationInfo = core.ramDecodeCache.invalidationInfo) : post.Sound size :=
  sound.of_cells log mul (fun pc => by rw [opcode]) (fun pc => by rw [opcode]) info

lemma Sound.compileFragment {pc : Nat} {frag : Fragment}
    (isIn : pc < core.getRamSize / 2) (long : 2 ≤ frag.size) : (core.compileFragment pc frag).Sound size :=
  (sound.setOpcode (.function ⟨pc, core.jit.compiledCount, frag.size⟩) isIn long).of_same rfl rfl rfl rfl

end

lemma Sound.compileFragments {frag : Nat → Fragment} (n : Nat)
    (good : ∀ pc, (frag pc).found = true → 2 ≤ (frag pc).size ∧ pc < core.getRamSize / 2)
    (sound : core.Sound size) (pc : Nat) : (compileFragments frag n core pc).1.Sound size := by
  induction n generalizing core pc with
  | zero => exact sound
  | succ n ih =>
    -- A round compiles one fragment or none; the geometry stays, so the rest goes by induction.
    have next : (core.compileOneFragment pc (frag pc)).core.Sound size ∧
        (core.compileOneFragment pc (frag pc)).core.getRamSize = core.getRamSize := by
      simp only [compileOneFragment]
      split_ifs with known found
      · exact ⟨sound, rfl⟩
      · exact ⟨sound.compileFragment (good pc found).2 (good pc found).1, rfl⟩
      · exact ⟨sound, rfl⟩
    simp only [compileFragments]
    cases (core.compileOneFragment pc (frag pc)).endOfBlock with
    | true => exact next.1
    | false => exact ih (by rw [next.2]; exact good) next.1 _

lemma resetCaches_words (sound : core.Sound size) (n : Nat) (isIn : 4 * n ≤ core.getRamSize) :
    ∃ post, (List.range n).foldlM
        (fun reach i => (reach.invalidateWord (core.getRamBase + 4 * i)).map Prod.fst) core = some post ∧
      InvalidatedUpTo size core core.getRamBase (core.getRamBase + 4 * n) post := by
  induction n with
  | zero => exact ⟨core, rfl, .refl sound.tracked _⟩
  | succ n ih =>
    obtain ⟨reach, looped, upTo⟩ := ih (by omega)
    have ram := sound.ram
    have al : (core.getRamBase + 4 * n) % 4 = 0 := by
      obtain ⟨log, large⟩ := Nat.exists_eq_add_of_le ram
      have base : core.getRamBase = 4 * (2 ^ log * core.ramBaseMultiple) := by
        rw [getRamBase, getRamSize, large, Nat.pow_add, Nat.mul_assoc]
      omega
    obtain ⟨post, hit, called, upTo⟩ := upTo.word (by omega) (by omega) al
    refine ⟨post, ?_, upTo⟩
    rw [List.range_succ, List.foldlM_append, looped]
    simp [called]

lemma resetCaches_spec (sound : core.Sound size) : ∃ post, core.resetCaches = some post ∧ post.Sound size ∧
      (∀ pc, core.KeptOrCleared post pc) ∧ core.SameMemory post ∧
      ∀ pc, (post.ramDecodeCache.opcode pc).live = false := by
  have fits := sound.fits
  have words : (core.getRamSize + 3) / 4 = core.getRamSize / 4 ∧ 4 * (core.getRamSize / 4) = core.getRamSize := by
    obtain ⟨log, large⟩ := Nat.exists_eq_add_of_le sound.ram
    have ramSize : core.getRamSize = 4 * 2 ^ log := by rw [getRamSize, large, Nat.pow_add]
    omega
  obtain ⟨post, looped, clr⟩ := resetCaches_words sound (core.getRamSize / 4) (by omega)
  refine ⟨post, ?_, sound.invalidated clr, clr.entries, clr.sameMemory, fun pc => ?_⟩
  · simp only [resetCaches]
    rw [Nat.mod_eq_of_lt fits, Nat.add_sub_cancel_left, words.1]
    exact looped
  · by_contra live
    rw [Bool.not_eq_false] at live
    obtain ⟨isIn, long⟩ := (sound.invalidated clr).cells pc live
    rw [clr.sameMemory.getRamSize] at isIn
    -- The first byte of the entry is among those the loop went through.
    refine clr.clears pc pc ⟨core.getRamBase + 2 * pc, by omega, by omega, ?_⟩ ⟨live, Nat.le_refl _, by omega⟩
    rw [toRamPc]
    omega

lemma SameMemory.holds {address : Nat} (same : core.SameMemory post) (holds : CacheCall.Holds core address) :
    CacheCall.Holds post address := by
  have valid : post.isValidRamAddress address = core.isValidRamAddress address := by
    rw [isValidRamAddress, isValidRamAddress, same.ramSizeLog2, same.ramBaseMultiple]
  rw [CacheCall.Holds, valid, same.toRamPc, same.size]
  exact holds

end

end Core

end Axe
