import Axe.Library.ShiftRegister
import Mathlib.Logic.Function.Iterate

/-! The CRC of the `CRC` and `CRC8` instructions, and the checksum of Ethernet frames that the PHY
computes with it. -/

namespace Axe

open Function BitVec

open ShiftRegister

/-- `crc` for a type of `w` bits. -/
def crc {w : Nat} (sum : BitVec 32) (data : BitVec w) (poly : BitVec 32) : BitVec 32 := feed poly w sum data

def crc32 (sum data poly : BitVec 32) : BitVec 32 := crc sum data poly

def crc8 (sum : BitVec 32) (data : BitVec 8) (poly : BitVec 32) : BitVec 32 := crc sum data poly

/-- `CRC8_l4r`: the checksum and what is left of the data. -/
def crc8L4r (poly : BitVec 32) : BitVec 32 × BitVec 32 → BitVec 32 × BitVec 32
  | (sum, data) => (crc8 sum (data.setWidth 8) poly, data >>> 8)

namespace EthernetPhy

def crc32Poly : BitVec 32 := 0xEDB88320

def minFrameSize : Nat := 64

/-- The loop over a frame of `transmitFrame` and of `appendCRC32`. -/
def crcOver (start : BitVec 32) (frame : List (BitVec 8)) : BitVec 32 :=
  frame.foldl (crc8 · · crc32Poly) start

def startValue : BitVec 32 := 0x9226F562

def bytesOf (word : BitVec 32) : List (BitVec 8) :=
  [word.setWidth 8, (word >>> 8).setWidth 8, (word >>> 16).setWidth 8, (word >>> 24).setWidth 8]

def appendCRC32 (frame : List (BitVec 8)) : List (BitVec 8) :=
  frame ++ bytesOf (~~~crc32 (crcOver startValue frame) 0 crc32Poly)

/-- `EthernetPhyTx::transmitFrame`, with what is given to the link. -/
def transmitFrame (frame : List (BitVec 8)) : Option (List (BitVec 8)) :=
  if frame.length < minFrameSize then none
  else if ~~~crcOver startValue frame ≠ 0 then none
  else some (frame.take (frame.length - 4))

def shiftOut (reg : BitVec 32) : BitVec 32 :=
  if reg.getLsbD 0 then reg >>> 1 ^^^ crc32Poly else reg >>> 1

/-- The frame check sequence of IEEE 802.3: the register begins with ones, each byte is added at
the low end before eight shifts, and the result is complemented. -/
def frameCheckSequence (frame : List (BitVec 8)) : BitVec 32 :=
  ~~~frame.foldl (fun reg byte => shiftOut^[8] (reg ^^^ byte.setWidth 32)) (~~~0)

end EthernetPhy

section

variable (poly : BitVec 32)

lemma crc8_low (sum data : BitVec 32) : crc8 sum (data.setWidth 8) poly = feed poly 8 sum data :=
  feed_congr fun i isIn => by simp [isIn]

lemma crc32_eq_iterate (sum data : BitVec 32) :
    crc32 sum data poly = ((crc8L4r poly)^[4] (sum, data)).1 := by
  simp only [iterate_succ, iterate_zero, comp_apply, id, crc8L4r, crc8_low]
  rw [crc32, crc, feed_add 8 24, feed_add 8 16, feed_add 8 8]

lemma crc32_zero (data : BitVec 32) : crc32 0 data poly = data := by
  apply eq_of_getLsbD_eq
  intro j isIn
  rw [crc32, crc, getLsbD_feed (Nat.le_refl 32) (by simp) isIn, if_neg (by omega), Nat.add_sub_cancel]

lemma crc32_eq_xor (sum data : BitVec 32) : crc32 sum data poly = crc32 sum 0 poly ^^^ data := by
  have parts : crc32 (sum ^^^ 0) (0 ^^^ data) poly = crc32 sum 0 poly ^^^ crc32 0 data poly :=
    feed_xor 32 sum 0 0 data
  rw [crc32_zero, show sum ^^^ 0 = sum from xor_zero, show 0 ^^^ data = data from zero_xor]
    at parts
  exact parts

end

namespace EthernetPhy

lemma crcOver_bytesOf (sum word : BitVec 32) :
    crcOver sum (bytesOf word) = crc32 sum word crc32Poly := by
  rw [crc32_eq_iterate]
  simp [crcOver, bytesOf, crc8L4r]

lemma crcOver_append (sum : BitVec 32) (frame rest : List (BitVec 8)) :
    crcOver sum (frame ++ rest) = crcOver (crcOver sum frame) rest := List.foldl_append

lemma bytesOf_append (b₀ b₁ b₂ b₃ : BitVec 8) : bytesOf (b₃ ++ b₂ ++ b₁ ++ b₀) = [b₀, b₁, b₂, b₃] := by
  have bits (i : Nat) : (b₃ ++ b₂ ++ b₁ ++ b₀).getLsbD i =
      if i < 8 then b₀.getLsbD i else if i - 8 < 8 then b₁.getLsbD (i - 8)
        else if i - 8 - 8 < 8 then b₂.getLsbD (i - 8 - 8) else b₃.getLsbD (i - 8 - 8 - 8) := by
    simp only [getLsbD_append]
  simp only [bytesOf, List.cons.injEq, and_true]
  refine ⟨?_, ?_, ?_, ?_⟩
  all_goals
    apply eq_of_getLsbD_eq
    intro i isIn
    simp only [getLsbD_setWidth, getLsbD_ushiftRight, isIn, decide_true, Bool.true_and]
    refine (bits _).trans ?_
    split_ifs <;> first | omega | rfl | (congr 1; omega)

lemma crc32_startValue : crc32 startValue 0 crc32Poly = ~~~0 := by decide +kernel

/-- `crc32` is four steps of `CRC8`, and starting from `startValue` is starting from 0 with the first four bytes
complemented. -/
theorem crc_steps (sum data poly : BitVec 32) (b₀ b₁ b₂ b₃ : BitVec 8) (rest : List (BitVec 8)) :
    crc32 sum data poly = ((crc8L4r poly)^[4] (sum, data)).1 ∧
      crcOver startValue ([b₀, b₁, b₂, b₃] ++ rest) = crcOver 0 ([~~~b₀, ~~~b₁, ~~~b₂, ~~~b₃] ++ rest) := by
  refine ⟨crc32_eq_iterate poly sum data, ?_⟩
  have word : crc32 startValue (b₃ ++ b₂ ++ b₁ ++ b₀) crc32Poly = ~~~b₃ ++ ~~~b₂ ++ ~~~b₁ ++ ~~~b₀ := by
    rw [crc32_eq_xor, crc32_startValue, ← BitVec.not_append, ← BitVec.not_append, ← BitVec.not_append]
    exact BitVec.allOnes_xor
  rw [crcOver_append, crcOver_append, ← bytesOf_append, ← bytesOf_append, crcOver_bytesOf, crcOver_bytesOf, word,
    crc32_zero]

/-- The last four bytes bring the register to all ones if they are the ones that `appendCRC32` would append. -/
lemma crcOver_last_iff (sum : BitVec 32) {last : List (BitVec 8)} (four : last.length = 4) :
    ~~~crcOver sum last = 0 ↔ last = bytesOf (~~~crc32 sum 0 crc32Poly) := by
  match last, four with
  | [b₀, b₁, b₂, b₃], _ =>
    have read : Function.LeftInverse (crcOver 0) bytesOf := fun word => by rw [crcOver_bytesOf, crc32_zero]
    rw [← bytesOf_append, crcOver_bytesOf, crc32_eq_xor, read.injective.eq_iff, not_xor_left, eq_comm (b := ~~~_)]
    exact BitVec.xor_eq_zero_iff

lemma append_eq_appendCRC32_iff (data : List (BitVec 8)) {last : List (BitVec 8)} (four : last.length = 4) :
    data ++ last = appendCRC32 data ↔ ~~~crcOver startValue (data ++ last) = 0 := by
  rw [crcOver_append, crcOver_last_iff _ four, appendCRC32, List.append_cancel_left_eq]

lemma feed_zero (n : Nat) (reg : BitVec 32) : feed crc32Poly n reg (0 : BitVec 32) = shiftOut^[n] reg := by
  induction n generalizing reg with
  | zero => rfl
  | succ n ih =>
    have out : shift crc32Poly reg false = shiftOut reg := by simp [shift, shiftOut]
    rw [feed, iterate_succ_apply, ← out]
    exact ih _

/-- Adding a byte at the low end is letting it enter at the top, 32 shifts earlier. -/
lemma crc32_crc8 (sum : BitVec 32) (byte : BitVec 8) : crc32 (crc8 sum byte crc32Poly) 0 crc32Poly =
      shiftOut^[8] (crc32 sum 0 crc32Poly ^^^ byte.setWidth 32) := by
  have wide : crc8 sum byte crc32Poly = feed crc32Poly 8 sum (byte.setWidth 32) :=
    feed_congr fun i isIn => by simp [show i < 32 by omega]
  have empty (n : Nat) (large : 8 ≤ n) : byte.setWidth 32 >>> n = 0 := by
    apply eq_of_getLsbD_eq
    intro i _
    simp [getLsbD_of_ge byte (n + i) (by omega)]
  have both : feed crc32Poly 32 (feed crc32Poly 8 sum (byte.setWidth 32)) (byte.setWidth 32 >>> 8) = _ :=
    (feed_add 8 32 sum (byte.setWidth 32)).symm.trans (feed_add 32 8 sum (byte.setWidth 32))
  rw [empty 8 (by omega), empty 32 (by omega), feed_zero 8, ← wide] at both
  rw [← crc32_eq_xor]
  exact both

lemma frameCheckSequence_eq (frame : List (BitVec 8)) :
    frameCheckSequence frame = ~~~crc32 (crcOver startValue frame) 0 crc32Poly := by
  have next (sum : BitVec 32) :
      frame.foldl (fun reg byte => shiftOut^[8] (reg ^^^ byte.setWidth 32)) (crc32 sum 0 crc32Poly) =
        crc32 (crcOver sum frame) 0 crc32Poly := by
    induction frame generalizing sum with
    | nil => rfl
    | cons byte rest ih =>
      rw [List.foldl_cons, ← crc32_crc8]
      exact ih _
  rw [frameCheckSequence, ← crc32_startValue, next]

/-- A frame is accepted exactly when it is not too short and ends with what `appendCRC32` appends, which is the frame
check sequence. -/
theorem transmitFrame_iff (frame : List (BitVec 8)) : ((transmitFrame frame).isSome ↔
      minFrameSize ≤ frame.length ∧ frame = appendCRC32 (frame.take (frame.length - 4))) ∧
      ∀ data, appendCRC32 data = data ++ bytesOf (frameCheckSequence data) := by
  refine ⟨?_, fun data => by rw [appendCRC32, frameCheckSequence_eq]⟩
  rw [transmitFrame]
  by_cases short : frame.length < minFrameSize
  · rw [if_pos short]
    exact ⟨nofun, fun ⟨large, _⟩ => absurd short (Nat.not_lt.mpr large)⟩
  · have parts := List.take_append_drop (frame.length - 4) frame
    have four : (frame.drop (frame.length - 4)).length = 4 := by
      rw [List.length_drop]
      unfold minFrameSize at short
      omega
    have ends := append_eq_appendCRC32_iff (frame.take (frame.length - 4)) four
    rw [parts] at ends
    rw [if_neg short, ends, and_iff_right (Nat.not_lt.mp short)]
    split
    · simp_all
    · simp_all

end EthernetPhy

end Axe
