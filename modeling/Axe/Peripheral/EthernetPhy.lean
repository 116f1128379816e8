import Axe.Library.Runs
import Axe.Peripheral.Checksums
import Axe.Port.State

/-! The two halves of the Ethernet PHY. At the falling edges of the clock the receiving one drives what the link
delivers, nibble by nibble; at the rising edges the transmitting one samples its pins. -/

namespace Axe.EthernetPhy

open List

def maxFrameSize : Nat := 1500 + 18

def interframeGap : Nat := 12 * 8 / 4

/-- The array of `maxFrameSize` bytes; a byte that was never written is `none`. -/
structure FrameArray where
  bytes : Nat → Option (BitVec 8) := fun _ => none
  /-- No write was outside of it. -/
  inside : Bool := true

namespace FrameArray

def copy (frame : FrameArray) (i : Nat) (data : List (BitVec 8)) : FrameArray where
  bytes j := if i ≤ j ∧ j < i + data.length then data[j - i]? else frame.bytes j
  inside := frame.inside && decide (i + data.length ≤ maxFrameSize)

def read (frame : FrameArray) (i : Nat) : BitVec 8 := (frame.bytes i).getD 0

end FrameArray

inductive RxState where
  | idle
  | txSFD2
  | txFrame
  | txEFD
  deriving DecidableEq, Repr

inductive PinChange where
  | rxd (value : Nat)
  | rxDV (value : Nat)
  deriving DecidableEq, Repr

structure Rx where
  rxdValue : Nat := 0
  frame : FrameArray := {}
  frameSize : Nat := 0
  nibblesReceieved : Nat := 0
  state : RxState := .idle
  /-- No byte was read that had not been written. -/
  readsWritten : Bool := true

/-- A run of the receiver, with the pins it changes and the clock periods until the next one. -/
structure RxRun where
  rx : Rx
  changes : List PinChange := []
  periods : Nat := 1

namespace Rx

def appendCRC32 (rx : Rx) : Rx :=
  let crc := ~~~crc32 (crcOver startValue ((List.range rx.frameSize).map rx.frame.read)) 0 crc32Poly
  { rx with frame := rx.frame.copy rx.frameSize (bytesOf crc), frameSize := rx.frameSize + 4 }

/-- `receiveFrame`, given what the link delivers. -/
def receiveFrame (rx : Rx) : Option (List (BitVec 8)) → Option Rx
  | none => none
  | some data =>
    let rx := { rx with frame := rx.frame.copy 0 data, frameSize := data.length }
    let minSize := minFrameSize - 4
    let rx :=
      if rx.frameSize < minSize then
        { rx with
          frame := rx.frame.copy rx.frameSize (List.replicate (minSize - rx.frameSize) 0)
          frameSize := minSize }
      else rx
    some rx.appendCRC32

def setRXD (rx : Rx) (value : Nat) : Rx × List PinChange :=
  if value = rx.rxdValue then (rx, []) else ({ rx with rxdValue := value }, [.rxd value])

def run (rx : Rx) (link : Option (List (BitVec 8))) : RxRun :=
  match rx.state with
  | .idle =>
    match rx.receiveFrame link with
    | none => { rx := rx }
    | some rx =>
      let (rx, changes) := rx.setRXD 0x5
      { rx := { rx with state := .txSFD2 }, changes := changes ++ [.rxDV 1] }
  | .txSFD2 =>
    let (rx, changes) := rx.setRXD 0xd
    { rx := { rx with nibblesReceieved := 0, state := .txFrame }, changes := changes }
  | .txFrame =>
    let byteNum := rx.nibblesReceieved / 2
    let nibbleNum := rx.nibblesReceieved % 2
    let data := ((rx.frame.read byteNum).toNat >>> (nibbleNum * 4)) &&& 0xff
    let (next, changes) := rx.setRXD data
    { rx :=
        { next with
          nibblesReceieved := rx.nibblesReceieved + 1
          state := if rx.nibblesReceieved + 1 = rx.frameSize * 2 then .txEFD else .txFrame
          readsWritten := rx.readsWritten && (rx.frame.bytes byteNum).isSome }
      changes := changes }
  | .txEFD =>
    let (rx, changes) := rx.setRXD 0
    { rx := { rx with state := .idle }, changes := changes ++ [.rxDV 0], periods := interframeGap }

def step (rx : Rx) (link : Option (List (BitVec 8))) : Rx := (rx.run link).rx

def Safe (rx : Rx) : Prop := rx.frame.inside = true ∧ rx.readsWritten = true

def Fits (rx : Rx) (link : Option (List (BitVec 8))) : Prop :=
  rx.state = .idle → ∀ data ∈ link, data.length + 4 ≤ maxFrameSize

end Rx

/-! ### The array -/

namespace FrameArray

lemma copy_append (frame : FrameArray) (i : Nat) (first snd : List (BitVec 8)) :
    frame.copy i (first ++ snd) = (frame.copy i first).copy (i + first.length) snd := by
  simp only [copy, length_append, mk.injEq]
  refine ⟨funext fun j => ?_, ?_⟩
  · rw [getElem?_append]
    grind
  · rw [Bool.and_assoc, ← Bool.decide_and]
    congr 2
    exact propext (by omega)

lemma copy_zero_bytes (frame : FrameArray) {data : List (BitVec 8)} {j : Nat} (isIn : j < data.length) :
    (frame.copy 0 data).bytes j = data[j]? := by
  simp [copy, isIn]

end FrameArray

def padded (data : List (BitVec 8)) : List (BitVec 8) := data ++ List.replicate (minFrameSize - 4 - data.length) 0

lemma length_padded (data : List (BitVec 8)) : (padded data).length = max data.length 60 := by
  simp only [padded, minFrameSize, length_append, length_replicate]
  omega

lemma length_appendCRC32 (data : List (BitVec 8)) : (appendCRC32 data).length = data.length + 4 := by
  simp [appendCRC32, bytesOf]

namespace Rx

lemma receiveFrame_eq (rx : Rx) (data : List (BitVec 8)) : rx.receiveFrame (some data) = some { rx with
    frame := rx.frame.copy 0 (EthernetPhy.appendCRC32 (padded data)), frameSize := (padded data).length + 4 } := by
  have append (size : Nat) (all : size = (padded data).length) :
      appendCRC32 { rx with frame := rx.frame.copy 0 (padded data), frameSize := size } = { rx with
        frame := rx.frame.copy 0 (EthernetPhy.appendCRC32 (padded data)), frameSize := (padded data).length + 4 } := by
    have contents : (range (padded data).length).map (rx.frame.copy 0 (padded data)).read = padded data := by
      apply ext_getElem (by simp)
      intro j _ isIn
      simp [FrameArray.read, FrameArray.copy_zero_bytes rx.frame isIn, isIn]
    subst all
    simp only [appendCRC32, contents, EthernetPhy.appendCRC32, FrameArray.copy_append, Nat.zero_add]
  rw [receiveFrame]
  dsimp only
  split
  · rename_i short
    rw [← append (minFrameSize - 4) (by rw [length_padded]; unfold minFrameSize at *; omega), padded,
      FrameArray.copy_append, Nat.zero_add]
  · rename_i long
    have unpadded : padded data = data := by
      rw [padded, Nat.sub_eq_zero_of_le (Nat.not_lt.mp long), replicate_zero, append_nil]
    rw [← append data.length (congrArg length unpadded.symm), unpadded]

/-- All of the frame that is being sent has been written. -/
structure Inv (rx : Rx) : Prop where
  written : rx.state ≠ .idle → ∀ j < rx.frameSize, (rx.frame.bytes j).isSome
  left : rx.state = .txFrame → rx.nibblesReceieved < rx.frameSize * 2
  large : rx.state ≠ .idle → 0 < rx.frameSize

lemma setRXD_eq (rx : Rx) (value : Nat) : (rx.setRXD value).1 = { rx with rxdValue := value } := by
  unfold setRXD
  split
  · rename_i same
    rw [same]
  · rfl

lemma step_inv (rx : Rx) (link : Option (List (BitVec 8))) (inv : rx.Inv) :
    (rx.step link).Inv ∧ ((rx.step link).Safe ↔ rx.Safe ∧ rx.Fits link) := by
  obtain ⟨wrote, left, large⟩ := inv
  unfold step run Fits Safe
  cases st : rx.state with
  | idle =>
    cases link with
    | none => exact ⟨⟨by simp [receiveFrame, st], by simp [receiveFrame, st], by simp [receiveFrame, st]⟩,
        by simp [receiveFrame]⟩
    | some data =>
      have len := length_appendCRC32 (padded data)
      simp only [receiveFrame_eq, setRXD_eq]
      refine ⟨⟨fun _ j isIn => ?_, nofun, fun _ => Nat.succ_pos _⟩, ?_⟩
      · simp [FrameArray.copy_zero_bytes _ (len ▸ isIn), len ▸ isIn]
      · have fits : max data.length 60 + 4 ≤ maxFrameSize ↔ data.length + 4 ≤ maxFrameSize := by
          unfold maxFrameSize
          omega
        simp [FrameArray.copy, len, length_padded, fits, and_right_comm]
  | txSFD2 =>
    simp only [setRXD_eq]
    exact ⟨⟨fun _ => wrote (by simp [st]), fun _ => Nat.mul_pos (large (by simp [st])) Nat.two_pos,
      fun _ => large (by simp [st])⟩, by simp⟩
  | txFrame =>
    have isIn := left st
    simp only [setRXD_eq]
    refine ⟨⟨fun _ => wrote (by simp [st]), fun more => ?_, fun _ => large (by simp [st])⟩, ?_⟩
    · split at more
      · cases more
      · dsimp only
        omega
    · simp [wrote (by simp [st]) (rx.nibblesReceieved / 2) (by omega)]
  | txEFD =>
    simp only [setRXD_eq]
    exact ⟨⟨nofun, nofun, nofun⟩, by simp⟩

/-- The array is left, or a byte read that was not written, exactly if a frame without room for its checksum is
received. -/
theorem safe_iff (links : List (Option (List (BitVec 8)))) :
    (links.foldl step {}).Safe ↔ Runs.Meets step Fits {} links := by
  have follows (rx : Rx) (inv : rx.Inv) : (links.foldl step rx).Safe ↔ rx.Safe ∧ Runs.Meets step Fits rx links := by
    induction links generalizing rx with
    | nil => simp
    | cons link links ih =>
      obtain ⟨next, safe⟩ := step_inv rx link inv
      rw [List.foldl_cons, ih _ next, safe, Runs.meets_cons, and_assoc]
  rw [follows {} ⟨nofun, nofun, nofun⟩, and_iff_right ⟨rfl, rfl⟩]

/-- A frame of the largest size that the link delivers. -/
theorem largest_overflows : ¬(step {} (some (List.replicate maxFrameSize 0))).Safe := by
  rw [(step_inv {} _ ⟨nofun, nofun, nofun⟩).2]
  rintro ⟨-, fits⟩
  have room := fits rfl _ rfl
  rw [List.length_replicate] at room
  omega

end Rx

end Axe.EthernetPhy
