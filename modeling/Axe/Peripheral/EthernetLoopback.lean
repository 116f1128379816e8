import Axe.Peripheral.EthernetPhy

/-! The receiving half of the Ethernet PHY drives the pins of the transmitting half: RXD those of TXD and RX_DV those of
TX_EN. One drives at the falling edges of the clock, the other samples at the rising ones. -/

namespace Axe.EthernetPhy

open List

/-- `EthernetPhyTx`, with constant signals at its pins. -/
structure Tx where
  txd : Nat := 0
  txEN : Nat := 0
  /-- Nothing is connected to TX_ER. -/
  txER : Nat := 0
  inFrame : Bool := false
  hadError : Bool := false
  frame : List (BitVec 8) := []
  hasPrevNibble : Bool := false
  prevNibble : BitVec 8 := 0
  /-- It is in the queue, to run at the next rising edge. -/
  scheduled : Bool := false

namespace Tx

def reset (tx : Tx) : Tx := { tx with inFrame := false, hadError := false, hasPrevNibble := false, frame := [] }

def possibleSFD (tx : Tx) : Bool := tx.txEN == 1 && tx.txd == 0xd

def schedule (tx : Tx) : Tx := if !tx.inFrame && tx.possibleSFD then { tx with scheduled := true } else tx

/-- `seeTXDChange` and `seeTX_ENChange`. -/
def see (tx : Tx) : PinChange → Tx
  | .rxd value => schedule { tx with txd := value }
  | .rxDV value => schedule { tx with txEN := value }

/-- `run` up to its last lines, with what is given to the link. -/
def sample (tx : Tx) : Tx × Option (List (BitVec 8)) :=
  if tx.inFrame then
    if tx.txEN ≠ 0 then
      if tx.txER ≠ 0 then ({ tx with hadError := true }, none)
      else if tx.hasPrevNibble then
        let byte := BitVec.ofNat 8 (tx.txd <<< 4 ||| tx.prevNibble.toNat)
        ({ tx with frame := tx.frame ++ [byte], hasPrevNibble := false }, none)
      else ({ tx with prevNibble := BitVec.ofNat 8 tx.txd, hasPrevNibble := true }, none)
    else (tx.reset, if tx.hadError then none else transmitFrame tx.frame)
  else if tx.txEN ≠ 0 ∧ tx.txd = 0xd then ({ tx with inFrame := true, hadError := decide (tx.txER ≠ 0) }, none)
  else (tx, none)

def run (tx : Tx) : Tx × Option (List (BitVec 8)) :=
  ({ tx.sample.1 with scheduled := tx.txEN == 1 }, tx.sample.2)

/-- In a frame, with TX_EN high. -/
def receiving (txd : Nat) (frame : List (BitVec 8)) (hasPrevNibble : Bool) (prevNibble : BitVec 8) : Tx where
  txd := txd
  txEN := 1
  inFrame := true
  frame := frame
  hasPrevNibble := hasPrevNibble
  prevNibble := prevNibble
  scheduled := true

/-- At the end of a frame. -/
def ending (frame : List (BitVec 8)) (prevNibble : BitVec 8) : Tx where
  inFrame := true
  frame := frame
  prevNibble := prevNibble
  scheduled := true

section

variable (txd : Nat) (frame : List (BitVec 8)) (prev : BitVec 8)

lemma run_low : (receiving txd frame false prev).run = (receiving txd frame true (BitVec.ofNat 8 txd), none) := rfl

lemma run_high : (receiving txd frame true prev).run =
    (receiving txd (frame ++ [BitVec.ofNat 8 (txd <<< 4 ||| prev.toNat)]) false prev, none) := rfl

lemma run_end : (ending frame prev).run = ({ prevNibble := prev }, transmitFrame frame) := rfl

end

end Tx

structure Loopback where
  rx : Rx := {}
  tx : Tx := {}
  /-- What is on RXD at the falling edges at which RX_DV is high. -/
  values : List Nat := []
  /-- What the transmitter has given to the link. -/
  delivered : List (List (BitVec 8)) := []

namespace Loopback

def risingEdge (loop : Loopback) : Loopback :=
  if loop.tx.scheduled then
    { loop with tx := loop.tx.run.1, delivered := loop.delivered ++ loop.tx.run.2.toList }
  else loop

/-- The receiver drives the pins, and its next run is after so many rising edges. -/
def drive (loop : Loopback) (ran : RxRun) : Loopback :=
  let tx := ran.changes.foldl Tx.see loop.tx
  risingEdge^[ran.periods] { loop with
    rx := ran.rx
    tx := tx
    values := loop.values ++ if tx.txEN = 1 then [tx.txd] else [] }

def step (loop : Loopback) (link : Option (List (BitVec 8))) : Loopback := loop.drive (loop.rx.run link)

end Loopback

/-- A frame that the link delivers when it has been asked in vain a number of times. -/
structure Arrival where
  waits : Nat
  data : List (BitVec 8)
  fits : data.length + 4 ≤ maxFrameSize

namespace Arrival

variable (frame : Arrival)

def bytes : List (BitVec 8) := appendCRC32 (padded frame.data)

/-- The answers of the link up to the run that ends the frame; while it is sent the link is not asked. -/
def links : List (Option (List (BitVec 8))) :=
  replicate frame.waits none ++ some frame.data :: replicate (2 * frame.bytes.length + 2) none

/-- The delimiter, then the low and the high nibble of each byte. -/
def nibbles : List Nat := 0x5 :: 0xd :: frame.bytes.flatMap fun byte => [byte.toNat % 16, byte.toNat / 16]

def driven : List Nat := 0x5 :: 0xd :: frame.bytes.flatMap fun byte => [byte.toNat, byte.toNat / 16]

end Arrival

lemma transmitFrame_appendCRC32 {data : List (BitVec 8)} (long : 60 ≤ data.length) :
    transmitFrame (appendCRC32 data) = some data := by
  have accepted : ~~~crcOver startValue (appendCRC32 data) = 0 := (append_eq_appendCRC32_iff data rfl).mp rfl
  have length := length_appendCRC32 data
  rw [transmitFrame, if_neg (by rw [length, minFrameSize]; omega), if_neg (not_not.mpr accepted), length,
    Nat.add_sub_cancel, appendCRC32, take_left]

/-- The whole byte in place of its low nibble does no harm when the high nibble is added. -/
lemma nibbles_byte (byte : BitVec 8) :
    BitVec.ofNat 8 ((byte.toNat / 16) <<< 4 ||| (BitVec.ofNat 8 byte.toNat).toNat) = byte := by
  rw [BitVec.ofNat_toNat, BitVec.setWidth_eq]
  refine BitVec.eq_of_getLsbD_eq fun i inside => ?_
  rw [BitVec.getLsbD_ofNat, Nat.testBit_or, Nat.testBit_shiftLeft, show 16 = 2 ^ 4 from rfl, Nat.testBit_div_two_pow]
  grind

namespace Loopback

variable {loop : Loopback} {bytes : List (BitVec 8)} {i : Nat}

structure Idle (loop : Loopback) : Prop where
  state : loop.rx.state = .idle
  rxd : loop.rx.rxdValue = 0
  tx : ∃ prev, loop.tx = { prevNibble := prev }

/-- The frame is being sent, and `i` of its bytes have been. -/
structure Sending (bytes : List (BitVec 8)) (i : Nat) (loop : Loopback) : Prop where
  contents : ∀ j < bytes.length, some (loop.rx.frame.read j) = bytes[j]?
  size : loop.rx.frameSize = bytes.length
  count : loop.rx.nibblesReceieved = 2 * i
  state : loop.rx.state = if i = bytes.length then .txEFD else .txFrame
  tx : ∃ prev, loop.tx = Tx.receiving loop.rx.rxdValue (bytes.take i) false prev

/-- Values and frames that are added. -/
structure Adds (loop post : Loopback) (values : List Nat) (delivered : List (List (BitVec 8))) : Prop where
  values : post.values = loop.values ++ values
  delivered : post.delivered = loop.delivered ++ delivered

lemma Adds.trans {mid post : Loopback} {first second : List Nat} {out more : List (List (BitVec 8))}
    (one : loop.Adds mid first out) (two : mid.Adds post second more) :
    loop.Adds post (first ++ second) (out ++ more) :=
  ⟨by rw [two.values, one.values, append_assoc], by rw [two.delivered, one.delivered, append_assoc]⟩

lemma see_setRXD {rx : Rx} {tx : Tx} (pins : tx.txd = rx.rxdValue) (inFrame : tx.inFrame = true) (value : Nat) :
    (rx.setRXD value).2.foldl Tx.see tx = { tx with txd := value } := by
  unfold Rx.setRXD
  split
  · rename_i same
    rw [same, ← pins]
    rfl
  · simp [Tx.see, Tx.schedule, inFrame]

lemma risingEdge_quiet (quiet : loop.tx.scheduled = false) (n : Nat) : risingEdge^[n] loop = loop :=
  Function.iterate_fixed (by rw [risingEdge, if_neg (Bool.eq_false_iff.mp quiet)]) n

lemma risingEdges_end {frame : List (BitVec 8)} {prev : BitVec 8} (ends : loop.tx = Tx.ending frame prev) :
    risingEdge^[interframeGap] loop = { loop with
      tx := { prevNibble := prev }
      delivered := loop.delivered ++ (transmitFrame frame).toList } := by
  have first : risingEdge loop = { loop with
      tx := { prevNibble := prev }
      delivered := loop.delivered ++ (transmitFrame frame).toList } := by
    rw [risingEdge, ends, Tx.run_end]
    rfl
  rw [show interframeGap = 23 + 1 from rfl, Function.iterate_succ_apply, first, risingEdge_quiet rfl]

lemma step_waiting (idle : loop.Idle) : loop.step none = loop := by
  obtain ⟨state, rxd, prev, tx⟩ := idle
  have quiet : loop.tx.scheduled = false ∧ loop.tx.txEN = 0 := by rw [tx]; exact ⟨rfl, rfl⟩
  simp [step, drive, Rx.run, state, Rx.receiveFrame, risingEdge, quiet]

lemma step_start (idle : loop.Idle) (data : List (BitVec 8)) (link : Option (List (BitVec 8))) :
    Sending (appendCRC32 (padded data)) 0 ((loop.step (some data)).step link) ∧
      loop.Adds ((loop.step (some data)).step link) [0x5, 0xd] [] := by
  obtain ⟨state, rxd, prev, tx⟩ := idle
  have first : loop.step (some data) =
      { rx := { loop.rx with
          frame := loop.rx.frame.copy 0 (appendCRC32 (padded data))
          frameSize := (padded data).length + 4
          rxdValue := 0x5
          state := .txSFD2 }
        tx := { txd := 0x5, txEN := 1, prevNibble := prev }
        values := loop.values ++ [0x5]
        delivered := loop.delivered } := by
    simp [step, drive, Rx.run, state, Rx.receiveFrame_eq, Rx.setRXD, rxd, tx, Tx.see, Tx.schedule, Tx.possibleSFD,
      risingEdge]
  have second : (loop.step (some data)).step link =
      { rx := { loop.rx with
          frame := loop.rx.frame.copy 0 (appendCRC32 (padded data))
          frameSize := (padded data).length + 4
          rxdValue := 0xd
          nibblesReceieved := 0
          state := .txFrame }
        tx := { txd := 0xd, txEN := 1, inFrame := true, prevNibble := prev, scheduled := true }
        values := loop.values ++ [0x5, 0xd]
        delivered := loop.delivered } := by
    rw [first]
    simp [step, drive, Rx.run, Rx.setRXD, Tx.see, Tx.schedule, Tx.possibleSFD, risingEdge, Tx.run, Tx.sample]
  rw [second]
  have length := length_appendCRC32 (padded data)
  refine ⟨⟨fun j inside => ?_, length.symm, rfl, ?_, prev, rfl⟩, rfl, (append_nil _).symm⟩
  · simp [FrameArray.read, FrameArray.copy_zero_bytes loop.rx.frame inside, inside]
  · rw [if_neg (by omega)]

lemma step_nibble {frame : List (BitVec 8)} {hasPrev : Bool} {prev : BitVec 8} (sends : loop.rx.state = .txFrame)
    (tx : loop.tx = Tx.receiving loop.rx.rxdValue frame hasPrev prev) (link : Option (List (BitVec 8))) {value : Nat}
    (is : ((loop.rx.frame.read (loop.rx.nibblesReceieved / 2)).toNat >>> (loop.rx.nibblesReceieved % 2 * 4)) &&& 0xff =
      value) :
    loop.step link =
      { rx := { loop.rx with
          rxdValue := value
          nibblesReceieved := loop.rx.nibblesReceieved + 1
          state := if loop.rx.nibblesReceieved + 1 = loop.rx.frameSize * 2 then .txEFD else .txFrame
          readsWritten := loop.rx.readsWritten && (loop.rx.frame.bytes (loop.rx.nibblesReceieved / 2)).isSome }
        tx := (Tx.receiving value frame hasPrev prev).run.1
        values := loop.values ++ [value]
        delivered := loop.delivered ++ (Tx.receiving value frame hasPrev prev).run.2.toList } := by
  have seen : (loop.rx.setRXD value).2.foldl Tx.see loop.tx = Tx.receiving value frame hasPrev prev :=
    (see_setRXD (by rw [tx]; rfl) (by rw [tx]; rfl) value).trans (by rw [tx]; rfl)
  simp only [step, drive, Rx.run, sends, is, Rx.setRXD_eq, seen]
  rfl

/-- A byte takes two runs: it is driven as a whole, then its high nibble. -/
lemma Sending.step_byte (sending : Sending bytes i loop) {byte : BitVec 8} (is : bytes[i]? = some byte)
    (link next : Option (List (BitVec 8))) :
    Sending bytes (i + 1) ((loop.step link).step next) ∧
      loop.Adds ((loop.step link).step next) [byte.toNat, byte.toNat / 16] [] := by
  obtain ⟨contents, size, count, state, prev, tx⟩ := sending
  have inside : i < bytes.length := (List.getElem?_eq_some_iff.mp is).1
  have read : loop.rx.frame.read i = byte := Option.some.inj ((contents i inside).trans is)
  have bound := byte.isLt
  have low : ((loop.rx.frame.read (loop.rx.nibblesReceieved / 2)).toNat >>> (loop.rx.nibblesReceieved % 2 * 4)) &&&
      0xff = byte.toNat := by
    rw [count, Nat.mul_div_cancel_left i Nat.two_pos, Nat.mul_mod_right, read]
    exact Nat.and_two_pow_sub_one_of_lt_two_pow (n := 8) bound
  have high : ((loop.rx.frame.read ((loop.rx.nibblesReceieved + 1) / 2)).toNat >>>
      ((loop.rx.nibblesReceieved + 1) % 2 * 4)) &&& 0xff = byte.toNat / 16 := by
    rw [count, show (2 * i + 1) / 2 = i by omega, show (2 * i + 1) % 2 = 1 by omega, read, Nat.shiftRight_eq_div_pow]
    exact Nat.and_two_pow_sub_one_of_lt_two_pow (n := 8) (by omega)
  have first := step_nibble (state.trans (if_neg (by omega))) tx link low
  rw [if_neg (by omega), Tx.run_low] at first
  rw [first, step_nibble rfl rfl next high, Tx.run_high, nibbles_byte]
  refine ⟨⟨contents, size, ?_, ?_, BitVec.ofNat 8 byte.toNat, ?_⟩, ?_, ?_⟩
  · exact congrArg (· + 2) count
  · exact if_congr (by dsimp only; omega) rfl rfl
  · rw [take_add_one, is]
    rfl
  · exact append_assoc ..
  · exact append_nil _

lemma Sending.step_end (sending : Sending bytes bytes.length loop) (link : Option (List (BitVec 8))) :
    (loop.step link).Idle ∧ loop.Adds (loop.step link) [] (transmitFrame bytes).toList := by
  obtain ⟨-, -, -, state, prev, tx⟩ := sending
  rw [if_pos rfl] at state
  rw [take_length] at tx
  have seen : ((loop.rx.setRXD 0).2 ++ [PinChange.rxDV 0]).foldl Tx.see loop.tx = Tx.ending bytes prev := by
    rw [foldl_append, see_setRXD (by rw [tx]; rfl) (by rw [tx]; rfl), tx]
    rfl
  have ended : loop.step link =
      { rx := { loop.rx with rxdValue := 0, state := .idle }
        tx := { prevNibble := prev }
        values := loop.values
        delivered := loop.delivered ++ (transmitFrame bytes).toList } := by
    simp only [step, drive, Rx.run, state, Rx.setRXD_eq, seen]
    rw [risingEdges_end rfl]
    simp [Tx.ending]
  rw [ended]
  exact ⟨⟨rfl, rfl, prev, rfl⟩, (append_nil _).symm, rfl⟩

lemma Sending.steps_bytes (n : Nat) (sending : Sending bytes i loop) (whole : i + n = bytes.length) :
    Sending bytes bytes.length ((replicate (2 * n) none).foldl step loop) ∧
      loop.Adds ((replicate (2 * n) none).foldl step loop)
        ((bytes.drop i).flatMap fun byte => [byte.toNat, byte.toNat / 16]) [] := by
  induction n generalizing i loop with
  | zero =>
    obtain rfl : i = bytes.length := whole
    rw [drop_length]
    exact ⟨sending, (append_nil _).symm, (append_nil _).symm⟩
  | succ n ih =>
    have inside : i < bytes.length := by omega
    obtain ⟨next, one⟩ := sending.step_byte (List.getElem?_eq_getElem inside) none none
    obtain ⟨last, two⟩ := ih next (by omega)
    rw [drop_eq_getElem_cons inside, flatMap_cons]
    exact ⟨last, one.trans two⟩

lemma Idle.steps_frame (idle : loop.Idle) (frame : Arrival) : (frame.links.foldl step loop).Idle ∧
    loop.Adds (frame.links.foldl step loop) frame.driven [padded frame.data] := by
  have waited : (replicate frame.waits none).foldl step loop = loop := by
    induction frame.waits with
    | zero => rfl
    | succ n ih => rw [replicate_succ, foldl_cons, step_waiting idle, ih]
  have sent := transmitFrame_appendCRC32 (show 60 ≤ (padded frame.data).length by rw [length_padded]; omega)
  obtain ⟨begun, one⟩ := step_start idle frame.data none
  obtain ⟨last, two⟩ := begun.steps_bytes frame.bytes.length (Nat.zero_add _)
  obtain ⟨ended, three⟩ := last.step_end none
  have run : frame.links.foldl step loop = ((replicate (2 * frame.bytes.length) none).foldl step
      ((loop.step (some frame.data)).step none)).step none := by
    rw [Arrival.links, foldl_append, waited, foldl_cons, replicate_succ, foldl_cons, replicate_succ', foldl_append]
    rfl
  rw [run]
  refine ⟨ended, ?_⟩
  have all := (one.trans two).trans three
  rw [sent] at all
  simpa [Arrival.driven, Arrival.bytes] using all

lemma Idle.steps (idle : loop.Idle) (frames : List Arrival) : ((frames.flatMap Arrival.links).foldl step loop).Idle ∧
    loop.Adds ((frames.flatMap Arrival.links).foldl step loop) (frames.flatMap Arrival.driven)
      (frames.map fun frame => padded frame.data) := by
  induction frames generalizing loop with
  | nil => exact ⟨idle, (append_nil _).symm, (append_nil _).symm⟩
  | cons frame frames ih =>
    obtain ⟨mid, one⟩ := idle.steps_frame frame
    obtain ⟨last, two⟩ := ih mid
    rw [flatMap_cons, foldl_append, flatMap_cons, map_cons]
    exact ⟨last, one.trans two⟩

end Loopback

lemma Arrival.driven_iff (frame : Arrival) : frame.driven = frame.nibbles ↔ ∀ byte ∈ frame.bytes, byte.toNat < 16 := by
  rw [driven, nibbles, cons.injEq, cons.injEq, eq_self, true_and, eq_self, true_and]
  induction frame.bytes with
  | nil => simp
  | cons byte bytes ih =>
    have low : byte.toNat = byte.toNat % 16 ↔ byte.toNat < 16 := by omega
    simp only [flatMap_cons, cons_append, nil_append, cons.injEq, true_and, ih, low, forall_mem_cons]

lemma flatMap_driven_iff (frames : List Arrival) :
    frames.flatMap Arrival.driven = frames.flatMap Arrival.nibbles ↔
      ∀ frame ∈ frames, ∀ byte ∈ frame.bytes, byte.toNat < 16 := by
  induction frames with
  | nil => simp
  | cons frame frames ih =>
    have length : frame.driven.length = frame.nibbles.length := by simp [Arrival.driven, Arrival.nibbles]
    rw [flatMap_cons, flatMap_cons, forall_mem_cons, ← ih, ← frame.driven_iff]
    exact ⟨fun same => append_inj same length, fun ⟨first, rest⟩ => by rw [first, rest]⟩

/-- The frames are delivered as they came, but what is driven are their nibbles only if no byte has a high nibble. -/
theorem loopback_nibbles_iff (frames : List Arrival) :
    ((frames.flatMap Arrival.links).foldl Loopback.step {}).delivered = frames.map (fun frame => padded frame.data) ∧
      (((frames.flatMap Arrival.links).foldl Loopback.step {}).values = frames.flatMap Arrival.nibbles ↔
        ∀ frame ∈ frames, ∀ byte ∈ frame.bytes, byte.toNat < 16) := by
  have start : ({} : Loopback).Idle := ⟨rfl, rfl, 0, rfl⟩
  obtain ⟨-, values, delivered⟩ := start.steps frames
  refine ⟨delivered, ?_⟩
  rw [values]
  exact flatMap_driven_iff frames

example : ∀ byte ∈ appendCRC32 (padded [5, 4, 7]), byte.toNat < 16 := by decide +kernel

/-- The first value for a byte of ones is the whole byte. -/
theorem whole_byte_driven : ([some [0xff], none, none].foldl Loopback.step {}).values = [0x5, 0xd, 0xff] := by
  decide +kernel

end Axe.EthernetPhy
