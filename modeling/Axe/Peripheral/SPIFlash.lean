import Mathlib.Data.List.Induction
import Axe.Peripheral.EthernetPhySMI

/-! The SPI flash: commands and addresses come in at the rising edges of the clock, and the image
goes out at the falling ones. -/

namespace Axe

open List

open EthernetPhySMI (msbFirst)

inductive SPIFlash.State where
  | waitForCmd
  | waitForAddress
  | read
  | unknownCmd
  deriving DecidableEq, Repr

/-- What the file holds; to read from an empty one would divide by zero. -/
structure SPIFlash.Image where
  bytes : List (BitVec 8)
  nonempty : bytes ≠ []

structure SPIFlash where
  mem : Option SPIFlash.Image
  state : SPIFlash.State := .waitForCmd
  receiveReg : BitVec 8 := 0
  receivedBits : Nat := 0
  receivedAddressBytes : Nat := 0
  readAddress : BitVec 32 := 0
  sendReg : BitVec 8 := 0
  sendBitsRemaining : BitVec 32 := 0
  misoValue : Bool := false
  sclkValue : Bool := false
  ssValue : Bool := false
  /-- What the pin was last told. -/
  miso : Bool := false

namespace SPIFlash

def Image.byte (image : Image) (addr : Nat) : BitVec 8 :=
  image.bytes.get ⟨addr % image.bytes.length, Nat.mod_lt _ (List.length_pos_of_ne_nil image.nonempty)⟩

def reset (flash : SPIFlash) : SPIFlash :=
  { flash with
    state := .waitForCmd
    receiveReg := 0
    receivedBits := 0
    receivedAddressBytes := 0
    readAddress := 0
    sendReg := 0
    sendBitsRemaining := 0 }

/-- The eighth bit of a byte has come in. -/
def receiveByte (flash : SPIFlash) : SPIFlash :=
  match flash.state with
  | .waitForCmd => { flash with state := if flash.receiveReg = 0x3 then .waitForAddress else .unknownCmd }
  | .waitForAddress =>
    { flash with
      readAddress := flash.readAddress <<< 8 ||| flash.receiveReg.setWidth 32
      receivedAddressBytes := flash.receivedAddressBytes + 1
      state := if flash.receivedAddressBytes + 1 = 3 then .read else .waitForAddress }
  | .read | .unknownCmd => flash

def rise (flash : SPIFlash) (mosi : Bool) : SPIFlash :=
  let flash :=
    { flash with
      receiveReg := flash.receiveReg <<< 1 ||| (if mosi then 1 else 0)
      receivedBits := flash.receivedBits + 1 }
  if flash.receivedBits = 8 then { flash.receiveByte with receiveReg := 0, receivedBits := 0 } else flash

/-- The next byte of the image, when the last one has gone out. -/
def load (flash : SPIFlash) : SPIFlash :=
  match flash.mem with
  | some image =>
    if flash.sendBitsRemaining = 0 then
      { flash with
        sendReg := image.byte flash.readAddress.toNat
        readAddress := flash.readAddress + 1
        sendBitsRemaining := 8 }
    else flash
  | none => flash

def shiftOut (flash : SPIFlash) : SPIFlash :=
  let flash :=
    if flash.sendReg.msb = flash.misoValue then flash
    else { flash with miso := flash.sendReg.msb, misoValue := flash.sendReg.msb }
  { flash with sendReg := flash.sendReg <<< 1, sendBitsRemaining := flash.sendBitsRemaining - 1 }

def fall (flash : SPIFlash) : SPIFlash :=
  if flash.state = .read then flash.load.shiftOut else flash

def seeSCLKChange (flash : SPIFlash) (val mosi : Bool) : SPIFlash :=
  if val = flash.sclkValue then flash
  else
    let flash := { flash with sclkValue := val }
    if flash.ssValue then flash else if val then flash.rise mosi else flash.fall

def seeSSChange (flash : SPIFlash) (val : Bool) : SPIFlash :=
  if val = flash.ssValue then flash
  else
    let flash := { flash with ssValue := val }
    if val then flash.reset else flash

inductive Edge where
  | sclk (val mosi : Bool)
  | ss (val : Bool)

def step (flash : SPIFlash) : Edge → SPIFlash
  | .sclk val mosi => flash.seeSCLKChange val mosi
  | .ss val => flash.seeSSChange val

/-- Deselected, with the clock going on meanwhile, selected again, and with the clock low. -/
def select (flash : SPIFlash) (idle : List (Bool × Bool)) : SPIFlash :=
  let flash := (flash.seeSSChange false).seeSSChange true
  let flash := idle.foldl (fun flash edge => flash.seeSCLKChange edge.1 edge.2) flash
  (flash.seeSSChange false).seeSCLKChange false false

def cycle (flash : SPIFlash) (mosi : Bool) : SPIFlash :=
  (flash.seeSCLKChange true mosi).seeSCLKChange false mosi

/-- The bits of the image from an address on, the most significant one of each byte first. -/
def Image.bit (image : Image) (start j : Nat) : Bool :=
  (image.byte (start + j / 8)).getMsbD (j % 8)

section

variable {flash : SPIFlash} {image : Image} {start j : Nat}

def Told (image : Image) (flash : SPIFlash) : Prop := flash.mem = some image ∧ flash.miso = flash.misoValue

lemma Told.step (told : Told image flash) (edge : Edge) : Told image (flash.step edge) := by
  unfold Told at told ⊢
  cases edge with
  | ss val => grind [SPIFlash.step, seeSSChange, reset]
  | sclk val mosi => grind [SPIFlash.step, seeSCLKChange, rise, receiveByte, fall, load, shiftOut]

lemma select_eq (idle : List (Bool × Bool)) :
    flash.select idle = { mem := flash.mem, misoValue := flash.misoValue, miso := flash.miso } := by
  have deselected : (flash.seeSSChange false).seeSSChange true = { flash.reset with ssValue := true } := by
    cases selected : flash.ssValue <;> simp [seeSSChange, reset, selected]
  have waited : ∃ c, idle.foldl (fun flash edge => flash.seeSCLKChange edge.1 edge.2)
      { flash.reset with ssValue := true } = { flash.reset with ssValue := true, sclkValue := c } := by
    generalize flash.reset = flash
    induction idle generalizing flash with
    | nil => exact ⟨flash.sclkValue, rfl⟩
    | cons edge idle ih =>
      obtain ⟨c, rest⟩ := ih { flash with sclkValue := edge.1 }
      refine ⟨c, ?_⟩
      rw [← rest, foldl_cons]
      congr 1
      grind [seeSCLKChange]
  obtain ⟨c, waited⟩ := waited
  rw [select, deselected, waited]
  cases c <;> simp [seeSSChange, seeSCLKChange, fall, reset]

/-- Selected with the clock low, when so many bits have gone out. -/
structure Reading (image : Image) (start j : Nat) (flash : SPIFlash) : Prop where
  mem : flash.mem = some image
  state : flash.state = .read
  low : flash.sclkValue = false
  selected : flash.ssValue = false
  told : flash.miso = flash.misoValue
  left : flash.sendBitsRemaining = BitVec.ofNat 32 ((8 - j % 8) % 8)
  next : flash.readAddress = BitVec.ofNat 32 (start + (j + 7) / 8)
  reg : j % 8 ≠ 0 → flash.sendReg = image.byte (start + j / 8) <<< (j % 8)

lemma Reading.load (read : Reading image start j flash) (bound : start + j / 8 < 2 ^ 32) : flash.load =
    { flash with
      sendReg := image.byte (start + j / 8) <<< (j % 8), sendBitsRemaining := BitVec.ofNat 32 (8 - j % 8),
      readAddress := BitVec.ofNat 32 (start + j / 8 + 1) } := by
  obtain ⟨mem, state, low, selected, told, left, next, reg⟩ := read
  simp only [SPIFlash.load, mem, left]
  by_cases whole : j % 8 = 0
  · have next : flash.readAddress = BitVec.ofNat 32 (start + j / 8) := by rw [next, show (j + 7) / 8 = j / 8 by omega]
    have first : (8 - j % 8) % 8 = 0 := by omega
    rw [first, if_pos (by rfl), next, BitVec.toNat_ofNat, Nat.mod_eq_of_lt bound, whole, BitVec.shiftLeft_zero,
      BitVec.ofNat_add (start + j / 8) 1]
    rfl
  · have some_left : BitVec.ofNat 32 ((8 - j % 8) % 8) ≠ 0 := by bv_omega
    rw [if_neg some_left, ← reg whole, show 8 - j % 8 = (8 - j % 8) % 8 by omega, ← left,
      show start + j / 8 + 1 = start + (j + 7) / 8 by omega, ← next, ← mem]

lemma shiftOut_eq (told : flash.miso = flash.misoValue) : flash.shiftOut =
    { flash with
      miso := flash.sendReg.msb, misoValue := flash.sendReg.msb, sendReg := flash.sendReg <<< 1,
      sendBitsRemaining := flash.sendBitsRemaining - 1 } := by
  simp only [shiftOut]
  split
  next same => rw [same, ← told]
  next => rfl

lemma Reading.fall (read : Reading image start j flash) (bound : start + j / 8 < 2 ^ 32) :
    Reading image start (j + 1) flash.fall ∧ flash.fall.miso = image.bit start j := by
  have msb : (image.byte (start + j / 8) <<< (j % 8)).msb = image.bit start j := by
    simp [BitVec.msb, BitVec.getMsbD_shiftLeft, Image.bit]
  rw [SPIFlash.fall, if_pos read.state, read.load bound, shiftOut_eq]
  swap
  · exact read.told
  refine ⟨⟨read.mem, read.state, read.low, read.selected, rfl, ?_, ?_, fun partway => ?_⟩, msb⟩
  · bv_omega
  · exact congrArg (BitVec.ofNat 32) (by omega)
  · rw [show (j + 1) / 8 = j / 8 by omega, show (j + 1) % 8 = j % 8 + 1 by omega, BitVec.shiftLeft_add]

lemma rise_eq (flash : SPIFlash) (val mosi : Bool) :
    { flash with sclkValue := val }.rise mosi = { flash.rise mosi with sclkValue := val } ∧
      (flash.rise mosi).sclkValue = flash.sclkValue ∧ (flash.rise mosi).ssValue = flash.ssValue := by
  simp only [rise, receiveByte]
  split
  next => cases flash.state <;> exact ⟨rfl, rfl, rfl⟩
  next => exact ⟨rfl, rfl, rfl⟩

lemma cycle_eq (low : flash.sclkValue = false) (selected : flash.ssValue = false) (mosi : Bool) :
    flash.cycle mosi = (flash.rise mosi).fall := by
  obtain ⟨high, sclk, ss⟩ := rise_eq flash true mosi
  have up : flash.seeSCLKChange true mosi = { flash.rise mosi with sclkValue := true } := by
    rw [← high]
    simp [seeSCLKChange, low, selected]
  rw [cycle, up]
  generalize flash.rise mosi = high at sclk ss
  cases high
  simp_all [seeSCLKChange]

lemma Reading.cycle (read : Reading image start j flash) (bound : start + j / 8 < 2 ^ 32) (mosi : Bool) :
    Reading image start (j + 1) (flash.cycle mosi) ∧ (flash.cycle mosi).miso = image.bit start j := by
  rw [cycle_eq read.low read.selected]
  refine Reading.fall ?_ bound
  obtain ⟨mem, state, low, selected, told, left, next, reg⟩ := read
  simp only [rise, receiveByte, state]
  split <;> exact ⟨mem, rfl, low, selected, told, left, next, reg⟩

lemma Reading.cycles (read : Reading image start 1 flash) (first : flash.miso = image.bit start 0)
    (rest : List Bool) (bound : start + rest.length / 8 < 2 ^ 32) :
    Reading image start (rest.length + 1) (rest.foldl SPIFlash.cycle flash) ∧
      (rest.foldl SPIFlash.cycle flash).miso = image.bit start rest.length := by
  induction rest using reverseRecOn with
  | nil => exact ⟨read, first⟩
  | append_singleton rest mosi ih =>
    rw [length_append, length_singleton] at bound ⊢
    rw [foldl_append]
    exact (ih (by omega)).1.cycle bound mosi

lemma cycles_final {st : State} (final : st = .read ∨ st = .unknownCmd) (bits : List Bool)
    (state : flash.state = st) : (bits.foldl SPIFlash.cycle flash).state = st := by
  induction bits generalizing flash with
  | nil => exact state
  | cons mosi bits ih =>
    apply ih
    grind [SPIFlash.cycle, seeSCLKChange, rise, receiveByte, SPIFlash.fall, SPIFlash.load, shiftOut]

lemma cycles_unread (bits : List Bool) (unread : (bits.foldl SPIFlash.cycle flash).state ≠ .read) :
    (bits.foldl SPIFlash.cycle flash).miso = flash.miso := by
  induction bits generalizing flash with
  | nil => rfl
  | cons mosi bits ih =>
    have early : (flash.cycle mosi).state ≠ .read := fun read => unread (cycles_final (.inl rfl) bits read)
    refine (ih unread).trans ?_
    grind [SPIFlash.cycle, seeSCLKChange, rise, receiveByte, SPIFlash.fall, SPIFlash.load, shiftOut]

end

/-- Bits of a byte have come in. -/
def entering (image : Image) (pin : Bool) (st : State) (bytes : Nat) (addr : BitVec 32) (reg : BitVec 8) (n : Nat) :
    SPIFlash where
  mem := some image
  state := st
  receiveReg := reg
  receivedBits := n
  receivedAddressBytes := bytes
  readAddress := addr
  misoValue := pin
  miso := pin

section

variable {image : Image} {pin : Bool} {st : State} {bytes n : Nat} {addr : BitVec 32} {reg : BitVec 8}

lemma cycle_bit (notRead : st ≠ .read) (early : n ≠ 7) (mosi : Bool) :
    (entering image pin st bytes addr reg n).cycle mosi =
      entering image pin st bytes addr (reg <<< 1 ||| (if mosi then 1 else 0)) (n + 1) := by
  rw [cycle_eq rfl rfl]
  simp [rise, fall, entering, notRead, early]

lemma reg_of_bits : ∀ byte : BitVec 8, (msbFirst byte).foldl (fun (reg : BitVec 8) mosi =>
    reg <<< 1 ||| (if mosi then 1 else 0)) 0 = byte := by
  decide +kernel

lemma cycle_byte (notRead : st ≠ .read) (byte : BitVec 8) :
    (msbFirst byte).foldl cycle (entering image pin st bytes addr 0 0) =
      fall { receiveByte (entering image pin st bytes addr byte 8) with receiveReg := 0, receivedBits := 0 } := by
  have whole := reg_of_bits byte
  simp only [msbFirst, range_succ, range_zero, nil_append, cons_append, map_cons, map_nil,
    foldl_cons, foldl_nil] at whole ⊢
  iterate 7 rw [cycle_bit notRead (by decide)]
  rw [cycle_eq rfl rfl]
  simp only [rise, entering, whole, if_true]

lemma cycle_command (byte : BitVec 8) : (msbFirst byte).foldl cycle (entering image pin .waitForCmd 0 0 0 0) =
    entering image pin (if byte = 3 then .waitForAddress else .unknownCmd) 0 0 0 0 := by
  rw [cycle_byte (by decide)]
  simp only [receiveByte, entering, fall]
  split_ifs <;> simp_all

lemma cycle_address (early : bytes ≠ 2) (byte : BitVec 8) :
    (msbFirst byte).foldl cycle (entering image pin .waitForAddress bytes addr 0 0) =
      entering image pin .waitForAddress (bytes + 1) (addr <<< 8 ||| byte.setWidth 32) 0 0 := by
  rw [cycle_byte (by decide)]
  simp [receiveByte, entering, fall, early]

lemma reading_start (a b c : BitVec 8) : Reading image (a ++ b ++ c).toNat 0
    { receiveByte (entering image pin .waitForAddress (0 + 1 + 1)
        ((0#32 <<< 8 ||| a.setWidth 32) <<< 8 ||| b.setWidth 32) c 8) with receiveReg := 0, receivedBits := 0 } := by
  have addr : ((0#32 <<< 8 ||| a.setWidth 32) <<< 8 ||| b.setWidth 32) <<< 8 ||| c.setWidth 32 =
      BitVec.ofNat 32 (a ++ b ++ c).toNat := by
    rw [BitVec.ofNat_toNat]
    ext i
    simp
    grind
  exact ⟨rfl, rfl, rfl, rfl, rfl, rfl, addr, fun partway => absurd rfl partway⟩

end

/-- The first bit goes out at the end of the last cycle of the address. -/
theorem read_image (image : Image) (edges : List Edge) (idle : List (Bool × Bool)) :
    let selected := (edges.foldl step { mem := some image }).select idle
    (∀ (a b c : BitVec 8) (rest : List Bool), rest.length / 8 < 2 ^ 32 - 2 ^ 24 →
      ((msbFirst 0x03#8 ++ (msbFirst a ++ (msbFirst b ++ (msbFirst c ++ rest)))).foldl cycle selected).miso =
        image.bit (a ++ b ++ c).toNat rest.length) ∧
    ∀ (command : BitVec 8) (later : List Bool) (n : Nat), command ≠ 0x03 →
      (((msbFirst command ++ later).take n).foldl cycle selected).miso = selected.miso := by
  have told : Told image (edges.foldl step { mem := some image }) :=
    Runs.invariant (fun _ edge told => told.step edge) ⟨rfl, rfl⟩ edges
  generalize edges.foldl step { mem := some image } = flash at told
  have selected : flash.select idle = entering image flash.misoValue .waitForCmd 0 0 0 0 := by
    rw [select_eq, told.1, told.2, entering]
  simp only [selected]
  constructor
  · intro a b c rest bound
    simp only [List.foldl_append]
    rw [cycle_command, if_pos (by rfl), cycle_address (by decide), cycle_address (by decide), cycle_byte (by decide)]
    have start : (a ++ b ++ c).toNat < 2 ^ 24 := BitVec.isLt _
    obtain ⟨reading, first⟩ := (reading_start a b c).fall (by omega)
    exact (reading.cycles first rest (by omega)).2
  · intro command later n other
    have unknown : ((msbFirst command ++ later).foldl cycle
        (entering image flash.misoValue .waitForCmd 0 0 0 0)).state = .unknownCmd := by
      rw [List.foldl_append, cycle_command, if_neg other]
      exact cycles_final (.inr rfl) later rfl
    rw [← List.take_append_drop n (msbFirst command ++ later), List.foldl_append] at unknown
    refine cycles_unread _ fun read => ?_
    cases (cycles_final (.inl rfl) _ read).symm.trans unknown

theorem read_wraps :
    let selected := select { mem := some ⟨[0xa5, 0x0f], by decide⟩ } []
    ((msbFirst 0x03#8 ++ (msbFirst 0#8 ++ (msbFirst 0#8 ++ (msbFirst 3#8 ++ List.replicate 8 false)))).foldl cycle
      selected).miso = true ∧
    (((msbFirst 0x9f#8 ++ [true]).take 9).foldl cycle selected).miso = selected.miso := by
  have holds := read_image ⟨[0xa5, 0x0f], by decide⟩ [] []
  exact ⟨holds.1 0 0 3 (List.replicate 8 false) (by decide), holds.2 0x9f [true] 9 (by decide)⟩

end SPIFlash
end Axe
