import Axe.Library.Runs
import Mathlib.Algebra.Ring.Nat

/-! The management interface of the Ethernet PHY: it samples frames at the rising edges of its clock
and drives the register they ask for at the falling ones. -/

namespace Axe.EthernetPhySMI

open Runs

def extractBits (value : BitVec 32) (shift size : Nat) : BitVec 32 :=
  value >>> shift &&& (1#32 <<< size - 1)

def shiftIn (shiftReg : BitVec 32) (value : Bool) : BitVec 32 :=
  shiftReg <<< 1 ||| (if value then 1 else 0)

/-- `EthernetPhyRegisters::read`: only the link status is there, and writing does nothing. -/
def readRegister (reg : BitVec 32) : BitVec 16 :=
  if reg = 1 then 1 <<< 2 else 0

inductive State where
  | waitForPreamble
  | waitForFrameStart
  | frameStart
  | write
  | read1
  | read2
  | read3
  deriving DecidableEq, Repr

structure SMI where
  phyAddress : BitVec 32
  registers : BitVec 32 → BitVec 16
  outputMode : Bool
  shiftReg : BitVec 32
  shiftCount : Nat
  regNum : BitVec 32
  state : State

namespace SMI

/-- The head of a frame is complete. -/
def extract (smi : SMI) : SMI :=
  let phy := extractBits smi.shiftReg 5 5
  let operation := extractBits smi.shiftReg 10 2
  let startOfFrame := extractBits smi.shiftReg 12 2
  let state :=
    if startOfFrame ≠ 1 then .waitForPreamble
    else if phy ≠ 0 ∧ phy ≠ smi.phyAddress then .waitForPreamble
    else if operation = 1 then .write
    else if operation = 2 then .read1
    else .waitForPreamble
  { smi with
    regNum := extractBits smi.shiftReg 0 5
    shiftCount := if state = .write then 0 else smi.shiftCount
    state := state }

/-- An edge of the clock, with the levels it drives. A state that an assertion excludes falls through
to the case below it, as in the source. -/
def seeMDCChange (smi : SMI) (mdc mdio : Bool) : SMI × List Bool :=
  if mdc && !smi.outputMode then
    let smi := { smi with shiftReg := shiftIn smi.shiftReg mdio }
    match smi.state with
    | .waitForFrameStart => (if mdio then smi else { smi with shiftCount := 1, state := .frameStart }, [])
    | .frameStart =>
      let smi := { smi with shiftCount := smi.shiftCount + 1 }
      (if smi.shiftCount = 2 + 2 + 5 + 5 then smi.extract else smi, [])
    | .write =>
      let smi := { smi with shiftCount := smi.shiftCount + 1 }
      (if smi.shiftCount = 16 + 2 then { smi with state := .waitForPreamble } else smi, [])
    | .read1 => ({ smi with outputMode := true, state := .read2 }, [])
    | .waitForPreamble | .read2 | .read3 =>
      (if smi.shiftReg = 0xffffffff then { smi with state := .waitForFrameStart } else smi, [])
  else if !mdc && smi.outputMode then
    match smi.state with
    | .read3 =>
      let smi :=
        if smi.shiftCount = 16 then { smi with outputMode := false, state := .waitForPreamble, shiftReg := 0 } else smi
      ({ smi with shiftReg := smi.shiftReg <<< 1, shiftCount := smi.shiftCount + 1 },
        [(extractBits smi.shiftReg 16 1).getLsbD 0])
    | _ =>
      ({ smi with shiftReg := (smi.registers smi.regNum).setWidth 32, shiftCount := 0, state := .read3 }, [false])
  else (smi, [])

/-- A rising and a falling edge. -/
def cycle (smi : SMI) (mdio : Bool) : SMI × List Bool :=
  let (smi, risen) := smi.seeMDCChange true mdio
  let (smi, fallen) := smi.seeMDCChange false mdio
  (smi, risen ++ fallen)

def step (smi : SMI) (mdio : Bool) : SMI := (smi.cycle mdio).1

/-- What is driven in each cycle. -/
def driven : SMI → List Bool → List (List Bool) :=
  collect step fun smi mdio => [(smi.cycle mdio).2]

end SMI

def msbFirst {w : Nat} (value : BitVec w) : List Bool := (List.range w).map value.getMsbD

/-- A read frame for the PHY with the given address: by how much its preamble exceeds 32 ones, the address in it,
which may also be 0, the register, and the levels on the line from the turnaround on. -/
structure ReadFrame (address : BitVec 32) where
  extra : Nat
  phy : BitVec 5
  reg : BitVec 5
  line : Nat → Bool
  addressed : phy = 0 ∨ phy.setWidth 32 = address

namespace ReadFrame

variable {address : BitVec 32}

def bits (frame : ReadFrame address) : List Bool :=
  List.replicate (32 + frame.extra) true ++ (false ::
    ([true, true, false] ++ (msbFirst frame.phy ++ msbFirst frame.reg)) ++ (List.range 18).map frame.line)

/-- Nothing before the turnaround, a zero for its second bit, the data, and then the line is released. -/
def answer (frame : ReadFrame address) (data : BitVec 16) : List (List Bool) :=
  List.replicate (32 + frame.extra) [] ++
    (List.replicate 14 [] ++ ([false] :: ((msbFirst data).map fun bit => [bit]) ++ [[false]]))

end ReadFrame

open SMI

variable {address : BitVec 32}

/-- What is driven while frames to this address follow each other. -/
def answers : SMI → List (ReadFrame address) → List (List (List Bool)) :=
  collect (fun smi frame => frame.bits.foldl step smi) fun smi frame => [smi.driven frame.bits]

/-- Clocked with these bits, the interface drives this and comes to this state. -/
def Does (smi : SMI) (bits : List Bool) (out : List (List Bool)) (next : SMI) : Prop :=
  bits.foldl step smi = next ∧ smi.driven bits = out

section
variable {smi next last : SMI} {bits later : List Bool} {out rest : List (List Bool)}

lemma Does.nil : Does smi [] [] smi := ⟨rfl, rfl⟩

lemma Does.append (first : Does smi bits out next) (snd : Does next later rest last) :
    Does smi (bits ++ later) (out ++ rest) last := by
  obtain ⟨rfl, rfl⟩ := first
  obtain ⟨rfl, rfl⟩ := snd
  exact ⟨List.foldl_append, collect_append ..⟩

lemma Does.cons {bit : Bool} {now : List Bool} (cycle : smi.cycle bit = (next, now))
    (snd : Does next later rest last) : Does smi (bit :: later) (now :: rest) last := by
  have first : Does smi [bit] [now] next := ⟨congrArg Prod.fst cycle, by simp [driven, collect, cycle]⟩
  exact first.append snd

/-- As long as the interface does not drive, a falling edge does nothing. -/
lemma cycle_of_rise {bit : Bool} (rise : smi.seeMDCChange true bit = (next, []))
    (input : next.outputMode = false) : smi.cycle bit = (next, []) := by
  rw [cycle, rise]
  simp [seeMDCChange, input]

end

variable {registers : BitVec 32 → BitVec 16} {cnt : Nat} {reg : BitVec 32}

/-- The interface with its line as input. -/
def sampling (address : BitVec 32) (registers : BitVec 32 → BitVec 16) (shiftReg : BitVec 32) (cnt : Nat)
    (reg : BitVec 32) (state : State) : SMI :=
  ⟨address, registers, false, shiftReg, cnt, reg, state⟩

/-- The register after this many ones. -/
def ones (n : Nat) : BitVec 32 := BitVec.ofNat 32 (2 ^ n - 1)

lemma shiftIn_ones : ∀ n : Fin 32, shiftIn (ones n) true = ones (n + 1) ∧
    (ones (n + 1) = 0xffffffff#32 ↔ n.val = 31) := by
  decide

lemma does_preamble (n : Nat) (early : n < 32) :
    Does (sampling address registers 0 cnt reg .waitForPreamble) (List.replicate n true) (List.replicate n [])
      (sampling address registers (ones n) cnt reg .waitForPreamble) := by
  induction n with
  | zero => exact .nil
  | succ n ih =>
    rw [List.replicate_succ', List.replicate_succ']
    refine (ih (by omega)).append (.cons (cycle_of_rise ?_ rfl) .nil)
    have short : n ≠ 31 := by omega
    simp [seeMDCChange, sampling, shiftIn_ones ⟨n, by omega⟩, short]

lemma does_ones (extra : Nat) :
    Does (sampling address registers 0 cnt reg .waitForPreamble) (List.replicate (32 + extra) true)
      (List.replicate (32 + extra) []) (sampling address registers (ones 32) cnt reg .waitForFrameStart) := by
  induction extra with
  | zero =>
    have last : shiftIn (ones 31) true = 0xffffffff#32 ∧ ones 32 = 0xffffffff#32 := by decide
    refine (does_preamble 31 (by decide)).append (.cons (cycle_of_rise ?_ rfl) .nil)
    simp [seeMDCChange, sampling, last]
  | succ n ih =>
    rw [← Nat.add_assoc, List.replicate_succ', List.replicate_succ']
    have full : shiftIn (ones 32) true = ones 32 := by decide
    exact ih.append (.cons (cycle_of_rise (by simp [seeMDCChange, sampling, full]) rfl) .nil)

/-- The rest of the 14 bits of a head is shifted in, and then the head is read off. -/
lemma does_head (bits : List Bool) (shiftReg : BitVec 32) (cnt : Nat) (len : cnt + bits.length = 14)
    (some : bits ≠ []) : Does (sampling address registers shiftReg cnt reg .frameStart) bits
      (List.replicate bits.length [])
      (sampling address registers (bits.foldl shiftIn shiftReg) 14 reg .frameStart).extract := by
  induction bits generalizing shiftReg cnt with
  | nil => contradiction
  | cons bit bits ih =>
    rw [List.length_cons] at len ⊢
    by_cases last : bits = []
    · subst last
      obtain rfl : cnt = 13 := by simpa using len
      exact .cons (cycle_of_rise rfl rfl) .nil
    · refine .cons (cycle_of_rise ?_ rfl) (ih (shiftIn shiftReg bit) (cnt + 1) (by omega) last)
      have := List.length_pos_iff.mpr last
      have : cnt ≠ 13 := by omega
      simp [seeMDCChange, sampling, this]

lemma extract_head : ∀ phy reg : BitVec 5,
    let head := ([true, true, false] ++ (msbFirst phy ++ msbFirst reg)).foldl shiftIn (shiftIn (ones 32) false)
    extractBits head 0 5 = reg.setWidth 32 ∧ extractBits head 5 5 = phy.setWidth 32 ∧
      extractBits head 10 2 = 2 ∧ extractBits head 12 2 = 1 := by
  decide +kernel

/-- What a register drives while it is shifted out. -/
def shiftedOut : Nat → BitVec 32 → List (List Bool)
  | 0, _ => []
  | n + 1, data => [data.getLsbD 16] :: shiftedOut n (data <<< 1)

variable (address registers reg) in
lemma does_data (line : List Bool) (data : BitVec 32) (cnt : Nat) (len : cnt + line.length = 16) :
    ∃ rest, Does ⟨address, registers, true, data, cnt, reg, .read3⟩ line (shiftedOut line.length data)
      ⟨address, registers, true, rest, 16, reg, .read3⟩ := by
  induction line generalizing data cnt with
  | nil => exact ⟨data, by simpa [← len, shiftedOut] using Does.nil⟩
  | cons bit line ih =>
    rw [List.length_cons] at len
    obtain ⟨rest, does⟩ := ih (data <<< 1) (cnt + 1) (by omega)
    refine ⟨rest, .cons ?_ does⟩
    have : cnt ≠ 16 := by omega
    simp [cycle, seeMDCChange, extractBits, this]

/-- The bit driven first is the one above the top bit. -/
lemma shiftedOut_eq (value : BitVec 16) :
    shiftedOut 16 (value.setWidth 32) = (msbFirst (value >>> 1)).map fun bit => [bit] := by
  simp [shiftedOut, msbFirst, List.range_succ, BitVec.getMsbD_eq_getLsbD]

lemma does_frame (frame : ReadFrame address) :
    Does (sampling address registers 0 cnt reg .waitForPreamble) frame.bits
      (frame.answer (registers (frame.reg.setWidth 32) >>> 1))
      (sampling address registers 0 17 (frame.reg.setWidth 32) .waitForPreamble) := by
  refine (does_ones frame.extra).append (.append (.cons (cycle_of_rise rfl rfl) (does_head _ _ 1 rfl (by simp))) ?_)
  obtain ⟨regNum, phy, operation, start⟩ := extract_head frame.phy frame.reg
  have taken : ¬(frame.phy.setWidth 32 ≠ 0 ∧ frame.phy.setWidth 32 ≠ address) := by
    rintro ⟨notAll, notOwn⟩
    exact frame.addressed.elim (fun all => notAll (by rw [all]; rfl)) notOwn
  obtain ⟨rest, data⟩ := does_data address registers (frame.reg.setWidth 32)
    (List.ofFn fun i : Fin 16 => frame.line (i + 1)) ((registers (frame.reg.setWidth 32)).setWidth 32) 0 rfl
  rw [List.length_ofFn, shiftedOut_eq] at data
  refine .cons ?_ (data.append (.cons (by simp [cycle, seeMDCChange, sampling, extractBits]) .nil))
  simp only [extract, sampling, regNum, phy, operation, start, if_neg taken]
  simp [cycle, seeMDCChange]

lemma answers_eq (frames : List (ReadFrame address)) :
    answers (sampling address registers 0 cnt reg .waitForPreamble) frames =
      frames.map fun frame => frame.answer (registers (frame.reg.setWidth 32) >>> 1) := by
  induction frames generalizing cnt reg with
  | nil => rfl
  | cons frame frames ih =>
    rw [answers, collect, (does_frame frame).1, (does_frame frame).2]
    exact congrArg (_ :: ·) ih

lemma answer_injective (frame : ReadFrame address) : Function.Injective frame.answer := by
  intro data other same
  simp only [ReadFrame.answer, List.append_cancel_left_eq, List.cons_append, List.cons.injEq, true_and,
    List.append_cancel_right_eq, msbFirst, List.map_map] at same
  refine BitVec.eq_of_getMsbD_eq fun i within => ?_
  simpa using List.map_inj_left.mp same i (List.mem_range.mpr within)

/-- Each frame is answered with the register it asks for exactly if all these registers are zero. -/
theorem answers_iff (frames : List (ReadFrame address)) :
    answers (sampling address registers 0 cnt reg .waitForPreamble) frames =
        frames.map (fun frame => frame.answer (registers (frame.reg.setWidth 32))) ↔
      ∀ frame ∈ frames, registers (frame.reg.setWidth 32) = 0 := by
  rw [answers_eq, List.map_inj_left]
  refine forall₂_congr fun frame _ => ?_
  rw [(answer_injective frame).eq_iff]
  generalize registers (frame.reg.setWidth 32) = value
  constructor
  · intro same
    have := congrArg BitVec.toNat same
    rw [BitVec.toNat_ushiftRight, Nat.shiftRight_eq_div_pow] at this
    exact BitVec.eq_of_toNat_eq (by simp; omega)
  · rintro rfl
    rfl

/-- A read of the status register for all PHYs. -/
def readStatus (address : BitVec 32) : ReadFrame address := ⟨0, 0, 1, fun _ => true, .inl rfl⟩

/-- The status register, 4, is read as 2. -/
theorem status_read_late :
    answers (sampling 0 readRegister 0 0 0 .waitForPreamble) [readStatus 0] ≠
      [(readStatus 0).answer (readRegister 1)] := by
  decide +kernel

end Axe.EthernetPhySMI
