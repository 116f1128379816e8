import Axe.Port.Update

/-! The 32-bit shifts of a port's shift register and of the instructions that shift a register
along with a transfer. The edges of a port are computed with numbers, which can be shifted by any
amount. In the source they are `uint32_t`, and a shift by 32 or more has no result. -/

namespace Axe

open BitVec

def shiftRight (value : BitVec 32) (amount : Nat) : Option (BitVec 32) :=
  if amount < 32 then some (value >>> amount) else none

def shiftLeft (value : BitVec 32) (amount : Nat) : Option (BitVec 32) :=
  if amount < 32 then some (value <<< amount) else none

/-- `makeMask`, which tests for the one amount that cannot be shifted by. -/
def wordMask (w : Nat) : Option (BitVec 32) :=
  if 31 < w then some 0xFFFFFFFF else (shiftLeft 1 w).map (· - 1)

/-- The register operand of the two instructions, the shift register of the port and the value
that `computeSteadyStateInputShiftReg` gave last. -/
structure ShiftState where
  register : BitVec 32
  shiftReg : BitVec 32
  steady : BitVec 32
  deriving DecidableEq, Repr

inductive ShiftStep where
  /-- `INSHR`, for which the port has the given value. -/
  | inshr (value : BitVec 32)
  | outshr
  | nextShiftRegOutputPort
  /-- `seeSamplingEdge`, with the given value on the pins. -/
  | sample (pins : BitVec 32)
  | computeSteady (pins : BitVec 32)
  deriving DecidableEq, Repr

namespace Port

variable (port : Port)

def repeatWord : Nat → Nat → Nat → BitVec 32 → Option (BitVec 32)
  | 0, _, _, val => some val
  | rounds + 1, w, shift, val =>
    if 1 < w then do
      let higher ← shiftLeft val shift
      repeatWord rounds (w / 2) (shift * 2) (higher ||| val)
    else some val

def shiftStep (st : ShiftState) : ShiftStep → Option ShiftState
  | .inshr value => do
    let low ← shiftRight st.register port.transferWidth
    let high ← shiftLeft value (32 - port.transferWidth)
    return { st with register := low ||| high }
  | .outshr => do
    let shifted ← shiftRight st.register port.transferWidth
    return { st with register := shifted }
  | .nextShiftRegOutputPort => do
    let repeatValue ← shiftRight st.shiftReg (port.transferWidth - port.width)
    let retval ← shiftRight st.shiftReg port.width
    let repeated ← shiftLeft repeatValue (port.transferWidth - port.width)
    return { st with shiftReg := retval ||| repeated }
  | .sample pins => do
    let low ← shiftRight st.shiftReg port.width
    let high ← shiftLeft pins (port.transferWidth - port.width)
    return { st with shiftReg := low ||| high }
  | .computeSteady pins => do
    let val ← repeatWord port.shiftRegEntries port.shiftRegEntries port.width pins
    let mask ← wordMask port.transferWidth
    return { st with steady := val &&& mask }

def runShifts (st : ShiftState) (steps : List ShiftStep) : Option ShiftState := steps.foldlM port.shiftStep st

def sampled (shiftReg pins : Nat) : Nat :=
  shiftReg >>> port.width ||| (pins <<< (port.transferWidth - port.width)) % 2 ^ 32

def steadyValue (pins : Nat) : Nat :=
  repeatValue port.shiftRegEntries port.shiftRegEntries port.width pins &&& makeMask port.transferWidth

/-- What is to come out. `INSHR` puts the value above the register and takes the higher 32 bits once the transfer
width is shifted out, and `OUTSHR` divides. -/
def exactStep (st : ShiftState) : ShiftStep → ShiftState
  | .inshr value =>
    { st with register := .ofNat 32 ((value.toNat * 2 ^ 32 + st.register.toNat) / 2 ^ port.transferWidth) }
  | .outshr => { st with register := .ofNat 32 (st.register.toNat / 2 ^ port.transferWidth) }
  | .nextShiftRegOutputPort =>
    { st with shiftReg := .ofNat 32 (port.nextShiftRegOutputPort st.shiftReg.toNat) }
  | .sample pins => { st with shiftReg := .ofNat 32 (port.sampled st.shiftReg.toNat pins.toNat) }
  | .computeSteady pins => { st with steady := .ofNat 32 (port.steadyValue pins.toNat) }

structure LegalWidths : Prop where
  width : port.width ∈ [1, 4, 8, 16, 32]
  transferWidth : port.transferWidth = port.width ∨
    port.width < port.transferWidth ∧ (port.transferWidth = 8 ∨ port.transferWidth = 32)
  entries : port.shiftRegEntries = port.transferWidth / port.width

/-- No register is shifted by the whole 32 bits of a transfer, and no shift register by those of a port. -/
def ShiftsFit : ShiftStep → Prop
  | .inshr _ | .outshr => port.transferWidth < 32
  | .nextShiftRegOutputPort | .sample _ => port.width < 32
  | .computeSteady _ => True

variable {port}

lemma LegalWidths.bounds (legal : port.LegalWidths) :
    0 < port.width ∧ port.width ≤ port.transferWidth ∧ port.transferWidth ≤ 32 := by
  have w := legal.width
  have width := legal.transferWidth
  simp only [List.mem_cons, List.not_mem_nil, or_false] at w
  omega

lemma LegalWidths.entries_mul_le (legal : port.LegalWidths) : port.shiftRegEntries * port.width ≤ 32 := by
  rw [legal.entries]
  exact Nat.le_trans (Nat.div_mul_le_self ..) legal.bounds.2.2

lemma or_shifted (low high : BitVec 32) (right left : Nat) :
    low >>> right ||| high <<< left = .ofNat 32 (low.toNat >>> right ||| (high.toNat <<< left) % 2 ^ 32) := by
  rw [← toNat_ushiftRight, ← toNat_shiftLeft, ← toNat_or, ofNat_toNat, setWidth_eq]

variable {w : Nat} {step : ShiftStep}

lemma insert_above (old value : BitVec 32) (fits : w < 32) :
    old >>> w ||| value <<< (32 - w) = .ofNat 32 ((value.toNat * 2 ^ 32 + old.toNat) / 2 ^ w) := by
  have split : 2 ^ 32 = 2 ^ (32 - w) * 2 ^ w := by rw [← Nat.pow_add, Nat.sub_add_cancel (Nat.le_of_lt fits)]
  have low : old.toNat / 2 ^ w < 2 ^ (32 - w) :=
    Nat.div_lt_of_lt_mul (by rw [Nat.mul_comm, ← split]; exact old.isLt)
  apply eq_of_toNat_eq
  have shifted : (value.toNat * 2 ^ 32 + old.toNat) / 2 ^ w =
      2 ^ (32 - w) * value.toNat + old.toNat / 2 ^ w := by
    rw [split, ← Nat.mul_assoc, Nat.mul_comm _ (2 ^ w), Nat.mul_add_div (Nat.two_pow_pos w),
      Nat.mul_comm value.toNat]
  rw [toNat_or, toNat_ushiftRight, toNat_shiftLeft, toNat_ofNat, shifted,
    Nat.shiftRight_eq_div_pow, Nat.shiftLeft_eq, Nat.mul_comm value.toNat, split, Nat.mul_mod_mul_left, Nat.mod_mul,
    Nat.mul_add_mod, Nat.mod_eq_of_lt low, Nat.mul_add_div (Nat.two_pow_pos _), Nat.div_eq_of_lt low, Nat.add_zero,
    Nat.or_comm, ← Nat.two_pow_add_eq_or_of_lt low, Nat.add_comm]

lemma repeatWord_eq (n : Nat) {shift : Nat} (fits : w * shift ≤ 32) (val : BitVec 32) :
    repeatWord n w shift val = some (.ofNat 32 (repeatValue n w shift val.toNat)) := by
  induction n generalizing w shift val with
  | zero => simp [repeatWord, repeatValue]
  | succ n ih =>
    unfold repeatWord repeatValue
    split
    · have half : w / 2 * (shift * 2) ≤ 32 := by
        rw [Nat.mul_comm shift, ← Nat.mul_assoc]
        exact Nat.le_trans (Nat.mul_le_mul_right shift (Nat.div_mul_le_self w 2)) fits
      have amount : shift < 32 := by
        have := Nat.mul_le_mul_right shift ‹1 < w›
        omega
      simp [shiftLeft, amount, ih half, toNat_or, toNat_shiftLeft]
    · simp

lemma wordMask_eq (fits : w ≤ 32) : wordMask w = some (.ofNat 32 (makeMask w)) := by
  have all : ∀ w ≤ 32, wordMask w = some (.ofNat 32 (makeMask w)) := by decide
  exact all w fits

lemma shiftStep_of_fits (legal : port.LegalWidths) (st : ShiftState)
    (fits : port.ShiftsFit step) : port.shiftStep st step = some (port.exactStep st step) := by
  obtain ⟨positive, wide, narrow⟩ := legal.bounds
  have rest : port.transferWidth - port.width < 32 := by omega
  cases step with
  | inshr value =>
    have fits : port.transferWidth < 32 := fits
    have above : 32 - port.transferWidth < 32 := by omega
    simp [shiftStep, exactStep, shiftRight, shiftLeft, fits, above, insert_above _ _ fits]
  | outshr =>
    have fits : port.transferWidth < 32 := fits
    have div : st.register >>> port.transferWidth = .ofNat 32 (st.register.toNat / 2 ^ port.transferWidth) := by
      rw [← Nat.shiftRight_eq_div_pow, ← toNat_ushiftRight, ofNat_toNat, setWidth_eq]
    simp [shiftStep, exactStep, shiftRight, fits, div]
  | nextShiftRegOutputPort =>
    have fits : port.width < 32 := fits
    simp [shiftStep, exactStep, shiftRight, shiftLeft, fits, rest, nextShiftRegOutputPort, or_shifted]
  | sample pins =>
    have fits : port.width < 32 := fits
    simp [shiftStep, exactStep, shiftRight, shiftLeft, fits, rest, sampled, or_shifted]
  | computeSteady pins =>
    simp [shiftStep, exactStep, repeatWord_eq _ legal.entries_mul_le, wordMask_eq narrow, steadyValue]

lemma shiftStep_of_not_fits (legal : port.LegalWidths) (st : ShiftState)
    (fits : ¬port.ShiftsFit step) : port.shiftStep st step = none := by
  have rest : port.transferWidth - port.width < 32 := by
    have := legal.bounds
    omega
  cases step with
  | inshr value => simp [shiftStep, shiftRight, show ¬port.transferWidth < 32 from fits]
  | outshr => simp [shiftStep, shiftRight, show ¬port.transferWidth < 32 from fits]
  | nextShiftRegOutputPort => simp [shiftStep, shiftRight, rest, show ¬port.width < 32 from fits]
  | sample pins => simp [shiftStep, shiftRight, show ¬port.width < 32 from fits]
  | computeSteady pins => exact absurd trivial fits

/-- All shifts of a sequence have a result, and together give what they are to give, exactly if none is by 32. -/
theorem shifts_exact_iff (port : Port) (legal : port.LegalWidths) (st : ShiftState) (steps : List ShiftStep) :
    port.runShifts st steps = some (steps.foldl port.exactStep st) ↔ ∀ step ∈ steps, port.ShiftsFit step := by
  induction steps generalizing st with
  | nil => simp [runShifts]
  | cons step steps ih =>
    rw [List.forall_mem_cons, List.foldl_cons, ← ih (port.exactStep st step), runShifts, List.foldlM_cons]
    by_cases fits : port.ShiftsFit step
    · simp [shiftStep_of_fits legal st fits, fits, runShifts]
    · simp [shiftStep_of_not_fits legal st fits, fits]

def octetPort (transferWidth : Nat) : Port :=
  { width := 8, transferWidth := transferWidth, shiftRegEntries := transferWidth / 8 }

lemma octetPort_legal {width : Nat} (legal : width = 8 ∨ width = 32) :
    (octetPort width).LegalWidths := by
  refine ⟨by simp [octetPort], ?_, rfl⟩
  rcases legal with rfl | rfl
  · exact .inl rfl
  · exact .inr ⟨by decide, .inr rfl⟩

/-- Two bytes are shifted in and one out. -/
theorem shifts_exact_octet :
    (octetPort 8).runShifts ⟨0x12345678, 0, 0⟩ [.inshr 0xAB, .sample 0xCD, .inshr 0xCD, .outshr] =
      some ⟨0x00CDAB12, 0xCD, 0⟩ :=
  (shifts_exact_iff (octetPort 8) (octetPort_legal (.inl rfl)) ⟨0x12345678, 0, 0⟩
    [.inshr 0xAB, .sample 0xCD, .inshr 0xCD, .outshr]).mpr (by simp [ShiftsFit, octetPort])

/-- With a transfer width of 32 the register is shifted by 32, which has no result. -/
theorem shift_by_32 :
    (octetPort 32).LegalWidths ∧ (octetPort 32).runShifts ⟨0x12345678, 0, 0⟩ [.inshr 0xABCDEF01] = none ∧
      (octetPort 32).runShifts ⟨0x12345678, 0, 0⟩ [.outshr] = none ∧
      ([.inshr 0xABCDEF01].foldl (octetPort 32).exactStep ⟨0x12345678, 0, 0⟩).register = 0xABCDEF01 :=
  ⟨octetPort_legal (.inr rfl), by decide, by decide, by decide⟩

end Port

end Axe
