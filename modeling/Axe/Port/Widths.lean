import Axe.Library.Runs
import Axe.Port.Operations
import Axe.Port.Passing
import Axe.Port.EdgeFrames

/-! The sizes of a port: its transfer width, the number of entries of its shift register and
the shift count. The setters test each other's results in part only, so the sizes fit
together as long as the setters are given what they do not test. -/

namespace Axe

open Edge (EdgeType)

namespace Port

section

variable (env : PortEnv) (port : Port)

/-- Whenever a register is passed on, the shift count is the whole register again. -/
def CountsOn (port next : Port) : Prop :=
  next.portShiftCount = port.portShiftCount ∨ next.portShiftCount = port.shiftRegEntries

lemma seeFallingEdge_countsOn : port.CountsOn port.seeFallingEdge := by
  have cnt : port.seeFallingEdge.shiftRegEntries = port.shiftRegEntries ∧ port.CountsOn port.seeFallingEdge :=
    kept_of_moves (fun next => next.shiftRegEntries = port.shiftRegEntries ∧ port.CountsOn next)
      (fun _ _ move kept => by cases move <;> first | exact kept | exact ⟨kept.1, .inr kept.1⟩)
      port.seeFallingEdge_moves ⟨rfl, .inl rfl⟩
  exact cnt.2

lemma realign_shiftCount : (port.realign env).portShiftCount = port.portShiftCount := by
  unfold realign
  split
  · rfl
  · split <;> rfl

lemma realign_settings : (port.realign env).toPortSettings = port.toPortSettings := by
  unfold realign
  split
  · rfl
  · split <;> rfl

lemma seeSamplingEdge_countsOn : port.CountsOn (port.seeSamplingEdge env) := by
  have cnt : (port.seeSamplingEdge env).shiftRegEntries = port.shiftRegEntries ∧
      port.CountsOn (port.seeSamplingEdge env) :=
    kept_of_moves (fun next => next.shiftRegEntries = port.shiftRegEntries ∧ port.CountsOn next)
      (fun _ _ move kept => by cases move <;> first | exact kept | exact ⟨kept.1, .inr kept.1⟩)
      (seeSamplingEdge_moves env port) ⟨rfl, .inl rfl⟩
  exact cnt.2

lemma seeEdge_settings (type : EdgeType) (now : Nat) :
    (port.seeEdge env type now).toPortSettings = port.toPortSettings := by
  have fallen (port : Port) : port.seeFallingEdge.toPortSettings = port.toPortSettings :=
    congrArg (fun frame => frame.1.1) port.seeFallingEdge_frame
  have sampled (port : Port) : (port.seeSamplingEdge env).toPortSettings = port.toPortSettings :=
    congrArg Prod.fst (seeSamplingEdge_frame env port)
  unfold seeEdge
  dsimp only
  split
  · rfl
  · split
    · split
      · rw [sampled]
        exact fallen _
      · exact fallen _
    · split
      · rw [sampled]
        rfl
      · rfl

lemma seeEdge_countsOn (type : EdgeType) (now : Nat) : port.CountsOn (port.seeEdge env type now) := by
  have fallen := seeFallingEdge_countsOn { port with time := now }
  have entries : { port with time := now }.seeFallingEdge.shiftRegEntries = port.shiftRegEntries :=
    congrArg (fun frame => frame.1.1.shiftRegEntries) (seeFallingEdge_frame { port with time := now })
  unfold seeEdge
  dsimp only
  split
  · exact .inl rfl
  · split
    · split
      · -- Both halves of the edge count.
        have sampled := seeSamplingEdge_countsOn env ({ port with time := now }.seeFallingEdge.latchReadyIn env)
        unfold CountsOn at sampled fallen ⊢
        rcases sampled with same | whole
        · rw [same]
          exact fallen
        · exact .inr (whole.trans entries)
      · exact fallen
    · split
      · exact seeSamplingEdge_countsOn env ({ port with time := now }.latchReadyIn env)
      · exact .inl rfl

lemma update_countsOn (now : Nat) :
    (port.update env now).toPortSettings = port.toPortSettings ∧ port.CountsOn (port.update env now) := by
  have passing : Passing env fun next => next.toPortSettings = port.toPortSettings ∧ port.CountsOn next := by
    constructor
    case edge =>
      intro next ⟨cfg, cnt⟩
      have edge := seeEdge_countsOn env { next with nextEdge := next.nextEdge.next } next.nextEdge.type
        next.nextEdge.time
      refine ⟨(seeEdge_settings env _ _ _).trans cfg, ?_⟩
      rcases edge with same | whole
      · exact cnt.imp same.trans same.trans
      · exact .inr (whole.trans (congrArg PortSettings.shiftRegEntries cfg))
    case skip => exact fun _ _ _ _ kept => kept
    case endTime => exact fun _ kept => kept
    case wrap => exact fun _ _ kept _ => kept
  exact passing.update now ⟨rfl, .inl rfl⟩

end

section

/-- What the sizes of a port are made of. -/
def sizes (port : Port) : Nat × Nat × Nat × Bool × ReadyMode :=
  (port.width, port.transferWidth, port.shiftRegEntries, port.buffered, port.readyMode)

structure Sized (port : Port) : Prop where
  width : 1 ≤ port.width
  transferWidth : port.transferWidth = port.width ∨
    (port.transferWidth = 8 ∨ port.transferWidth = 32) ∧ port.width ∣ port.transferWidth
  entries : port.shiftRegEntries * port.width = port.transferWidth
  some : 1 ≤ port.shiftRegEntries
  shiftCount : 1 ≤ port.portShiftCount ∧ port.portShiftCount ≤ port.shiftRegEntries
  unbuffered : port.buffered = false → port.transferWidth = port.width ∧ port.readyMode = .noReady
  /-- The shift amounts `transferWidth - portWidth` do not underflow. -/
  shift : port.width ≤ port.transferWidth

variable {port next : Port}

section

variable (sized : port.Sized)
include sized

section

variable (sizes : next.sizes = port.sizes)
include sizes

lemma Sized.iff_shiftCount : next.Sized ↔ 1 ≤ next.portShiftCount ∧ next.portShiftCount ≤ port.shiftRegEntries := by
  simp only [Port.sizes, Prod.mk.injEq] at sizes
  obtain ⟨width, transferWidth, entries, buf, readyMode⟩ := sizes
  constructor
  · intro post
    have shiftCount := post.shiftCount
    rwa [entries] at shiftCount
  · intro shiftCount
    constructor
    case width => rw [width]; exact sized.width
    case transferWidth => rw [transferWidth, width]; exact sized.transferWidth
    case entries => rw [transferWidth, width, entries]; exact sized.entries
    case some => rw [entries]; exact sized.some
    case shiftCount => rw [entries]; exact shiftCount
    case unbuffered => rw [transferWidth, width, buf, readyMode]; exact sized.unbuffered
    case shift => rw [transferWidth, width]; exact sized.shift

lemma Sized.same (cnt : next.portShiftCount = port.portShiftCount) : next.Sized := by
  rw [sized.iff_shiftCount sizes, cnt]
  exact sized.shiftCount

lemma Sized.whole (cnt : next.portShiftCount = port.shiftRegEntries) : next.Sized := by
  rw [sized.iff_shiftCount sizes, cnt]
  exact ⟨sized.some, Nat.le_refl _⟩

lemma Sized.countsOn (counts : port.CountsOn next) : next.Sized := by
  rcases counts with cnt | cnt
  · exact sized.same sizes cnt
  · exact sized.whole sizes cnt

end

lemma Sized.update (env : PortEnv) (now : Nat) : (port.update env now).Sized := by
  obtain ⟨cfg, cnt⟩ := update_countsOn env port now
  apply sized.countsOn _ cnt
  unfold sizes
  rw [cfg]

lemma Sized.valid {cnt : Nat} (valid : port.isValidPortShiftCount cnt = true)
    (same : next.sizes = port.sizes) (counts : next.portShiftCount = cnt / port.width) : next.Sized := by
  simp only [isValidPortShiftCount, Bool.and_eq_true, decide_eq_true_eq] at valid
  obtain ⟨⟨least, most⟩, -⟩ := valid
  rw [← sized.entries] at most
  rw [sized.iff_shiftCount same, counts]
  exact ⟨Nat.div_pos least sized.width, Nat.div_le_of_le_mul (by rwa [Nat.mul_comm])⟩

end

end

section

variable {port : Port}

lemma Sized.nextTransferReg (sized : port.Sized) (entries : Nat) : (port.nextTransferReg entries).Sized := by
  unfold Port.nextTransferReg
  split
  · exact sized.whole rfl rfl
  · exact sized.same rfl rfl

lemma Sized.inWord (sized : port.Sized) (t : Nat) : (port.inWord t).port.Sized := by
  unfold Port.inWord
  split
  · exact sized
  · split
    · exact sized.same rfl rfl
    · split
      · exact sized.nextTransferReg 0
      · exact sized.same rfl rfl

lemma Sized.turnRound (sized : port.Sized) : port.turnRound.Sized := by
  unfold Port.turnRound
  split
  · exact sized
  · exact sized.same rfl rfl

lemma Sized.out (sized : port.Sized) (t value : Nat) : (port.out t value).port.Sized := by
  unfold Port.out
  split
  · exact sized
  · split
    · exact sized.same rfl rfl
    · exact sized.turnRound.same rfl rfl

lemma valid_of_accepted {cnt : Nat} (ok : ¬ (!port.buffered || !port.isValidPortShiftCount cnt) = true) :
    port.isValidPortShiftCount cnt = true := by
  simp only [Bool.or_eq_true, Bool.not_eq_true', not_or, Bool.not_eq_false] at ok
  exact ok.2

section

variable (sized : port.Sized)
include sized

lemma Sized.inpw (t cnt : Nat) : (port.inpw t cnt).port.Sized := by
  unfold Port.inpw
  split
  · exact sized
  · rename_i ok
    split
    · exact sized
    · split
      · exact sized.same rfl rfl
      · split
        · exact sized.nextTransferReg _
        · exact sized.valid (valid_of_accepted ok) rfl rfl

lemma Sized.setpsc (t cnt : Nat) : (port.setpsc t cnt).port.Sized := by
  unfold Port.setpsc
  split
  · exact sized
  · rename_i ok
    split
    · exact sized
    · split
      · exact sized.same rfl rfl
      · exact sized.valid (valid_of_accepted ok) rfl rfl

lemma Sized.outpw (t value cnt : Nat) : (port.outpw t value cnt).port.Sized := by
  have turned : port.turnRound.sizes = port.sizes := by
    unfold Port.turnRound
    split <;> rfl
  unfold Port.outpw
  split
  · exact sized
  · rename_i ok
    split
    · exact sized
    · split
      · exact sized.same rfl rfl
      · exact sized.valid (valid_of_accepted ok) turned rfl

/-- `endin` takes the number of entries as the shift count, whatever it is. -/
def EndinFits (port : Port) : Prop :=
  port.outputPort = false → port.buffered = true → port.portType = .dataPort → port.transferRegValid = true →
    port.validShiftRegEntries ≤ port.shiftRegEntries
  deriving Decidable

lemma Sized.endin_iff : port.endin.port.Sized ↔ port.EndinFits := by
  unfold endin EndinFits
  split
  · rename_i refused
    simp only [Bool.or_eq_true, Bool.not_eq_true'] at refused
    refine iff_of_true sized ?_
    intro input buf
    rw [input, buf] at refused
    simp at refused
  · split
    · rename_i other
      exact iff_of_true sized fun _ _ dp => absurd dp other
    · rename_i ok dp
      simp only [Bool.or_eq_true, Bool.not_eq_true', not_or, Bool.not_eq_true, Bool.not_eq_false] at ok
      split
      · rename_i ld
        by_cases none : port.validShiftRegEntries = 0
        · simp [none, sized]
        · have taken : { port with portShiftCount := port.validShiftRegEntries }.Sized ↔ _ := sized.iff_shiftCount rfl
          rw [if_pos none]
          apply taken.trans
          simp [ok, Decidable.not_not.mp dp, ld, Nat.one_le_iff_ne_zero, none]
      · rename_i unloaded
        refine iff_of_true (sized.whole rfl rfl) ?_
        intro _ _ _ ld
        exact absurd ld unloaded

lemma Sized.setBuffered (value : Bool) : (port.setBuffered value).port.Sized := by
  unfold Port.setBuffered settle
  split
  · rename_i ok
    refine { sized with unbuffered := ?_ }
    rintro rfl
    simpa using ok
  · exact sized

lemma Sized.setReadyMode (mode : ReadyMode) : (port.setReadyMode mode).port.Sized := by
  unfold Port.setReadyMode settle
  split
  · rename_i ok
    refine { sized with unbuffered := ?_ }
    intro unbuffered
    have unbuffered : port.buffered = false := unbuffered
    rw [unbuffered] at ok
    exact ⟨(sized.unbuffered unbuffered).1, by simpa using ok⟩
  · exact sized

/-- What `settw` takes should be the width of the port, or on a buffered port a multiple of it that the
transfer register can have. -/
def TransferWidthFits (port : Port) (value : Nat) : Prop :=
  port.checkTransferWidth value = true →
    value = port.width ∨ ((value = 8 ∨ value = 32) ∧ port.width ∣ value) ∧ port.buffered = true
  deriving Decidable

/-- The transfer width and what is computed from it fit when the width is a multiple of that of the port. -/
lemma Sized.resize {value : Nat} (legal : value = port.width ∨ (value = 8 ∨ value = 32) ∧ port.width ∣ value)
    (buf : value = port.width ∨ port.buffered = true) : { port with
      transferWidth := value
      shiftRegEntries := value / port.width
      portShiftCount := value / port.width }.Sized := by
  have pos := sized.width
  have mul : port.width ∣ value := by
    rcases legal with rfl | ⟨-, mul⟩
    · exact Nat.dvd_refl _
    · exact mul
  have le : port.width ≤ value := Nat.le_of_dvd (by omega) mul
  have some : 1 ≤ value / port.width := Nat.div_pos le pos
  constructor
  case width => exact pos
  case transferWidth => exact legal
  case entries => exact Nat.div_mul_cancel mul
  case some => exact some
  case shiftCount => exact ⟨some, Nat.le_refl _⟩
  case unbuffered =>
    intro unbuffered
    have unbuffered : port.buffered = false := unbuffered
    rw [unbuffered] at buf
    exact ⟨buf.resolve_right (by decide), (sized.unbuffered unbuffered).2⟩
  case shift => exact le

lemma Sized.setTransferWidth_iff (value : Nat) :
    (port.setTransferWidth value).port.Sized ↔ port.TransferWidthFits value := by
  unfold setTransferWidth settle TransferWidthFits
  split
  · rename_i ok
    simp only [ok, true_imp_iff]
    constructor
    · intro post
      by_cases same : value = port.width
      · exact .inl same
      · refine .inr ⟨post.transferWidth.resolve_left same, ?_⟩
        cases buf : port.buffered with
        | true => rfl
        | false => exact absurd (post.unbuffered buf).1 same
    · rintro (rfl | ⟨legal, buf⟩)
      · exact sized.resize (.inl rfl) (.inl rfl)
      · exact sized.resize (.inr legal) (.inr buf)
  · rename_i refused
    exact iff_of_true sized fun ok => absurd ok refused

lemma Sized.restartEdges (env : PortEnv) (time : Nat) : (port.restartEdges env time).Sized := by
  unfold Port.restartEdges
  split
  · exact sized.same rfl rfl
  · exact sized

lemma Sized.clearReadyOut (time : Nat) : (port.clearReadyOut time).Sized := by
  unfold Port.clearReadyOut
  split
  · exact sized
  · exact sized.same rfl rfl

/-- The operations that have to be given what fits; all others keep the sizes as they are. -/
def OperationFits (port : Port) : Operation → Prop
  | .setTransferWidth value => port.TransferWidthFits value
  | .endin => port.EndinFits
  | _ => True

lemma Sized.perform_iff (env : PortEnv) (t time : Nat) (op : Operation) :
    (port.perform env t time op).port.Sized ↔ port.OperationFits op := by
  have calm (ok : Bool) {chg : Port} (post : chg.Sized) : (port.settle ok chg).port.Sized := by
    unfold settle
    split
    · exact post
    · exact sized
  cases op with
  | setTransferWidth value => exact sized.setTransferWidth_iff value
  | endin => exact sized.endin_iff
  | inWord => exact iff_of_true (sized.inWord t) trivial
  | inpw width => exact iff_of_true (sized.inpw t width) trivial
  | out value => exact iff_of_true (sized.out t value) trivial
  | outpw value width => exact iff_of_true (sized.outpw t value width) trivial
  | setpsc width => exact iff_of_true (sized.setpsc t width) trivial
  | sync | setPortTime | setSamplingEdge =>
    apply iff_of_true _ trivial
    simp only [perform, sync, setPortTime, setSamplingEdge]
    repeat' split
    all_goals exact sized.same rfl rfl
  | clearBuf =>
    have clr : { port with
        transferRegValid := false, holdTransferReg := false, validShiftRegEntries := 0 }.Sized := sized.same rfl rfl
    exact iff_of_true (clr.clearReadyOut time) trivial
  | clearPortTime | getTimestamp | setData | getData | setMasterSlave => exact iff_of_true (sized.same rfl rfl) trivial
  | setCondition | setPortInv | setPinDelay => exact iff_of_true (calm _ (sized.same rfl rfl)) trivial
  | setBuffered value => exact iff_of_true (sized.setBuffered value) trivial
  | setReadyMode mode => exact iff_of_true (sized.setReadyMode mode) trivial
  | setPortType type =>
    apply iff_of_true _ trivial
    simp only [perform, setPortType]
    split
    · exact sized
    · split
      · exact (sized.same rfl rfl : { port with portType := type }.Sized).restartEdges env time
      · exact sized.same rfl rfl

end

end

def seePinsChange (env : PortEnv) (value : Signal) (time : Nat) (port : Port) : Port :=
  { port.update env time with pinsInputValue := value }

inductive Step where
  | setCInUse (env : PortEnv) (t : Nat) (val : Bool) (time : Nat)
  | operate (env : PortEnv) (t time : Nat) (op : Operation)
  | update (env : PortEnv) (time : Nat)
  | seeEdge (env : PortEnv) (type : EdgeType) (time : Nat)
  | seePinsChange (env : PortEnv) (value : Signal) (time : Nat)
  | seeClockChange (env : PortEnv) (time : Nat)
  | seeClockStart (env : PortEnv) (time : Nat)
  | completeEvent
  deriving DecidableEq, Repr

/-- One step. An operation on a port that is not in use is refused before it reaches the port. -/
def step (port : Port) : Step → Port
  | .setCInUse env t val time => port.setCInUse env t val time
  | .operate env t time op => if port.inUse then (port.operate env t time op).port else port
  | .update env time => port.update env time
  | .seeEdge env type time => port.seeEdge env type time
  | .seePinsChange env value time => port.seePinsChange env value time
  | .seeClockChange env time => port.seeClockChange env time
  | .seeClockStart env time => port.seeClockStart env time
  | .completeEvent => port.completeEvent

def StepFits (port : Port) : Step → Prop
  | .operate env _ time op => port.inUse = true → (port.update env time).OperationFits op
  | _ => True

instance (port : Port) (op : Operation) : Decidable (port.OperationFits op) := by
  unfold OperationFits
  split <;> infer_instance

instance (port : Port) (label : Step) : Decidable (port.StepFits label) := by
  unfold StepFits
  split <;> infer_instance

section

variable {port : Port}

lemma sized_setInUse (env : PortEnv) (t time : Nat) (pins : 1 ≤ port.width) : (port.setInUse env t time).Sized := by
  unfold setInUse
  apply Sized.clearReadyOut
  apply Sized.restartEdges
  constructor
  case width => exact pins
  case transferWidth => exact .inl rfl
  case entries => exact Nat.one_mul _
  case some => exact Nat.le_refl 1
  case shiftCount => exact ⟨Nat.le_refl 1, Nat.le_refl 1⟩
  case unbuffered => exact fun _ => ⟨rfl, rfl⟩
  case shift => exact Nat.le_refl _

section

variable (sized : port.Sized)
include sized

section

variable (env : PortEnv)

lemma Sized.setCInUse (t : Nat) (val : Bool) (time : Nat) : (port.setCInUse env t val time).Sized := by
  unfold Port.setCInUse
  split
  · exact sized_setInUse env t time sized.width
  · exact sized.same rfl rfl

lemma Sized.seeEdge (type : EdgeType) (time : Nat) : (port.seeEdge env type time).Sized := by
  apply sized.countsOn _ (seeEdge_countsOn env port type time)
  unfold sizes
  rw [seeEdge_settings]

lemma Sized.seeClockChange (time : Nat) : (port.seeClockChange env time).Sized := by
  unfold Port.seeClockChange
  split
  · exact sized.restartEdges env time
  · exact sized

lemma Sized.seeClockStart (time : Nat) : (port.seeClockStart env time).Sized := by
  unfold Port.seeClockStart
  split
  · exact (sized.same rfl rfl : { port with portCounter := 0 }.Sized).seeClockChange env time
  · exact sized

lemma Sized.operate_iff (t time : Nat) (op : Operation) :
    (port.operate env t time op).port.Sized ↔ (port.update env time).OperationFits op := by
  have owned : ((port.update env time).updateOwner t).Sized := (sized.update env time).same rfl rfl
  apply (owned.perform_iff env t time op).trans
  -- Who owns the port does not matter for its sizes.
  cases op <;> exact Iff.rfl

end

lemma Sized.step_iff (label : Step) : (port.step label).Sized ↔ port.StepFits label := by
  cases label with
  | setCInUse env t val time => exact iff_of_true (sized.setCInUse env t val time) trivial
  | operate env t time op =>
    simp only [step, StepFits]
    split
    · rename_i used
      rw [sized.operate_iff]
      exact ⟨fun fits _ => fits, fun fits => fits used⟩
    · rename_i unused
      exact iff_of_true sized fun used => absurd used unused
  | update env time => exact iff_of_true (sized.update env time) trivial
  | seeEdge env type time => exact iff_of_true (sized.seeEdge env type time) trivial
  | seePinsChange env value time => exact iff_of_true ((sized.update env time).same rfl rfl) trivial
  | seeClockChange env time => exact iff_of_true (sized.seeClockChange env time) trivial
  | seeClockStart env time => exact iff_of_true (sized.seeClockStart env time) trivial
  | completeEvent => exact iff_of_true (sized.same rfl rfl) trivial

end

/-- From the moment a port is put in use its sizes fit together exactly as long as each
transfer width that is set and each number of entries at which an input is ended fits. -/
theorem always_sized_iff (fresh : Port) (pins : 1 ≤ fresh.width) (env : PortEnv) (t time : Nat) (steps : List Step) :
    (∀ passed, passed <+: steps → (passed.foldl step (fresh.setCInUse env t true time)).Sized) ↔
      Runs.Meets step StepFits (fresh.setCInUse env t true time) steps := by
  have nil (port : Port) (label : Step) : True → True → StepFits port label → True := fun _ _ _ => trivial
  apply Runs.always_iff_meets nil _ _ steps (Runs.meets_true _ _) trivial
  · exact sized_setInUse env t time pins
  · intro port label _ _ sized
    exact sized.step_iff label

def fourPins : Port := { width := 4 }

def still : PortEnv := { clock := {}, running := false, readyInValue := {}, eventsPermitted := false }

theorem always_sized_buffered : ([Step.operate still 0 1 (.setBuffered true), .operate still 0 2 (.setTransferWidth 32),
      .operate still 0 3 (.setpsc 12), .operate still 0 4 .endin].foldl step
        (fourPins.setCInUse still 0 true 0)).Sized :=
  (always_sized_iff fourPins (by decide) still 0 0 _).mpr (by decide) _ List.prefix_rfl

/-- A transfer width below that of the port is taken when it is the first one. Then there are no
entries to count modulo, and the shift amount underflows. -/
theorem transferWidth_below :
    let port := [Step.operate still 0 1 (.setTransferWidth 3)].foldl step (fourPins.setCInUse still 0 true 0)
    ¬ port.Sized ∧ port.shiftRegEntries = 0 ∧ port.transferWidth < port.width := by
  refine ⟨fun sized => ?_, by decide, by decide⟩
  exact absurd sized.some (by decide)

end

end Port

end Axe
