import Axe.Port.Update

/-! What `Port::update` keeps, however it passes the edges. Whichever way it takes, it sees
edges one by one, moves the counter and the next edge on, ends the port time, or counts
entries modulo the size of the shift register; what these keep is kept by the whole. -/

namespace Axe.Port

structure Passing (env : PortEnv) (Kept : Port → Prop) : Prop where
  edge : ∀ port, Kept port → Kept (port.seeNextEdge env)
  skip : ∀ (port : Port) (portCounter : Nat) (nextEdge : EdgeIterator) (time : Nat), Kept port →
    Kept { port with portCounter := portCounter, nextEdge := nextEdge, time := time }
  endTime : ∀ port, Kept port → Kept port.endTime
  wrap : ∀ (port : Port) (entries : Nat), Kept port → port.portShiftCount = port.shiftRegEntries →
    Kept { port with validShiftRegEntries := entries % port.shiftRegEntries }

namespace Passing

variable {env : PortEnv} {Kept : Port → Prop} (passing : Passing env Kept) {port : Port}

include passing

lemma updateSlowLoop (now n : Nat) (kept : Kept port) : Kept (updateSlowLoop env now n port) := by
  induction n generalizing port with
  | zero => exact kept
  | succ n ih =>
    unfold updateSlowLoop
    split
    · exact ih (passing.edge port kept)
    · exact kept

lemma updateSlow (now : Nat) (kept : Kept port) : Kept (port.updateSlow env now) :=
  passing.skip _ _ _ now (passing.updateSlowLoop now _ kept)

lemma seeEdgesWhile (goes : Port → Bool) (k : Nat) (kept : Kept port) :
    Kept (seeEdgesWhile env goes k port).1 := by
  induction k generalizing port with
  | zero => exact kept
  | succ k ih =>
    unfold seeEdgesWhile
    split
    · exact ih (passing.edge port kept)
    · exact kept

omit passing in
lemma andThen {res : Port × Nat} {rest : Port → Nat → Port} (kept : Kept res.1)
    (later : res.2 ≠ 0 → Kept (rest res.1 res.2)) : Kept (Port.andThen res rest) := by
  unfold Port.andThen
  split
  · exact kept
  · rename_i some
    exact later some

lemma loop {goes : Port → Bool} {k : Nat} {rest : Port → Nat → Port} (kept : Kept port)
    (later : ∀ (port : Port) (k : Nat), Kept port → goes port = false → Kept (rest port k)) :
    Kept (Port.andThen (Port.seeEdgesWhile env goes k port) rest) := by
  apply andThen (passing.seeEdgesWhile goes k kept)
  intro some
  apply later _ _ (passing.seeEdgesWhile goes k kept)
  clear later kept
  induction k generalizing port with
  | zero => exact absurd rfl some
  | succ k ih =>
    unfold Port.seeEdgesWhile at some ⊢
    split
    · rename_i more
      rw [if_pos more] at some
      exact ih some
    · rename_i stopped
      exact Bool.eq_false_iff.mpr stopped

lemma skipCounting (now k : Nat) (kept : Kept port) : Kept (port.skipCounting now k) :=
  passing.skip port _ _ now kept

lemma skipNotReady (now k : Nat) (kept : Kept port) : Kept (port.skipNotReady now k) := by
  unfold Port.skipNotReady
  split
  · exact passing.skipCounting now k (passing.endTime port kept)
  · exact passing.skipCounting now k kept

lemma skipToTime (kept : Kept port) : Kept port.skipToTime := passing.skip port _ _ _ kept

lemma skipDrained (now k : Nat) (kept : Kept port) : Kept (port.skipDrained env now k) := by
  unfold Port.skipDrained
  split
  · exact passing.skipCounting now k kept
  · split
    · exact passing.skipCounting now k kept
    · apply passing.loop (passing.skipToTime kept)
      intro port k kept _
      apply passing.loop kept
      intro port k kept _
      exact passing.skipCounting now k kept

lemma skipOutput (now k : Nat) (kept : Kept port) : Kept (port.skipOutput env now k) := by
  apply passing.loop kept
  intro port k kept _
  exact passing.skipDrained now k kept

lemma skipEntries (now k : Nat) (kept : Kept port) (whole : port.portShiftCount = port.shiftRegEntries) :
    Kept (((port.updatePortCounter k).updateInputValidShiftRegEntries k).skipTo now k) := by
  have cnt : Kept (port.updatePortCounter k) := passing.skip port _ _ _ kept
  exact passing.skip _ _ _ now (passing.wrap (port.updatePortCounter k) _ cnt whole)

omit passing in
lemma whole_of_settled {steadyStateShiftReg : Nat} (calm : unsettled steadyStateShiftReg port = false) :
    port.portShiftCount = port.shiftRegEntries := by
  simp only [unsettled, Bool.or_eq_false_iff, decide_eq_false_iff_not, ne_eq, not_not] at calm
  exact calm.2

section

variable (now k : Nat)

lemma skipInputReadyOut (kept : Kept port) : Kept (port.skipInputReadyOut env now k) := by
  unfold Port.skipInputReadyOut
  split
  · apply passing.loop kept
    intro port k kept calm
    exact passing.skipEntries now k kept (whole_of_settled calm)
  · apply passing.loop kept
    intro port k kept _
    apply passing.loop kept
    intro port k kept _
    exact passing.skipCounting now k kept

lemma skipInputPlain (kept : Kept port) : Kept (port.skipInputPlain env now k) := by
  unfold Port.skipInputPlain
  apply passing.loop kept
  intro port k kept same
  simp only [unsteady, Bool.or_eq_false_iff] at same
  exact passing.skipEntries now k kept (whole_of_settled same.1.2)

lemma skipInputUntimed (kept : Kept port) : Kept (port.skipInputUntimed env now k) := by
  unfold Port.skipInputUntimed
  split
  · exact passing.skipInputReadyOut now k kept
  · exact passing.skipInputPlain now k kept

lemma skipInputTimed (kept : Kept port) : Kept (port.skipInputTimed env now k) := by
  unfold Port.skipInputTimed
  split
  · exact passing.skipCounting now k kept
  · apply passing.loop (passing.skipToTime kept)
    intro port k kept _
    exact passing.skipInputUntimed now k kept

lemma skipInput (kept : Kept port) : Kept (port.skipInput env now k) := by
  unfold Port.skipInput
  split
  · exact passing.updateSlow now kept
  · split
    · dsimp only
      split
      · exact andThen kept fun _ => passing.skipInputTimed now k kept
      · apply passing.loop kept
        intro port k kept _
        exact passing.skipInputTimed now k kept
    · exact passing.skipInputUntimed now k kept

lemma skipLatched (kept : Kept port) : Kept (port.skipLatched env now k) := by
  unfold Port.skipLatched
  split
  · exact passing.skipNotReady now k kept
  · split
    · exact passing.skipOutput now k kept
    · exact passing.skipInput now k kept

end

lemma updateNoExternalChange (k : Nat) (kept : Kept port) : Kept (port.updateNoExternalChange env k) := by
  unfold Port.updateNoExternalChange
  split
  · exact kept
  · dsimp only
    split
    · exact passing.updateSlow _ kept
    · split
      · apply passing.loop kept
        intro port k kept _
        exact passing.skipLatched _ k kept
      · exact andThen kept fun _ => passing.skipLatched _ k kept

lemma update (now : Nat) (kept : Kept port) : Kept (port.update env now) := by
  unfold Port.update
  split
  · exact passing.skip port _ _ now kept
  · split
    · exact passing.updateSlow now kept
    · exact passing.skip _ _ _ now (passing.edge _ (passing.updateNoExternalChange _ kept))

end Passing

end Axe.Port
