import Axe.Switch.Registers

/-! Which registers a switch has, and where its accesses go wrong: at the number just
behind the table, and at the registers that can be written but not read. -/

namespace Axe.SwitchNode

open SwitchReg

section

variable (flags : List (BitVec 8)) (rights : BitVec 8) (num cnt : Nat)

@[simp] lemma initReg_length : (initReg flags num rights).length = flags.length := List.length_set ..

lemma initReg_getElem? (k : Nat) :
    (initReg flags num rights)[k]? = if k = num ∧ k < flags.length then some rights else flags[k]? := by
  unfold initReg
  rw [List.getElem?_set]
  by_cases same : num = k
  · subst same
    by_cases within : num < flags.length
    · simp [within]
    · simp [within]
  · simp [same, Ne.symm same]

@[simp] lemma initDirectionRegs_length : (initDirectionRegs flags cnt).length = flags.length := by
  induction cnt with
  | zero => rfl
  | succ cnt ih => rw [initDirectionRegs, initReg_length, ih]

lemma initDirectionRegs_getElem? (k : Nat) : (initDirectionRegs flags cnt)[k]? =
      if (dimensionDirection0 ≤ k ∧ k < dimensionDirection0 + cnt) ∧ k < flags.length then some regRW
      else flags[k]? := by
  induction cnt with
  | zero =>
    rw [if_neg (by omega)]
    rfl
  | succ cnt ih =>
    rw [initDirectionRegs, initReg_getElem?, ih, initDirectionRegs_length]
    by_cases here : k = dimensionDirection0 + cnt ∧ k < flags.length
    · rw [if_pos here, if_pos (by omega)]
    · rw [if_neg here]
      congr 1
      simp only [eq_iff_iff]
      omega

@[simp] lemma initLinkRegs_length : (initLinkRegs flags cnt).length = flags.length := by
  induction cnt with
  | zero => rfl
  | succ cnt ih => rw [initLinkRegs, initReg_length, initReg_length, ih]

lemma initLinkRegs_getElem? (k : Nat) : (initLinkRegs flags cnt)[k]? =
      if ((slink0 ≤ k ∧ k < slink0 + cnt) ∨ xlink0 ≤ k ∧ k < xlink0 + cnt) ∧ k < flags.length then some regRW
      else flags[k]? := by
  induction cnt with
  | zero =>
    rw [if_neg (by omega)]
    rfl
  | succ cnt ih =>
    rw [initLinkRegs, initReg_getElem?, initReg_getElem?, ih, initReg_length, initLinkRegs_length]
    by_cases linkState : k = xlink0 + cnt ∧ k < flags.length
    · rw [if_pos linkState, if_pos (by omega)]
    · rw [if_neg linkState]
      by_cases network : k = slink0 + cnt ∧ k < flags.length
      · rw [if_pos network, if_pos (by omega)]
      · rw [if_neg network]
        congr 1
        simp only [eq_iff_iff]
        omega

end

variable (node : SwitchNode)

def LinkDirection (num : Nat) : Prop := slink0 ≤ num ∧ num < slink0 + node.numLinkRegs
  deriving Decidable

def LinkState (num : Nat) : Prop := xlink0 ≤ num ∧ num < xlink0 + node.numLinkRegs
  deriving Decidable

def NodeDirection (num : Nat) : Prop :=
  node.type ≠ .xs1G ∧ dimensionDirection0 ≤ num ∧ num < dimensionDirection0 + node.numDirectionRegs
  deriving Decidable

def Registered (num : Nat) : Prop :=
  num = SwitchReg.nodeID ∨ num = clkDivider ∨ node.type = .xs1G ∧ num = deviceID3 ∨ node.NodeDirection num ∨
    node.LinkDirection num ∨ node.LinkState num
  deriving Decidable

lemma numLinkRegs_le : node.numLinkRegs ≤ 32 := Nat.min_le_right ..

lemma numDirectionRegs_le : node.numDirectionRegs ≤ 2 := by
  have narrow := node.narrow
  unfold numDirectionRegs
  omega

lemma Registered.lt {num : Nat} (registered : node.Registered num) : num < xstatic0 := by
  have links := node.numLinkRegs_le
  have dirs := node.numDirectionRegs_le
  unfold Registered NodeDirection LinkDirection LinkState at registered
  simp only [SwitchReg.nodeID, clkDivider, deviceID3, dimensionDirection0, slink0, xlink0, xstatic0] at *
  omega

lemma regFlags_getElem? (num : Nat) : node.regFlags[num]? =
      if num < node.numRegs then some (if node.Registered num then regRW else 0) else none := by
  unfold regFlags
  rw [initReg_getElem?, initLinkRegs_getElem?]
  by_cases within : num < node.numRegs
  · have filled : (List.replicate node.numRegs (0 : BitVec 8))[num]? = some 0 := by simp [within]
    by_cases isG : node.type = .xs1G
    · simp only [isG, if_true, initReg_getElem?, filled, initLinkRegs_length, initReg_length,
        List.length_replicate, within, and_true, Registered, NodeDirection, LinkDirection, LinkState, ne_eq,
        not_true_eq_false, false_and, false_or, true_and]
      grind
    · simp only [isG, if_false, initReg_getElem?, initDirectionRegs_getElem?, filled, initLinkRegs_length,
        initDirectionRegs_length, initReg_length, List.length_replicate, within, and_true, Registered, NodeDirection,
        LinkDirection, LinkState, ne_eq, not_false_eq_true, false_and, false_or, true_and, if_true]
      grind
  · by_cases isG : node.type = .xs1G <;> simp [isG, within]

/-! ### The test for the access rights -/

variable {Value : Type} {num : Nat} (right : BitVec 8) (access : Access Value)

lemma checkRights_of_registered (registered : node.Registered num) (given : regRW &&& right ≠ 0) :
    node.checkRights num right access = access := by
  have size : num < node.numRegs := Nat.lt_of_lt_of_le (registered.lt node) (Nat.le_add_right ..)
  unfold checkRights
  rw [if_neg (by omega), regFlags_getElem?, if_pos size, if_pos registered]
  exact if_neg given

lemma checkRights_of_not_registered (missing : ¬node.Registered num) (inside : num ≠ node.numRegs) :
    node.checkRights num right access = .refused := by
  unfold checkRights
  by_cases behind : node.numRegs < num
  · rw [if_pos behind]
  · rw [if_neg behind, regFlags_getElem?, if_pos (by omega), if_neg missing]
    exact if_pos (BitVec.zero_and ..)

lemma checkRights_numRegs : node.checkRights node.numRegs right access = .outOfRange := by
  unfold checkRights
  rw [if_neg (Nat.lt_irrefl _), regFlags_getElem?, if_neg (Nat.lt_irrefl _)]

/-! ### The two stages -/

lemma withXLink_of_lt (use : XLink → Access Value) {i : Nat} (within : i < node.xLinks.length) :
    node.withXLink i use = use (node.xLinks.get ⟨i, within⟩) := by
  unfold withXLink
  rw [List.getElem?_eq_getElem within]
  rfl

lemma link_lt {i : Nat} (within : i < node.numLinkRegs) : i < node.xLinks.length :=
  Nat.lt_of_lt_of_le within (Nat.min_le_left ..)

lemma readDirections_done {off cnt : Nat} (within : off + cnt ≤ node.directions.length) :
    ∃ val, node.readDirections off cnt = .done val := by
  induction cnt with
  | zero => exact ⟨0, rfl⟩
  | succ cnt ih =>
    obtain ⟨val, read⟩ := ih (by omega)
    have here : off + cnt < node.directions.length := by omega
    rw [readDirections, read, List.getElem?_eq_getElem here]
    exact ⟨_, rfl⟩

lemma directionsEnd_le {off : Nat} : off + (node.directionsEnd off - off) ≤ node.directions.length ∨
    node.directionsEnd off - off = 0 := by
  have sized := node.sized
  unfold directionsEnd
  omega

lemma readDirectionReg_done (off : Nat) : ∃ val, node.readDirectionReg off = .done val := by
  unfold readDirectionReg
  obtain within | none := node.directionsEnd_le
  · exact node.readDirections_done within
  · rw [none]
    exact ⟨0, rfl⟩

lemma writeDirections_done {off cnt : Nat} (val : BitVec 32)
    (within : off + cnt ≤ node.directions.length) :
    ∃ wr, node.writeDirections off val cnt = .done wr ∧
      wr.directions.length = node.directions.length := by
  induction cnt with
  | zero => exact ⟨node, rfl, rfl⟩
  | succ cnt ih =>
    obtain ⟨wr, wrote, same⟩ := ih (by omega)
    rw [writeDirections, wrote]
    dsimp only
    rw [if_pos (by omega)]
    exact ⟨_, rfl, by simp [setDirection, same]⟩

lemma writeDirectionReg_done (off : Nat) (val : BitVec 32) :
    ∃ wr, node.writeDirectionReg off val = .done wr := by
  unfold writeDirectionReg
  obtain within | none := node.directionsEnd_le
  · obtain ⟨wr, wrote, -⟩ := node.writeDirections_done val within
    exact ⟨wr, wrote⟩
  · rw [none]
    exact ⟨node, rfl⟩

/-- The registers that can be read: not the divider, and not the directions of links. -/
def Readable (num : Nat) : Prop := node.Registered num ∧ num ≠ clkDivider ∧ ¬node.LinkDirection num

lemma readOther_done (registered : node.Registered num) (readable : num ≠ clkDivider)
    (noLink : ¬node.LinkDirection num ∧ ¬node.LinkState num) : ∃ val, node.readOther num = .done val := by
  have dirs := node.numDirectionRegs_le
  unfold readOther
  obtain rfl | is | ⟨-, rfl⟩ | ⟨-, first, last⟩ | isDir | isState := registered
  · exact ⟨_, rfl⟩
  · exact absurd is readable
  · exact ⟨_, rfl⟩
  · rw [if_pos (by omega)]
    exact node.readDirectionReg_done _
  · exact absurd isDir noLink.1
  · exact absurd isState noLink.2

lemma writeOther_done (val : BitVec 32) (registered : node.Registered num)
    (noLink : ¬node.LinkDirection num ∧ ¬node.LinkState num) :
    ∃ written, node.writeOther num val = .done written := by
  have dirs := node.numDirectionRegs_le
  unfold writeOther
  obtain rfl | rfl | ⟨-, rfl⟩ | ⟨-, first, last⟩ | isDir | isState := registered
  · exact ⟨_, rfl⟩
  · exact ⟨_, rfl⟩
  · exact ⟨_, rfl⟩
  · rw [if_pos (by omega)]
    exact node.writeDirectionReg_done _ val
  · exact absurd isDir noLink.1
  · exact absurd isState noLink.2

lemma readOther_unexpected (odd : num = clkDivider ∨ slink0 ≤ num) : node.readOther num = .unexpectedRegister := by
  have rest : ¬(num = dimensionDirection0 ∨ num = dimensionDirection0 + 1) ∧ num ≠ SwitchReg.nodeID ∧
      num ≠ deviceID3 := by
    simp only [dimensionDirection0, SwitchReg.nodeID, deviceID3, clkDivider, slink0] at *
    omega
  unfold readOther
  rw [if_neg rest.1, if_neg rest.2.1, if_neg rest.2.2]

lemma Registered.link_of_range (registered : node.Registered num) :
    (slink0 ≤ num ∧ num < plink0 ↔ node.LinkDirection num) ∧ (xlink0 ≤ num ∧ num < xstatic0 ↔ node.LinkState num) := by
  have links := node.numLinkRegs_le
  have dirs := node.numDirectionRegs_le
  unfold Registered NodeDirection LinkDirection LinkState at *
  simp only [SwitchReg.nodeID, clkDivider, deviceID3, dimensionDirection0, slink0, plink0, xlink0, xstatic0] at *
  omega

variable (nodes : Nat → SwitchNode)

lemma read_registered (registered : node.Registered num) : node.read nodes num =
      if node.LinkDirection num then .unexpectedRegister
      else if node.LinkState num then
        node.withXLink (num - xlink0) fun xLink => .done (node.readXLinkStateReg xLink (isConnected nodes xLink))
      else node.readOther num := by
  obtain ⟨dir, state⟩ := registered.link_of_range node
  unfold read
  rw [node.checkRights_of_registered _ _ registered (by decide)]
  simp only [dir, state]
  by_cases isDir : node.LinkDirection num
  · rw [if_pos isDir, if_pos isDir, node.withXLink_of_lt _ (node.link_lt (by unfold LinkDirection at *; omega))]
    exact node.readOther_unexpected (.inr isDir.1)
  · rw [if_neg isDir, if_neg isDir]

lemma write_registered (val : BitVec 32) (registered : node.Registered num) : node.write num val =
      if node.LinkDirection num then
        node.withXLink (num - slink0) fun xLink =>
          .done (node.setXLink (num - slink0) (node.writeXLinkDirectionAndNetworkReg xLink val))
      else if node.LinkState num then
        node.withXLink (num - xlink0) fun xLink =>
          .done (node.setXLink (num - xlink0) (node.writeXLinkStateReg xLink val))
      else node.writeOther num val := by
  obtain ⟨dir, state⟩ := registered.link_of_range node
  unfold write
  rw [node.checkRights_of_registered _ _ registered (by decide)]
  simp only [dir, state]

lemma read_done (readable : node.Readable num) : ∃ val, node.read nodes num = .done val := by
  obtain ⟨registered, other, noDir⟩ := readable
  rw [node.read_registered nodes registered, if_neg noDir]
  by_cases isState : node.LinkState num
  · rw [if_pos isState, node.withXLink_of_lt _ (node.link_lt (by unfold LinkState at *; omega))]
    exact ⟨_, rfl⟩
  · rw [if_neg isState]
    exact node.readOther_done registered other ⟨noDir, isState⟩

lemma read_unexpected (registered : node.Registered num) (odd : num = clkDivider ∨ node.LinkDirection num) :
    node.read nodes num = .unexpectedRegister := by
  rw [node.read_registered nodes registered]
  by_cases isDir : node.LinkDirection num
  · rw [if_pos isDir]
  · have is := odd.resolve_right isDir
    have noState : ¬node.LinkState num := fun isState => absurd isState.1 (is ▸ by decide)
    rw [if_neg isDir, if_neg noState]
    exact node.readOther_unexpected (.inl is)

lemma write_done (val : BitVec 32) (registered : node.Registered num) :
    ∃ written, node.write num val = .done written := by
  rw [node.write_registered val registered]
  by_cases isDir : node.LinkDirection num
  · rw [if_pos isDir, node.withXLink_of_lt _ (node.link_lt (by unfold LinkDirection at *; omega))]
    exact ⟨_, rfl⟩
  · rw [if_neg isDir]
    by_cases isState : node.LinkState num
    · rw [if_pos isState, node.withXLink_of_lt _ (node.link_lt (by unfold LinkState at *; omega))]
      exact ⟨_, rfl⟩
    · rw [if_neg isState]
      exact node.writeOther_done val registered ⟨isDir, isState⟩

lemma registered_of_write {wr : SwitchNode} {val : BitVec 32} (wrote : node.write num val = .done wr) :
    node.Registered num := by
  by_cases registered : node.Registered num
  · exact registered
  · by_cases behind : num = node.numRegs
    · unfold write at wrote
      rw [behind, node.checkRights_numRegs] at wrote
      cases wrote
    · unfold write at wrote
      rw [node.checkRights_of_not_registered _ _ registered behind] at wrote
      cases wrote

/-! ### Safe accesses -/

def Flagged (num : Nat) (right : BitVec 8) : Prop :=
  ∃ flags, node.regFlags[num]? = some flags ∧ flags &&& right ≠ 0

/-- The access stays inside the tables, does not end at the assertion, and is done if the register is flagged. -/
def Safe (access : Access Value) (flagged : Prop) : Prop :=
  access ≠ .outOfRange ∧ access ≠ .unexpectedRegister ∧ (flagged → ∃ val, access = .done val)

lemma flagged_iff (given : regRW &&& right ≠ 0) : node.Flagged num right ↔ node.Registered num := by
  unfold Flagged
  rw [regFlags_getElem?]
  constructor
  · rintro ⟨flags, found, nonzero⟩
    refine Decidable.byContradiction fun missing => ?_
    rw [if_neg missing] at found
    split at found
    · cases found
      exact nonzero (BitVec.zero_and ..)
    · cases found
  · intro registered
    have size : num < node.numRegs := Nat.lt_of_lt_of_le (registered.lt node) (Nat.le_add_right ..)
    exact ⟨regRW, by rw [if_pos size, if_pos registered], given⟩

variable {access} in
lemma safe_of_done {val : Value} (done : access = .done val) (flagged : Prop) : Safe access flagged := by
  subst done
  exact ⟨nofun, nofun, fun _ => ⟨val, rfl⟩⟩

variable {access} in
lemma safe_of_refused {flagged : Prop} (refused : access = .refused)
    (unflagged : ¬flagged) : Safe access flagged := by
  subst refused
  exact ⟨nofun, nofun, fun isFlagged => absurd isFlagged unflagged⟩

/-- Reading and writing are safe at every number but three kinds: the one just behind the table, the clock divider and
the direction registers of the links. -/
theorem access_safe_iff (num : Nat) (val : BitVec 32) :
    (Safe (node.read nodes num) (node.Flagged num regRead) ∧ Safe (node.write num val) (node.Flagged num regWrite)) ↔
      num ≠ node.numRegs ∧ num ≠ clkDivider ∧ ¬node.LinkDirection num := by
  constructor
  · rintro ⟨⟨inside, expected, -⟩, -⟩
    have noEnd : num ≠ node.numRegs := fun isEnd => inside (isEnd ▸ node.checkRights_numRegs _ _)
    refine ⟨noEnd, fun is => expected ?_, fun isDir => expected ?_⟩
    · exact node.read_unexpected nodes (.inr (.inl is)) (.inl is)
    · exact node.read_unexpected nodes (.inr (.inr (.inr (.inr (.inl isDir))))) (.inr isDir)
  · rintro ⟨inside, other, noDirection⟩
    by_cases registered : node.Registered num
    · obtain ⟨result, read⟩ := node.read_done nodes ⟨registered, other, noDirection⟩
      obtain ⟨written, wrote⟩ := node.write_done val registered
      exact ⟨safe_of_done read _, safe_of_done wrote _⟩
    · have unread : ¬node.Flagged num regRead := mt (node.flagged_iff regRead (by decide)).mp registered
      have unwritten : ¬node.Flagged num regWrite := mt (node.flagged_iff regWrite (by decide)).mp registered
      exact ⟨safe_of_refused (node.checkRights_of_not_registered _ _ registered inside) unread,
        safe_of_refused (node.checkRights_of_not_registered _ _ registered inside) unwritten⟩

def unlinked : SwitchNode where
  type := .xs1L
  xLinks := []
  nodeNumberBits := 0
  directions := []
  nodeID := 0
  scratchReg := 0
  clkDividerReg := 0
  narrow := by decide
  sized := rfl

theorem read_behind_table : ¬Safe (unlinked.read (fun _ => unlinked) 0xa0) (unlinked.Flagged 0xa0 regRead) :=
  fun safe => safe.1 (unlinked.checkRights_numRegs _ _)

end Axe.SwitchNode
