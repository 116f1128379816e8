import Axe.Switch.AccessRights
import Mathlib.Tactic.IntervalCases

/-! Reading back what was written to a register. Each register is described by the bits it
implements; the routines that pack it are followed bit by bit. -/

namespace Axe

section

variable (x val : BitVec 32) {i : Nat}

lemma getLsbD_mask32 (size : Nat) (within : i < 32) : (mask32 size).getLsbD i = decide (i < size) := by
  rw [mask32, BitVec.getLsbD_ofNat, Nat.testBit_two_pow_sub_one]
  simp [within]

lemma getLsbD_setBitRange (high low : Nat) (within : i < 32) : (setBitRange x val high low).getLsbD i =
      (x.getLsbD i && decide (high - low < i) ||
        decide (low ≤ i) && (val.getLsbD (i - low) && decide (i - low ≤ high - low))) := by
  unfold setBitRange
  have isIn : i - low < 32 := by omega
  simp only [BitVec.getLsbD_or, BitVec.getLsbD_and, BitVec.getLsbD_not, BitVec.getLsbD_shiftLeft, within,
    getLsbD_mask32 _ within, getLsbD_mask32 _ isIn, decide_true, Bool.true_and]
  grind

lemma getLsbD_setBit (bit : Bool) (pos : Nat) (within : i < 32) :
    (setBit x bit pos).getLsbD i = (x.getLsbD i && decide (i ≠ 0) || decide (i = pos) && bit) := by
  unfold setBit
  rw [getLsbD_setBitRange _ _ _ _ within]
  simp only [Nat.sub_self, BitVec.getLsbD_setWidth, BitVec.getLsbD_ofBool]
  grind

lemma getLsbD_getBitRange (high low : Nat) (ordered : low ≤ high) (within : i < 32) :
    (getBitRange val high low).getLsbD i = (decide (i ≤ high - low) && val.getLsbD (low + i)) := by
  unfold getBitRange
  simp only [BitVec.getLsbD_and, BitVec.getLsbD_ushiftRight, getLsbD_mask32 _ within]
  grind

lemma getBit_eq (bit : Nat) : getBit val bit = val.getLsbD bit := by
  have one : getBitRange val bit bit = BitVec.setWidth 32 (BitVec.ofBool (val.getLsbD bit)) := by
    apply BitVec.eq_of_getLsbD_eq
    intro j isIn
    rw [getLsbD_getBitRange _ _ _ (Nat.le_refl _) isIn]
    simp only [Nat.sub_self, BitVec.getLsbD_setWidth, BitVec.getLsbD_ofBool]
    grind
  unfold getBit
  rw [one]
  cases val.getLsbD bit <;> decide

def field (high low : Nat) : BitVec 32 := mask32 (high - low + 1) <<< low

lemma getLsbD_field (high low : Nat) (within : i < 32) :
    (field high low).getLsbD i = decide (low ≤ i ∧ i - low ≤ high - low) := by
  have isIn : i - low < 32 := by omega
  unfold field
  rw [BitVec.getLsbD_shiftLeft, getLsbD_mask32 _ isIn]
  grind

lemma and_or_iff_of_disjoint {out rest : BitVec 32}
    (disjoint : ∀ i < 32, out.getLsbD i = true → rest.getLsbD i = false) :
    val &&& rest = val &&& (out ||| rest) ↔ val &&& out = 0 := by
  constructor
  · intro same
    apply BitVec.eq_of_getLsbD_eq
    intro i within
    have bit := congrArg (BitVec.getLsbD · i) same
    have apart := disjoint i within
    simp only [BitVec.getLsbD_and, BitVec.getLsbD_or] at bit ⊢
    grind
  · intro clear
    apply BitVec.eq_of_getLsbD_eq
    intro i within
    have bit := congrArg (BitVec.getLsbD · i) clear
    simp only [BitVec.getLsbD_and, BitVec.getLsbD_or] at bit ⊢
    grind

end

namespace SwitchNode

open SwitchReg

variable (node : SwitchNode)

def tokenDelayField : BitVec 32 := if node.type = .xs1G then field 3 0 else field 10 0

def symbolDelayField : BitVec 32 := if node.type = .xs1G then field 11 8 else field 21 11

def implemented (num : Nat) : BitVec 32 :=
  if node.LinkDirection num then field 5 4 ||| field (8 + node.getDirectionBits + 1) 8
  else if node.LinkState num then node.tokenDelayField ||| node.symbolDelayField ||| field 30 30 ||| field 31 31
  else if node.NodeDirection num then
    let offset := (num - dimensionDirection0) * 8
    mask32 ((node.directionsEnd offset - offset) * 4)
  else if num = SwitchReg.nodeID then ~~~mask32 node.getNonNodeNumberBits
  else BitVec.allOnes 32

def status (num : Nat) : BitVec 32 :=
  if node.LinkState num ∧ node.type ≠ .xs1G then field 25 25 ||| field 26 26 else 0

def readable (nodes : Nat → SwitchNode) (num : Nat) : Access (BitVec 32) :=
  (node.read nodes num).map (· &&& ~~~node.status num)

/-- A write is read back in the bits the register implements, and no other register changes. -/
def KeepsWrite (nodes : Nat → SwitchNode) (n num : Nat) (val : BitVec 32) : Prop :=
  ∃ written, (nodes n).write num val = .done written ∧
    written.readable (Function.update nodes n written) num = .done (val &&& (nodes n).implemented num) ∧
    ∀ m other, ¬(m = n ∧ other = num) →
      (Function.update nodes n written m).readable (Function.update nodes n written) other =
        (nodes m).readable nodes other

/-! ### The state of a link -/

lemma getLsbD_readXLinkStateReg (xLink : XLink) (conn : Bool) {i : Nat} (within : i < 32) :
    (node.readXLinkStateReg xLink conn).getLsbD i =
      if i = 31 then xLink.enabled
      else if i = 30 then xLink.fiveWire
      else if node.type = .xs1G then decide (8 ≤ i ∧ i ≤ 11) && xLink.interSymbolDelay.getLsbD (i - 8)
      else if i = 25 ∨ i = 26 then conn
      else decide (11 ≤ i ∧ i ≤ 21) && xLink.interSymbolDelay.getLsbD (i - 11) := by
  unfold readXLinkStateReg
  by_cases isG : node.type = .xs1G
  · simp only [isG, if_true, ne_eq, not_true_eq_false, if_false, getLsbD_setBit _ _ _ within,
      getLsbD_setBitRange _ _ _ _ within, BitVec.getLsbD_setWidth]
    interval_cases i <;> simp
  · simp only [isG, if_false, ne_eq, not_false_eq_true, if_true, getLsbD_setBit _ _ _ within,
      getLsbD_setBitRange _ _ _ _ within, BitVec.getLsbD_setWidth]
    interval_cases i <;> simp

/-- The fields of the state of a link that are read; the token delay is not. -/
def SameState (xLink other : XLink) : Prop :=
  xLink.enabled = other.enabled ∧ xLink.fiveWire = other.fiveWire ∧ xLink.interSymbolDelay = other.interSymbolDelay

lemma readXLinkStateReg_congr {num : Nat} (isState : node.LinkState num) {xLink other : XLink}
    (same : SameState xLink other) (conn conn' : Bool) :
    node.readXLinkStateReg xLink conn &&& ~~~node.status num =
      node.readXLinkStateReg other conn' &&& ~~~node.status num := by
  obtain ⟨on, fiveWire, symbolDelay⟩ := same
  apply BitVec.eq_of_getLsbD_eq
  intro i within
  simp only [BitVec.getLsbD_and, getLsbD_readXLinkStateReg _ _ _ within, on, fiveWire, symbolDelay, status,
    isState, true_and]
  by_cases isG : node.type = .xs1G
  · simp [isG]
  · simp only [isG, if_false, ne_eq, not_false_eq_true, if_true, BitVec.getLsbD_not, BitVec.getLsbD_or,
      getLsbD_field _ _ within]
    grind

lemma readXLinkStateReg_written {num : Nat} (isState : node.LinkState num) (xLink : XLink) (val : BitVec 32)
    (conn : Bool) : node.readXLinkStateReg (node.writeXLinkStateReg xLink val) conn &&& ~~~node.status num =
      val &&& (node.symbolDelayField ||| field 30 30 ||| field 31 31) := by
  apply BitVec.eq_of_getLsbD_eq
  intro i within
  simp only [BitVec.getLsbD_and, getLsbD_readXLinkStateReg _ _ _ within, status, isState, true_and, symbolDelayField]
  by_cases isG : node.type = .xs1G
  · have isIn : i - 8 < 32 := by omega
    simp only [writeXLinkStateReg, isG, if_true, ne_eq, not_true_eq_false, if_false, getBit_eq, BitVec.getLsbD_setWidth,
      BitVec.getLsbD_or, getLsbD_field _ _ within, getLsbD_getBitRange val 11 8 (by decide) isIn]
    interval_cases i <;> simp
  · have isIn : i - 11 < 32 := by omega
    simp only [writeXLinkStateReg, isG, if_false, ne_eq, not_false_eq_true, if_true, getBit_eq,
      BitVec.getLsbD_setWidth, BitVec.getLsbD_or, BitVec.getLsbD_not, getLsbD_field _ _ within,
      getLsbD_getBitRange val 21 11 (by decide) isIn]
    interval_cases i <;> simp

/-! ### The directions of a node number -/

def nibble (val : BitVec 32) (i : Nat) : BitVec 8 := (val >>> (i * 4) &&& 0xf).setWidth 8

lemma getLsbD_nibble (val : BitVec 32) (i b : Nat) :
    (nibble val i).getLsbD b = (decide (b < 4) && val.getLsbD (i * 4 + b)) := by
  have low : (0xf : BitVec 32).getLsbD b = decide (b < 4) := by
    by_cases within : b < 32
    · interval_cases b <;> rfl
    · rw [BitVec.getLsbD_of_ge _ _ (by omega)]
      simp only [Bool.false_eq, decide_eq_false_iff_not]
      omega
  unfold nibble
  rw [BitVec.getLsbD_setWidth, BitVec.getLsbD_and, BitVec.getLsbD_ushiftRight, low]
  grind

variable {offset cnt : Nat}

lemma readDirections_congr {other : SwitchNode}
    (same : ∀ i < cnt, other.directions[offset + i]? = node.directions[offset + i]?) :
    other.readDirections offset cnt = node.readDirections offset cnt := by
  induction cnt with
  | zero => rfl
  | succ cnt ih =>
    have earlier := ih fun i pre => same i (by omega)
    rw [readDirections, readDirections, earlier, same cnt (by omega)]

lemma readDirections_bits {bits : Nat → BitVec 8} (narrow : cnt ≤ 8)
    (found : ∀ i < cnt, node.directions[offset + i]? = some (bits i))
    (small : ∀ i b, 4 ≤ b → (bits i).getLsbD b = false) : ∃ val, node.readDirections offset cnt = .done val ∧
      ∀ j < 32, val.getLsbD j = (decide (j < cnt * 4) && (bits (j / 4)).getLsbD (j % 4)) := by
  induction cnt with
  | zero => exact ⟨0, rfl, fun j _ => by simp⟩
  | succ cnt ih =>
    obtain ⟨val, read, same⟩ := ih (by omega) fun i pre => found i (by omega)
    rw [readDirections, read, found cnt (by omega)]
    refine ⟨_, rfl, fun j within => ?_⟩
    rw [BitVec.getLsbD_or, same j within, BitVec.getLsbD_shiftLeft, BitVec.getLsbD_setWidth]
    by_cases pre : j < cnt * 4
    · simp only [pre, show j < (cnt + 1) * 4 by omega, decide_true, Bool.true_and, Bool.not_true, Bool.and_false,
        Bool.false_and, Bool.or_false]
    · by_cases here : j < (cnt + 1) * 4
      · have quot : j / 4 = cnt := by omega
        have remainder : j % 4 = j - cnt * 4 := by omega
        rw [quot, remainder]
        grind
      · rw [small cnt (j - cnt * 4) (by omega)]
        simp [pre, here]

lemma writeDirections_spec (val : BitVec 32) (within : offset + cnt ≤ node.directions.length) :
    ∃ directions sized, node.writeDirections offset val cnt = .done { node with directions, sized } ∧
      ∀ k, directions[k]? =
        if offset ≤ k ∧ k < offset + cnt then some (nibble val (k - offset)) else node.directions[k]? := by
  induction cnt with
  | zero => exact ⟨node.directions, node.sized, rfl, fun k => by rw [if_neg (by omega)]⟩
  | succ cnt ih =>
    obtain ⟨directions, sized, wrote, found⟩ := ih (by omega)
    have sizedBefore := node.sized
    rw [writeDirections, wrote]
    dsimp only
    rw [if_pos (by omega)]
    refine ⟨_, _, rfl, fun k => ?_⟩
    rw [List.getElem?_set, found]
    by_cases here : offset + cnt = k
    · subst here
      simp only [if_true, show offset + cnt < directions.length by omega, Nat.le_add_right, true_and,
        show offset + cnt < offset + (cnt + 1) by omega, Nat.add_sub_cancel_left]
      rfl
    · rw [if_neg here]
      congr 1
      simp only [eq_iff_iff]
      omega

/-! ### What a register depends on -/

structure Alike (node other : SwitchNode) : Prop where
  type : other.type = node.type
  bits : other.nodeNumberBits = node.nodeNumberBits
  links : other.xLinks.length = node.xLinks.length

section

variable {node} {other : SwitchNode} (alike : node.Alike other) (num : Nat)

include alike

lemma Alike.numRegs : other.numRegs = node.numRegs := congrArg (xstatic0 + ·) alike.links

lemma Alike.linkDirection : other.LinkDirection num ↔ node.LinkDirection num := by
  unfold LinkDirection numLinkRegs
  rw [alike.links]

lemma Alike.linkState : other.LinkState num ↔ node.LinkState num := by
  unfold LinkState numLinkRegs
  rw [alike.links]

lemma Alike.registered : other.Registered num ↔ node.Registered num := by
  unfold Registered NodeDirection numDirectionRegs
  rw [alike.linkDirection, alike.linkState, alike.type, alike.bits]

lemma Alike.status : other.status num = node.status num := by
  unfold SwitchNode.status
  simp only [alike.linkState, alike.type]

lemma Alike.readXLinkStateReg (xLink : XLink) (conn : Bool) :
    other.readXLinkStateReg xLink conn = node.readXLinkStateReg xLink conn := by
  unfold SwitchNode.readXLinkStateReg
  rw [alike.type]

lemma Alike.readable {nodes nodes' : Nat → SwitchNode}
    (sameLink : node.LinkState num → ∀ xLink, node.xLinks[num - xlink0]? = some xLink →
      ∃ xLink', other.xLinks[num - xlink0]? = some xLink' ∧ SameState xLink' xLink)
    (sameDirections : node.NodeDirection num → ∀ i < 8,
      other.directions[(num - dimensionDirection0) * 8 + i]? = node.directions[(num - dimensionDirection0) * 8 + i]?)
    (sameID : num = SwitchReg.nodeID → other.nodeID = node.nodeID)
    (sameScratch : num = deviceID3 → other.scratchReg = node.scratchReg) :
    other.readable nodes' num = node.readable nodes num := by
  unfold SwitchNode.readable
  rw [alike.status]
  by_cases registered : node.Registered num
  · rw [node.read_registered nodes registered, other.read_registered nodes' ((alike.registered num).mpr registered)]
    simp only [alike.linkDirection, alike.linkState]
    by_cases isDir : node.LinkDirection num
    · rw [if_pos isDir, if_pos isDir]
    · rw [if_neg isDir, if_neg isDir]
      by_cases isState : node.LinkState num
      · have within := node.link_lt (show num - xlink0 < _ by unfold LinkState at isState; omega)
        obtain ⟨xLink', found, same⟩ := sameLink isState _ (List.getElem?_eq_getElem within)
        rw [if_pos isState, if_pos isState]
        unfold withXLink
        rw [found, List.getElem?_eq_getElem within]
        dsimp only [Access.map]
        rw [alike.readXLinkStateReg, node.readXLinkStateReg_congr isState same]
      · rw [if_neg isState, if_neg isState]
        -- What is left are the directions, the node's number and the scratch register.
        obtain isID | is | ⟨-, isScratch⟩ | directions | link | link := registered
        · subst isID
          exact congrArg (fun id => Access.done (id &&& ~~~node.status _)) (sameID rfl)
        · rw [node.readOther_unexpected (.inl is), other.readOther_unexpected (.inl is)]
        · subst isScratch
          exact congrArg (fun reg => Access.done (reg &&& ~~~node.status _)) (sameScratch rfl)
        · have two := node.numDirectionRegs_le
          have here : num = dimensionDirection0 ∨ num = dimensionDirection0 + 1 := by
            have := directions.2
            omega
          unfold readOther readDirectionReg directionsEnd
          rw [if_pos here, if_pos here, alike.bits, node.readDirections_congr]
          intro i pre
          exact sameDirections directions i (by omega)
        · exact absurd link isDir
        · exact absurd link isState
  · by_cases behind : num = node.numRegs
    · subst behind
      have same := alike.numRegs
      unfold SwitchNode.read
      rw [node.checkRights_numRegs, ← same, other.checkRights_numRegs]
    · unfold SwitchNode.read
      rw [node.checkRights_of_not_registered _ _ registered behind,
        other.checkRights_of_not_registered _ _ (mt (alike.registered num).mp registered) (alike.numRegs ▸ behind)]

end

lemma Alike.refl : node.Alike node := ⟨rfl, rfl, rfl⟩

lemma readable_nodes (nodes nodes' : Nat → SwitchNode) (num : Nat) :
    node.readable nodes' num = node.readable nodes num :=
  (Alike.refl node).readable num (fun _ xLink found => ⟨xLink, found, rfl, rfl, rfl⟩) (fun _ _ _ => rfl) (fun _ => rfl)
    fun _ => rfl

/-! ### Writing -/

lemma status_of_not_link {num : Nat} (noLink : ¬node.LinkState num) : node.status num = 0 :=
  if_neg fun isState => noLink isState.1

/-- A write to the register changes what is read from it to the given value, and leaves the other registers. -/
structure Rewrites (written : SwitchNode) (num : Nat) (readBack : Access (BitVec 32)) : Prop where
  own : ∀ nodes, written.readable nodes num = readBack
  others : ∀ nodes nodes' other, other ≠ num → written.readable nodes' other = node.readable nodes other

section

variable {num : Nat} {xLink changed : XLink}

lemma setXLink_alike (i : Nat) : node.Alike (node.setXLink i changed) := ⟨rfl, rfl, List.length_set⟩

lemma setXLink_others {i : Nat} (found : node.xLinks[i]? = some xLink) {nodes nodes' : Nat → SwitchNode} {other : Nat}
    (kept : SameState changed xLink ∨ other - xlink0 ≠ i) :
    (node.setXLink i changed).readable nodes' other = node.readable nodes other := by
  refine (node.setXLink_alike i).readable other (fun _ old isOld => ?_) (fun _ _ _ => rfl) (fun _ => rfl) fun _ => rfl
  by_cases here : i = other - xlink0
  · obtain rfl : xLink = old := by
      rw [here, isOld] at found
      exact (Option.some.inj found).symm
    have within := (List.getElem?_eq_some_iff.mp isOld).1
    exact ⟨changed, by simp [setXLink, here, within], kept.resolve_right (fun apart => apart here.symm)⟩
  · exact ⟨old, by simp [setXLink, List.getElem?_set_ne here, isOld], rfl, rfl, rfl⟩

lemma rewrites_linkDirection (isDir : node.LinkDirection num) (val : BitVec 32)
    (found : node.xLinks[num - slink0]? = some xLink) :
    node.Rewrites (node.setXLink (num - slink0) (node.writeXLinkDirectionAndNetworkReg xLink val)) num
      .unexpectedRegister := by
  constructor
  · intro nodes
    have alike : node.Alike (node.setXLink (num - slink0) (node.writeXLinkDirectionAndNetworkReg xLink val)) :=
      node.setXLink_alike _
    have still := (alike.linkDirection num).mpr isDir
    unfold readable
    rw [read_unexpected _ nodes (.inr (.inr (.inr (.inr (.inl still))))) (.inr still)]
    rfl
  · exact fun nodes nodes' other _ => node.setXLink_others found (.inl ⟨rfl, rfl, rfl⟩)

lemma rewrites_linkState (isState : node.LinkState num) (val : BitVec 32)
    (found : node.xLinks[num - xlink0]? = some xLink) :
    node.Rewrites (node.setXLink (num - xlink0) (node.writeXLinkStateReg xLink val)) num
      (.done (val &&& (node.symbolDelayField ||| field 30 30 ||| field 31 31))) := by
  have alike : node.Alike (node.setXLink (num - xlink0) (node.writeXLinkStateReg xLink val)) := node.setXLink_alike _
  have within := (List.getElem?_eq_some_iff.mp found).1
  constructor
  · intro nodes
    have still := (alike.linkState num).mpr isState
    have noDir : ¬node.LinkDirection num := by
      have links := node.numLinkRegs_le
      unfold LinkState LinkDirection at *
      simp only [xlink0, slink0] at *
      omega
    have put : (node.setXLink (num - xlink0) (node.writeXLinkStateReg xLink val)).xLinks[num - xlink0]? =
        some (node.writeXLinkStateReg xLink val) := by simp [setXLink, within]
    unfold readable
    rw [alike.status, read_registered _ nodes (.inr (.inr (.inr (.inr (.inr still))))),
      if_neg (mt (alike.linkDirection num).mp noDir), if_pos still]
    unfold withXLink
    rw [put]
    dsimp only [Access.map]
    rw [alike.readXLinkStateReg, node.readXLinkStateReg_written isState]
  · intro nodes nodes' other apart
    by_cases otherState : node.LinkState other
    · refine node.setXLink_others found (.inr ?_)
      unfold LinkState at isState otherState
      omega
    · exact alike.readable other (fun link => absurd link otherState) (fun _ _ _ => rfl) (fun _ => rfl) fun _ => rfl

end

section

variable {num : Nat}

lemma not_link_of_lt (small : num < slink0) : ¬node.LinkDirection num ∧ ¬node.LinkState num := by
  unfold LinkDirection LinkState
  simp only [slink0, xlink0] at *
  omega

lemma NodeDirection.within (isDir : node.NodeDirection num) :
    (num - dimensionDirection0) * 8 + (node.directionsEnd ((num - dimensionDirection0) * 8) -
      (num - dimensionDirection0) * 8) ≤ node.directions.length := by
  obtain ⟨-, first, last⟩ := isDir
  have sized := node.sized
  unfold numDirectionRegs at last
  unfold directionsEnd
  omega

lemma rewrites_nodeDirection (isDir : node.NodeDirection num) (val : BitVec 32) :
    ∃ written, node.writeDirectionReg ((num - dimensionDirection0) * 8) val = .done written ∧
      node.Rewrites written num (.done (val &&& node.implemented num)) := by
  have two := node.numDirectionRegs_le
  have small : num < slink0 := by
    have last := isDir.2.2
    simp only [dimensionDirection0, slink0] at *
    omega
  obtain ⟨noDir, noState⟩ := node.not_link_of_lt small
  obtain ⟨directions, sized, wrote, found⟩ := node.writeDirections_spec val (isDir.within node)
  let written : SwitchNode := { node with directions, sized }
  have alike : node.Alike written := ⟨rfl, rfl, rfl⟩
  refine ⟨written, wrote, ?_, ?_⟩
  · intro nodes
    have width : node.directionsEnd ((num - dimensionDirection0) * 8) - (num - dimensionDirection0) * 8 ≤ 8 := by
      unfold directionsEnd
      omega
    have put (i : Nat) (pre : i < node.directionsEnd ((num - dimensionDirection0) * 8) -
        (num - dimensionDirection0) * 8) :
        written.directions[(num - dimensionDirection0) * 8 + i]? = some (nibble val i) := by
      show directions[_]? = _
      rw [found, if_pos (by omega), Nat.add_sub_cancel_left]
    have small (i b : Nat) (high : 4 ≤ b) : (nibble val i).getLsbD b = false := by
      simp [getLsbD_nibble, Nat.not_lt.mpr high]
    obtain ⟨result, read, bits⟩ := written.readDirections_bits width put small
    have registered : written.Registered num := .inr (.inr (.inr (.inl isDir)))
    have here : num = dimensionDirection0 ∨ num = dimensionDirection0 + 1 := by
      have := isDir.2
      omega
    unfold readable
    rw [written.read_registered nodes registered, if_neg (mt (alike.linkDirection num).mp noDir),
      if_neg (mt (alike.linkState num).mp noState), alike.status, node.status_of_not_link noState]
    unfold readOther readDirectionReg
    rw [if_pos here, show written.directionsEnd _ = node.directionsEnd _ from rfl, read]
    -- Bit for bit, the register holds the nibbles that were written.
    refine congrArg Access.done (BitVec.eq_of_getLsbD_eq fun j within => ?_)
    unfold implemented
    rw [if_neg noDir, if_neg noState, if_pos isDir, BitVec.getLsbD_and, BitVec.getLsbD_and, bits j within,
      getLsbD_mask32 _ within, getLsbD_nibble, show j / 4 * 4 + j % 4 = j by omega]
    simp only [BitVec.getLsbD_not, within, show j % 4 < 4 by omega]
    grind
  · intro nodes nodes' other apart
    refine alike.readable other (fun _ xLink isLink => ⟨xLink, isLink, rfl, rfl, rfl⟩) ?_ (fun _ => rfl) fun _ => rfl
    intro otherDirection i pre
    have first := isDir.2.1
    have otherFirst := otherDirection.2.1
    show directions[_]? = _
    rw [found, if_neg]
    unfold directionsEnd
    omega

lemma rewrites_single {wr : SwitchNode} (alike : node.Alike wr) (sameLinks : wr.xLinks = node.xLinks)
    (sameDirections : wr.directions = node.directions)
    (sameID : num ≠ SwitchReg.nodeID → wr.nodeID = node.nodeID)
    (sameScratch : num ≠ deviceID3 → wr.scratchReg = node.scratchReg) :
    node.Rewrites wr num (wr.readable (fun _ => wr) num) := by
  constructor
  · exact fun nodes => wr.readable_nodes _ _ num
  · intro nodes nodes' other apart
    refine alike.readable other (fun _ xLink isLink => ⟨xLink, sameLinks ▸ isLink, rfl, rfl, rfl⟩)
      (fun _ _ _ => by rw [sameDirections]) (fun isID => sameID fun same => apart (isID.trans same.symm))
      fun isScratch => sameScratch fun same => apart (isScratch.trans same.symm)

lemma and_not_zero (x : BitVec 32) : x &&& ~~~0 = x := by
  rw [show ~~~(0 : BitVec 32) = BitVec.allOnes 32 from rfl, BitVec.and_allOnes]

lemma readable_nodeID (nodes : Nat → SwitchNode) : node.readable nodes SwitchReg.nodeID = .done node.nodeID := by
  obtain ⟨noDir, noState⟩ := node.not_link_of_lt (show SwitchReg.nodeID < slink0 by decide)
  unfold readable
  rw [node.read_registered nodes (.inl rfl), if_neg noDir, if_neg noState, node.status_of_not_link noState]
  exact congrArg Access.done (and_not_zero _)

lemma readable_scratch (isG : node.type = .xs1G) (nodes : Nat → SwitchNode) :
    node.readable nodes deviceID3 = .done node.scratchReg := by
  obtain ⟨noDir, noState⟩ := node.not_link_of_lt (show deviceID3 < slink0 by decide)
  unfold readable
  rw [node.read_registered nodes (.inr (.inr (.inl ⟨isG, rfl⟩))), if_neg noDir, if_neg noState,
    node.status_of_not_link noState]
  exact congrArg Access.done (and_not_zero _)

lemma writeNodeId_eq (val : BitVec 32) :
    (node.writeNodeId val).nodeID = val &&& ~~~mask32 node.getNonNodeNumberBits := by
  apply BitVec.eq_of_getLsbD_eq
  intro i within
  show (val >>> node.getNonNodeNumberBits <<< node.getNonNodeNumberBits).getLsbD i = _
  simp only [BitVec.getLsbD_shiftLeft, BitVec.getLsbD_ushiftRight, BitVec.getLsbD_and, BitVec.getLsbD_not,
    getLsbD_mask32 _ within, within]
  grind

end

/-- What is read back from a register that was written: the bits it implements, except for the token delay of a link,
and nothing from the registers that cannot be read. -/
def readBack (num : Nat) (val : BitVec 32) : Access (BitVec 32) :=
  if num = clkDivider ∨ node.LinkDirection num then .unexpectedRegister
  else if node.LinkState num then .done (val &&& (node.symbolDelayField ||| field 30 30 ||| field 31 31))
  else .done (val &&& node.implemented num)

lemma write_rewrites {num : Nat} (registered : node.Registered num) (val : BitVec 32) :
    ∃ wr, node.write num val = .done wr ∧ node.Rewrites wr num (node.readBack num val) := by
  unfold readBack
  rw [node.write_registered val registered]
  by_cases isDir : node.LinkDirection num
  · have within := node.link_lt (show num - slink0 < _ by unfold LinkDirection at isDir; omega)
    rw [if_pos isDir, if_pos (.inr isDir), node.withXLink_of_lt _ within]
    exact ⟨_, rfl, node.rewrites_linkDirection isDir val (List.getElem?_eq_getElem within)⟩
  rw [if_neg isDir]
  by_cases isState : node.LinkState num
  · have within := node.link_lt (show num - xlink0 < _ by unfold LinkState at isState; omega)
    have notDivider : num ≠ clkDivider := fun same => absurd isState.1 (same ▸ by decide)
    rw [if_pos isState, if_neg (by simp [notDivider, isDir]), if_pos isState, node.withXLink_of_lt _ within]
    exact ⟨_, rfl, node.rewrites_linkState isState val (List.getElem?_eq_getElem within)⟩
  rw [if_neg isState, if_neg isState]
  obtain rfl | rfl | ⟨isG, rfl⟩ | dir | link | link := registered
  · have noNode : ¬node.NodeDirection SwitchReg.nodeID := fun dir => absurd dir.2.1 (by decide)
    have whole : node.implemented SwitchReg.nodeID = ~~~mask32 node.getNonNodeNumberBits := by
      unfold implemented
      rw [if_neg isDir, if_neg isState, if_neg noNode, if_pos rfl]
    have one : node.Rewrites (node.writeNodeId val) SwitchReg.nodeID _ :=
      node.rewrites_single ⟨rfl, rfl, rfl⟩ rfl rfl (fun ne => absurd rfl ne) fun _ => rfl
    rw [readable_nodeID, writeNodeId_eq] at one
    rw [if_neg (not_or.mpr ⟨by decide, isDir⟩), whole]
    exact ⟨node.writeNodeId val, rfl, one⟩
  · have one : node.Rewrites { node with clkDividerReg := val } clkDivider _ :=
      node.rewrites_single ⟨rfl, rfl, rfl⟩ rfl rfl (fun _ => rfl) fun _ => rfl
    unfold readable at one
    rw [read_unexpected _ _ (.inr (.inl rfl)) (.inl rfl)] at one
    rw [if_pos (.inl rfl)]
    exact ⟨{ node with clkDividerReg := val }, rfl, one⟩
  · have noNode : ¬node.NodeDirection deviceID3 := fun dir => absurd dir.2.1 (by decide)
    have whole : node.implemented deviceID3 = BitVec.allOnes 32 := by
      unfold implemented
      rw [if_neg isDir, if_neg isState, if_neg noNode, if_neg (by decide)]
    have one : node.Rewrites { node with scratchReg := val } deviceID3 _ :=
      node.rewrites_single ⟨rfl, rfl, rfl⟩ rfl rfl (fun _ => rfl) fun ne => absurd rfl ne
    rw [readable_scratch _ (by exact isG)] at one
    rw [if_neg (not_or.mpr ⟨by decide, isDir⟩), whole, BitVec.and_allOnes]
    exact ⟨{ node with scratchReg := val }, rfl, one⟩
  · have two := node.numDirectionRegs_le
    have here : num = dimensionDirection0 ∨ num = dimensionDirection0 + 1 := by
      have := dir.2
      omega
    have notDivider : num ≠ clkDivider := by
      simp only [dimensionDirection0, clkDivider] at *
      omega
    obtain ⟨wr, wrote, rewrites⟩ := node.rewrites_nodeDirection dir val
    unfold writeOther
    rw [if_neg (not_or.mpr ⟨notDivider, isDir⟩), if_pos here]
    exact ⟨wr, wrote, rewrites⟩
  · exact absurd link isDir
  · exact absurd link isState

lemma keepsWrite_iff_readBack {nodes : Nat → SwitchNode} {n num : Nat} {val : BitVec 32}
    (registered : (nodes n).Registered num) : KeepsWrite nodes n num val ↔
      (nodes n).readBack num val = .done (val &&& (nodes n).implemented num) := by
  obtain ⟨wr, wrote, rewrites⟩ := (nodes n).write_rewrites registered val
  constructor
  · rintro ⟨wr', wrote', own, -⟩
    obtain rfl : wr = wr' := by
      rw [wrote] at wrote'
      exact Access.done.inj wrote'
    rw [← rewrites.own, own]
  · intro same
    refine ⟨wr, wrote, by rw [rewrites.own, same], fun m other apart => ?_⟩
    by_cases here : m = n
    · subst here
      rw [Function.update_self]
      exact rewrites.others _ _ other fun same => apart ⟨rfl, same⟩
    · rw [Function.update_of_ne here]
      exact (nodes m).readable_nodes _ _ other

/-- The bits of a token delay are not read back, so they have to be clear. -/
lemma linkState_readBack_iff {num : Nat} (isState : node.LinkState num) (val : BitVec 32) :
    val &&& (node.symbolDelayField ||| field 30 30 ||| field 31 31) = val &&& node.implemented num ↔
      val &&& node.tokenDelayField = 0 := by
  have noDir : ¬node.LinkDirection num := by
    have links := node.numLinkRegs_le
    unfold LinkState LinkDirection at *
    simp only [xlink0, slink0] at *
    omega
  have whole : node.implemented num =
      node.tokenDelayField ||| (node.symbolDelayField ||| field 30 30 ||| field 31 31) := by
    unfold implemented
    rw [if_neg noDir, if_pos isState, BitVec.or_assoc, BitVec.or_assoc, BitVec.or_assoc]
  have disjoint (i : Nat) (within : i < 32) (isIn : node.tokenDelayField.getLsbD i = true) :
      (node.symbolDelayField ||| field 30 30 ||| field 31 31).getLsbD i = false := by
    unfold tokenDelayField symbolDelayField at *
    by_cases isG : node.type = .xs1G
    · simp only [isG, if_true, BitVec.getLsbD_or, getLsbD_field _ _ within] at *
      grind
    · simp only [isG, if_false, BitVec.getLsbD_or, getLsbD_field _ _ within] at *
      grind
  rw [whole]
  exact and_or_iff_of_disjoint val disjoint

/-- All implemented bits are read back, except from the clock divider, the directions of the links and the token
delays. -/
lemma readBack_eq_iff (num : Nat) (val : BitVec 32) :
    node.readBack num val = .done (val &&& node.implemented num) ↔
      num ≠ clkDivider ∧ ¬node.LinkDirection num ∧ (node.LinkState num → val &&& node.tokenDelayField = 0) := by
  unfold readBack
  by_cases odd : num = clkDivider ∨ node.LinkDirection num
  · rw [if_pos odd]
    grind
  · rw [if_neg odd]
    obtain ⟨notDivider, noDir⟩ := not_or.mp odd
    by_cases isState : node.LinkState num
    · rw [if_pos isState, Access.done.injEq, node.linkState_readBack_iff isState]
      simp [notDivider, noDir, isState]
    · simp [notDivider, noDir, isState]

/-- Every register that is marked readable and writable gives back what was written to it, except for the clock
divider, the directions of the links and the token delays. -/
theorem keepsWrite_iff (nodes : Nat → SwitchNode) (n num : Nat) (val : BitVec 32)
    (flagged : (nodes n).Flagged num regRead ∧ (nodes n).Flagged num regWrite) : KeepsWrite nodes n num val ↔
      num ≠ clkDivider ∧ ¬(nodes n).LinkDirection num ∧
        ((nodes n).LinkState num → val &&& (nodes n).tokenDelayField = 0) := by
  rw [keepsWrite_iff_readBack (((nodes n).flagged_iff regRead (by decide)).mp flagged.1)]
  exact (nodes n).readBack_eq_iff num val

def linked : SwitchNode := { unlinked with xLinks := [{}] }

theorem keepsWrite_enable : KeepsWrite (fun _ => linked) 0 0x80 0xc0000000 :=
  (keepsWrite_iff (fun _ => linked) 0 0x80 0xc0000000 ⟨⟨3, by decide, by decide⟩, 3, by decide, by decide⟩).mpr
    (by decide)

/-- A token delay of one is written and read back as none. -/
theorem tokenDelay_lost :
    linked.Flagged 0x80 regRead ∧ linked.Flagged 0x80 regWrite ∧ ¬KeepsWrite (fun _ => linked) 0 0x80 1 := by
  refine ⟨⟨3, by decide, by decide⟩, ⟨3, by decide, by decide⟩, fun keeps => ?_⟩
  obtain ⟨written, wrote, own, -⟩ := keeps
  obtain rfl := Access.done.inj wrote
  revert own
  decide

end SwitchNode

end Axe
