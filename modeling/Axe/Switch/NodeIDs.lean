import Axe.Switch.Endpoints
import Axe.Switch.Routing

/-! The IDs of the channel ends of a node. They are made of the node ID and the number of the
core, are stored in each channel end, and are taken apart again by the core and by the node
when a destination is looked up. -/

namespace Axe

namespace ResourceID

def isChanendOrConfig (id : BitVec 32) : Bool := type id == typeChanend || type id == typeConfig

def configPSCtrl : BitVec 8 := 0xc2

def setNode (id val : BitVec 32) : BitVec 32 := val.setWidth 16 ++ id.setWidth 16

lemma node_chanendID (num : BitVec 8) (val : BitVec 16) : node (chanendID num val) = val := by
  unfold node chanendID
  ext i inside
  simp
  grind

lemma num_chanendID (num : BitVec 8) (val : BitVec 16) : ResourceID.num (chanendID num val) = num := by
  unfold ResourceID.num chanendID
  ext i inside
  simp
  grind

lemma type_chanendID (num : BitVec 8) (val : BitVec 16) : type (chanendID num val) = typeChanend := by
  unfold type chanendID typeChanend
  ext i inside
  simp
  grind

lemma setNode_chanendID (num : BitVec 8) (old : BitVec 16) (val : BitVec 32) :
    setNode (chanendID num old) val = chanendID num (val.setWidth 16) := by
  unfold setNode chanendID
  ext i inside
  simp
  grind

end ResourceID

open ResourceID

/-- A node with the IDs that the channel ends of its cores hold. A node without cores is a peripheral one. -/
structure ProcessorNode where
  switch : SwitchNode
  cores : Nat
  ids : Nat → Nat → BitVec 32

/-- What `Core::getLocalChanendDest` comes to: the false result, a destination or null, or the assertion about the
registers of the processor. -/
inductive LocalDest where
  | elsewhere
  | here (dest : Option ChanEndpoint)
  | unimplemented
  deriving DecidableEq, Repr

def numChanends : Nat := 32

namespace ProcessorNode

variable (node : ProcessorNode)

def getCoreID (coreNum : Nat) : BitVec 32 := node.switch.nodeID ||| BitVec.ofNat 32 coreNum

def updateIDs : ProcessorNode :=
  { node with ids := fun core num => setNode (node.ids core num) (node.getCoreID core) }

def setNodeID (val : BitVec 32) : ProcessorNode :=
  updateIDs { node with switch := { node.switch with nodeID := val } }

def writeNodeId (val : BitVec 32) : ProcessorNode := node.setNodeID (node.switch.writeNodeId val).nodeID

def new (config : NodeConfig) (few : config.cores ≤ 2 ^ 16) : ProcessorNode :=
  updateIDs { switch := config.node few, cores := config.cores, ids := fun _ num => chanendID (BitVec.ofNat 8 num) 0 }

/-- `Core::getLocalChanendDest` of the core with the given number of node `n`. -/
def coreLocalDest (n core : Nat) (id : BitVec 32) : LocalDest :=
  if isConfig id then if num id = configPSCtrl then .unimplemented else .elsewhere
  else if (ResourceID.node id).setWidth 32 = node.getCoreID core then
    .here (if (num id).toNat < numChanends then some (.chanend n core (num id).toNat) else none)
  else .elsewhere

/-- `ProcessorNode::getLocalChanendDest`. Whether the core takes the ID for its own is not looked at. -/
def getLocalChanendDest (n : Nat) (id : BitVec 32) : Lookup :=
  let destCore := (ResourceID.node id).toNat &&& (2 ^ node.switch.getNonNodeNumberBits - 1)
  if node.cores ≤ destCore then .returned none
  else
    match node.coreLocalDest n destCore id with
    | .elsewhere => .returned none
    | .here dest => .returned dest
    | .unimplemented => .unimplemented

end ProcessorNode

structure NodeSystem where
  nodes : Nat → ProcessorNode
  count : Nat
  closed : ∀ n < count, ∀ xLink ∈ (nodes n).switch.xLinks, ∀ other num, xLink.dest = some (other, num) → other < count

namespace NodeSystem

variable (sys : NodeSystem)

def network : NodeNetwork := ⟨sys.count, fun n => (sys.nodes n).switch, sys.closed⟩

def getOutgoingChanendDest (rounds n : Nat) (id : BitVec 32) : Option Lookup :=
  sys.network.getIncomingChanendDest (fun n => (sys.nodes n).getLocalChanendDest n) rounds n id

def getChanendDest (rounds n core : Nat) (id : BitVec 32) : Option Lookup :=
  if isChanendOrConfig id then
    match (sys.nodes n).coreLocalDest n core id with
    | .elsewhere => sys.getOutgoingChanendDest rounds n id
    | .here dest => some (.returned dest)
    | .unimplemented => some .unimplemented
  else some (.returned none)

def writeNodeId (write : Nat × BitVec 32) : NodeSystem where
  nodes := Function.update sys.nodes write.1 ((sys.nodes write.1).writeNodeId write.2)
  count := sys.count
  closed := by
    intro n inside xLink member
    apply sys.closed n inside xLink
    by_cases here : n = write.1
    · subst here
      rwa [Function.update_self] at member
    · rwa [Function.update_of_ne here] at member

/-- The IDs of the channel ends of a node lead to them from each of its cores, and are all different. -/
structure IDsResolve (n : Nat) : Prop where
  resolves : ∀ a < (sys.nodes n).cores, ∀ b < (sys.nodes n).cores, ∀ num < numChanends,
    ∃ rounds, ∀ more, rounds ≤ more →
      sys.getChanendDest more n a ((sys.nodes n).ids b num) = some (.returned (some (.chanend n b num)))
  distinct : ∀ b < (sys.nodes n).cores, ∀ num < numChanends, ∀ b' < (sys.nodes n).cores, ∀ num' < numChanends,
    (sys.nodes n).ids b num = (sys.nodes n).ids b' num' → b = b' ∧ num = num'

end NodeSystem

/-! ### What the cores and the switch agree on -/

namespace ProcessorNode

variable {node : ProcessorNode}

/-- What a node keeps: the IDs are up to date, the bits of the node ID that stand for the core are clear, and there
are enough of them. -/
structure Numbered (node : ProcessorNode) : Prop where
  ids : ∀ core num, node.ids core num = chanendID (BitVec.ofNat 8 num) ((node.getCoreID core).setWidth 16)
  low : node.cores ≠ 0 → 2 ^ node.switch.getNonNodeNumberBits ∣ node.switch.nodeID.toNat
  room : node.cores ≤ 2 ^ node.switch.getNonNodeNumberBits

lemma numbered_updateIDs (ids : ∀ core num, ∃ old, node.ids core num = chanendID (BitVec.ofNat 8 num) old)
    (low : node.cores ≠ 0 → 2 ^ node.switch.getNonNodeNumberBits ∣ node.switch.nodeID.toNat)
    (room : node.cores ≤ 2 ^ node.switch.getNonNodeNumberBits) : node.updateIDs.Numbered where
  ids core num := by
    obtain ⟨old, pre⟩ := ids core num
    show setNode (node.ids core num) (node.getCoreID core) =
      chanendID (BitVec.ofNat 8 num) ((node.getCoreID core).setWidth 16)
    rw [pre, setNode_chanendID]
  low := low
  room := room

lemma le_getMinimumBits {vals : Nat} (few : vals ≤ 2 ^ 16) : vals ≤ 2 ^ NodeConfig.getMinimumBits vals := by
  unfold NodeConfig.getMinimumBits
  by_cases none : vals = 0
  · rw [none]
    exact Nat.zero_le _
  · rw [if_neg none]
    by_cases one : vals - 1 = 0
    · have positive := Nat.two_pow_pos (32 - countLeadingZeros (BitVec.ofNat 32 (vals - 1)))
      omega
    · have val : (BitVec.ofNat 32 (vals - 1)).toNat = vals - 1 := by
        rw [BitVec.toNat_ofNat, Nat.mod_eq_of_lt (by omega)]
      have nonzero : BitVec.ofNat 32 (vals - 1) ≠ 0 := by
        intro zero
        rw [zero] at val
        exact one val.symm
      have small := (Nat.log2_lt one).mpr (show vals - 1 < 2 ^ 16 by omega)
      have bits : 32 - (31 - Nat.log2 (vals - 1)) = Nat.log2 (vals - 1) + 1 := by omega
      have below := @Nat.lt_log2_self (vals - 1)
      rw [countLeadingZeros_eq nonzero, val, bits]
      omega

lemma cores_le (cfg : NodeConfig) (few : cfg.cores ≤ 2 ^ 16) :
    cfg.cores ≤ 2 ^ (16 - cfg.nodeNumberBits) := by
  cases cfg with
  | processor type cores xLinks =>
    have le : cores ≤ 2 ^ NodeConfig.getMinimumBits cores := le_getMinimumBits few
    have bits : NodeConfig.coreNumberBits type cores ≤ 16 := NodeConfig.coreNumberBits_le type few
    have more : NodeConfig.getMinimumBits cores ≤ NodeConfig.coreNumberBits type cores := by
      unfold NodeConfig.coreNumberBits
      split <;> omega
    have left : 16 - NodeConfig.nodeNumberBits (.processor type cores xLinks) =
        NodeConfig.coreNumberBits type cores := by
      unfold NodeConfig.nodeNumberBits
      dsimp only
      omega
    rw [left]
    exact Nat.le_trans le (Nat.pow_le_pow_right (by decide) more)
  | peripheral number xLink => exact Nat.zero_le _

lemma numbered_new (cfg : NodeConfig) (few : cfg.cores ≤ 2 ^ 16) : (new cfg few).Numbered := by
  apply numbered_updateIDs
  · intro core num
    exact ⟨0, rfl⟩
  · intro some
    cases cfg with
    | processor type cores xLinks => exact Nat.dvd_zero _
    | peripheral number xLink => exact absurd rfl some
  · exact cores_le cfg few

lemma Numbered.writeNodeId (numbered : node.Numbered) (val : BitVec 32) : (node.writeNodeId val).Numbered := by
  apply numbered_updateIDs
  · intro core num
    exact ⟨_, numbered.ids core num⟩
  · intro _
    show 2 ^ node.switch.getNonNodeNumberBits ∣
      (val >>> node.switch.getNonNodeNumberBits <<< node.switch.getNonNodeNumberBits).toNat
    have bits := node.switch.getNonNodeNumberBits_le
    rw [BitVec.toNat_shiftLeft, Nat.shiftLeft_eq]
    apply (Nat.dvd_mod_iff (Nat.pow_dvd_pow 2 (by omega))).mpr
    exact Nat.dvd_mul_left _ _
  · exact numbered.room

variable (numbered : node.Numbered) {b : Nat} (inside : b < node.cores)

include numbered inside

lemma Numbered.getCoreID_toNat : (node.getCoreID b).toNat = node.switch.nodeID.toNat + b := by
  have small := Nat.lt_of_lt_of_le inside numbered.room
  have bits : 2 ^ node.switch.getNonNodeNumberBits ≤ 2 ^ 16 :=
    Nat.pow_le_pow_right (by decide) node.switch.getNonNodeNumberBits_le
  obtain ⟨high, split⟩ := numbered.low (by omega)
  have disjoint := Nat.shiftLeft_add_eq_or_of_lt small high
  rw [Nat.shiftLeft_eq, Nat.mul_comm, ← split] at disjoint
  unfold getCoreID
  rw [BitVec.toNat_or, BitVec.toNat_ofNat, Nat.mod_eq_of_lt (by omega), disjoint]

lemma Numbered.core_of_id : (node.switch.nodeID.toNat + b) % 2 ^ node.switch.getNonNodeNumberBits = b := by
  obtain ⟨high, split⟩ := numbered.low (by omega)
  rw [split, Nat.mul_add_mod, Nat.mod_eq_of_lt (Nat.lt_of_lt_of_le inside numbered.room)]

lemma Numbered.id_lt (fits : node.switch.nodeID.toNat < 2 ^ 16) : node.switch.nodeID.toNat + b < 2 ^ 16 := by
  have room := Nat.lt_of_lt_of_le inside numbered.room
  obtain ⟨high, split⟩ := numbered.low (by omega)
  have whole : 2 ^ node.switch.getNonNodeNumberBits * 2 ^ (16 - node.switch.getNonNodeNumberBits) = 2 ^ 16 := by
    rw [← Nat.pow_add, Nat.add_sub_cancel' node.switch.getNonNodeNumberBits_le]
  have less : high + 1 ≤ 2 ^ (16 - node.switch.getNonNodeNumberBits) := by
    apply Nat.lt_of_mul_lt_mul_left (a := 2 ^ node.switch.getNonNodeNumberBits)
    rw [whole, ← split]
    exact fits
  have above := Nat.mul_le_mul_left (2 ^ node.switch.getNonNodeNumberBits) less
  rw [whole, Nat.mul_succ, ← split] at above
  omega

lemma Numbered.node_toNat (num : Nat) :
    (ResourceID.node (node.ids b num)).toNat = (node.switch.nodeID.toNat + b) % 2 ^ 16 := by
  rw [numbered.ids b num, node_chanendID, BitVec.toNat_setWidth, numbered.getCoreID_toNat inside]

/-- A core takes an ID for its own exactly when its own ID, which may not fit in half a word, is the node of it. -/
lemma Numbered.coreLocalDest_eq {a : Nat} (other : a < node.cores) (n : Nat) {num : Nat} (small : num < numChanends) :
    node.coreLocalDest n a (node.ids b num) =
      if (node.switch.nodeID.toNat + b) % 2 ^ 16 = node.switch.nodeID.toNat + a then .here (some (.chanend n a num))
      else .elsewhere := by
  have isNum : (BitVec.ofNat 8 num).toNat = num := by
    rw [BitVec.toNat_ofNat]
    unfold numChanends at small
    omega
  have own : (ResourceID.node (node.ids b num)).setWidth 32 = node.getCoreID a ↔
      (node.switch.nodeID.toNat + b) % 2 ^ 16 = node.switch.nodeID.toNat + a := by
    rw [← BitVec.toNat_inj, BitVec.toNat_setWidth, numbered.node_toNat inside, numbered.getCoreID_toNat other,
      Nat.mod_eq_of_lt (Nat.lt_trans (Nat.mod_lt _ (by decide)) (by decide : 2 ^ 16 < 2 ^ 32))]
  have notConfig : isConfig (node.ids b num) = false := by
    rw [numbered.ids b num, isConfig, type_chanendID]
    rfl
  unfold coreLocalDest
  rw [notConfig]
  simp only [own, Bool.false_eq_true, if_false]
  rw [numbered.ids b num, num_chanendID, isNum, if_pos small]

lemma Numbered.getLocalChanendDest (fits : node.switch.nodeID.toNat < 2 ^ 16) (n : Nat) {num : Nat}
    (small : num < numChanends) :
    node.getLocalChanendDest n (node.ids b num) = .returned (some (.chanend n b num)) := by
  have below := numbered.id_lt inside fits
  have destCore : (ResourceID.node (node.ids b num)).toNat &&& (2 ^ node.switch.getNonNodeNumberBits - 1) = b := by
    rw [Nat.and_two_pow_sub_one_eq_mod, numbered.node_toNat inside, Nat.mod_eq_of_lt below, numbered.core_of_id inside]
  unfold ProcessorNode.getLocalChanendDest
  rw [destCore, if_neg (Nat.not_le.mpr inside), numbered.coreLocalDest_eq inside inside n small,
    if_pos (Nat.mod_eq_of_lt below)]

lemma Numbered.matches_ids (fits : node.switch.nodeID.toNat < 2 ^ 16) (num : Nat) :
    node.switch.Matches (ResourceID.node (node.ids b num)) := by
  have below := numbered.id_lt inside fits
  have room := Nat.lt_of_lt_of_le inside numbered.room
  obtain ⟨high, split⟩ := numbered.low (by omega)
  apply BitVec.eq_of_toNat_eq
  rw [BitVec.toNat_ushiftRight, BitVec.toNat_ushiftRight, BitVec.toNat_setWidth, numbered.node_toNat inside,
    Nat.mod_eq_of_lt below, Nat.mod_eq_of_lt (Nat.lt_trans below (by decide : 2 ^ 16 < 2 ^ 32)),
    Nat.shiftRight_eq_div_pow, Nat.shiftRight_eq_div_pow, split, Nat.mul_add_div (Nat.two_pow_pos _),
    Nat.div_eq_of_lt room, Nat.mul_div_cancel_left _ (Nat.two_pow_pos _), Nat.add_zero]

end ProcessorNode

namespace NodeSystem

variable {sys : NodeSystem} {n : Nat} (numbered : (sys.nodes n).Numbered)

include numbered

lemma isChanendOrConfig_ids (b num : Nat) : isChanendOrConfig ((sys.nodes n).ids b num) = true := by
  rw [numbered.ids b num, isChanendOrConfig, type_chanendID]
  rfl

/-- From the core itself the channel end is found at once, from another core through the switch of the node. -/
lemma getChanendDest_ids (fits : (sys.nodes n).switch.nodeID.toNat < 2 ^ 16) {a b num : Nat}
    (other : a < (sys.nodes n).cores) (inside : b < (sys.nodes n).cores) (small : num < numChanends) (rounds : Nat) :
    sys.getChanendDest (rounds + 1) n a ((sys.nodes n).ids b num) = some (.returned (some (.chanend n b num))) := by
  have below := numbered.id_lt inside fits
  unfold getChanendDest
  rw [isChanendOrConfig_ids numbered, if_pos rfl, numbered.coreLocalDest_eq inside other n small,
    Nat.mod_eq_of_lt below]
  by_cases same : b = a
  · subst same
    rw [if_pos rfl]
  · rw [if_neg (by omega)]
    have arr : sys.network.hop (ResourceID.node ((sys.nodes n).ids b num)) n = .stop (.arrived n) :=
      (sys.network.hop_arrived_iff _ n n).mpr ⟨rfl, numbered.matches_ids inside fits num⟩
    have notConfig : isConfig ((sys.nodes n).ids b num) = false := by
      rw [numbered.ids b num, isConfig, type_chanendID]
      rfl
    simp only [getOutgoingChanendDest, NodeNetwork.getIncomingChanendDest,
      sys.network.route_of_stop _ arr rounds, Option.map_some, NodeNetwork.lookup, notConfig, Bool.false_and,
      Bool.false_eq_true, if_false, numbered.getLocalChanendDest inside fits n small]

/-- A node ID that does not fit in half a word differs from every destination in a bit that has no direction. -/
lemma getChanendDest_outOfRange (large : 2 ^ 16 ≤ (sys.nodes n).switch.nodeID.toNat) {b num : Nat}
    (inside : b < (sys.nodes n).cores) (small : num < numChanends) (rounds : Nat) :
    sys.getChanendDest (rounds + 1) n b ((sys.nodes n).ids b num) = some .outOfRange := by
  have half := Nat.mod_lt ((sys.nodes n).switch.nodeID.toNat + b) (Nat.two_pow_pos 16)
  have behind : ¬(sys.nodes n).switch.LookupInRange (ResourceID.node ((sys.nodes n).ids b num)) := by
    rw [SwitchNode.lookupInRange_iff]
    have most : max (sys.nodes n).switch.nodeNumberBits (sys.nodes n).switch.getNonNodeNumberBits ≤ 16 :=
      Nat.max_le.mpr ⟨(sys.nodes n).switch.narrow, (sys.nodes n).switch.getNonNodeNumberBits_le⟩
    generalize max (sys.nodes n).switch.nodeNumberBits (sys.nodes n).switch.getNonNodeNumberBits = bits at most
    intro same
    have quotients := congrArg BitVec.toNat same
    rw [BitVec.toNat_ushiftRight, BitVec.toNat_ushiftRight, BitVec.toNat_setWidth, numbered.node_toNat inside,
      Nat.mod_eq_of_lt (Nat.lt_trans half (by decide : 2 ^ 16 < 2 ^ 32)), Nat.shiftRight_eq_div_pow,
      Nat.shiftRight_eq_div_pow] at quotients
    have whole : 2 ^ 16 = 2 ^ bits * 2 ^ (16 - bits) := by rw [← Nat.pow_add, Nat.add_sub_cancel' most]
    have less (val : Nat) (below : val < 2 ^ 16) : val / 2 ^ bits < 2 ^ (16 - bits) :=
      Nat.div_lt_of_lt_mul (whole ▸ below)
    have more : 2 ^ (16 - bits) ≤ (sys.nodes n).switch.nodeID.toNat / 2 ^ bits := by
      rw [Nat.le_div_iff_mul_le (Nat.two_pow_pos bits), Nat.mul_comm, ← whole]
      exact large
    have between := less _ half
    omega
  unfold getChanendDest
  rw [isChanendOrConfig_ids numbered, if_pos rfl, numbered.coreLocalDest_eq inside inside n small, if_neg (by omega)]
  simp [getOutgoingChanendDest, NodeNetwork.getIncomingChanendDest,
    sys.network.route_of_stop _ (sys.network.hop_outOfRange_of_not _ behind) rounds]

lemma idsResolve_iff : sys.IDsResolve n ↔ (sys.nodes n).cores = 0 ∨ (sys.nodes n).switch.nodeID.toNat < 2 ^ 16 := by
  constructor
  · intro resolve
    by_cases none : (sys.nodes n).cores = 0
    · exact .inl none
    · right
      rcases Nat.lt_or_ge (sys.nodes n).switch.nodeID.toNat (2 ^ 16) with fits | large
      · exact fits
      · have inside : 0 < (sys.nodes n).cores := Nat.pos_of_ne_zero none
        obtain ⟨rounds, found⟩ := resolve.resolves 0 inside 0 inside 0 (by decide)
        have lost := getChanendDest_outOfRange numbered large inside (by decide : 0 < numChanends) rounds
        rw [found (rounds + 1) (Nat.le_succ rounds)] at lost
        cases lost
  · rintro (none | fits)
    · constructor
      · intro a inside
        omega
      · intro b inside
        omega
    · constructor
      · intro a other b inside num small
        refine ⟨1, fun more le => ?_⟩
        obtain ⟨rounds, rfl⟩ := Nat.exists_eq_add_of_le' le
        exact getChanendDest_ids numbered fits other inside small rounds
      · intro b inside num small b' inside' num' small' same
        have nodes := congrArg (fun id => (ResourceID.node id).toNat) same
        have nums := congrArg (fun id => (ResourceID.num id).toNat) same
        have below := numbered.id_lt inside fits
        have below' := numbered.id_lt inside' fits
        simp only [numbered.node_toNat inside, numbered.node_toNat inside'] at nodes
        simp only [numbered.ids, num_chanendID, BitVec.toNat_ofNat] at nums
        unfold numChanends at small small'
        omega

end NodeSystem

/-- In every system of nodes with as many cores as their bits can number, after every sequence of writes to the
registers of the node IDs, the IDs of the channel ends of a node lead to them from each of its cores and are all
different, exactly when the node has no core or its ID fits in half a word. -/
theorem NodeSystem.ids_resolve_iff (configs : Nat → NodeConfig) (few : ∀ n, (configs n).cores ≤ 2 ^ 16)
    (start : NodeSystem) (fresh : ∀ n, start.nodes n = .new (configs n) (few n)) (writes : List (Nat × BitVec 32))
    (n : Nat) : let sys := writes.foldl NodeSystem.writeNodeId start
    sys.IDsResolve n ↔ (sys.nodes n).cores = 0 ∨ (sys.nodes n).switch.nodeID.toNat < 2 ^ 16 := by
  intro sys
  have preserved (sys : NodeSystem) (write : Nat × BitVec 32) (kept : ∀ n, (sys.nodes n).Numbered) (n : Nat) :
      ((sys.writeNodeId write).nodes n).Numbered := by
    show (Function.update sys.nodes write.1 ((sys.nodes write.1).writeNodeId write.2) n).Numbered
    by_cases here : n = write.1
    · subst here
      rw [Function.update_self]
      exact (kept write.1).writeNodeId write.2
    · rw [Function.update_of_ne here]
      exact kept n
  have init (n : Nat) : (start.nodes n).Numbered := by
    rw [fresh n]
    exact ProcessorNode.numbered_new (configs n) (few n)
  exact NodeSystem.idsResolve_iff (Runs.invariant preserved init writes n)

/-! ### Nodes as the endpoints of packets -/

/-- Switches have odd numbers and channel ends even ones. -/
def ChanEndpoint.number : ChanEndpoint → Nat
  | .switch n => 2 * n + 1
  | .chanend n core num => 2 * (numChanends * (2 ^ 16 * n + core) + num)

/-- What is found. An assertion that fails and a direction from outside the table are not told from null here; the
lookup itself does. -/
def Lookup.number : Lookup → Option Nat
  | .returned dest => dest.map ChanEndpoint.number
  | _ => none

/-- The system with other registers in its switches. The ends of the links are no registers. -/
def NodeSystem.withSwitches (sys : NodeSystem) (nodes : Nat → SwitchNode) : NodeSystem where
  nodes n :=
    if (nodes n).xLinks.map XLink.dest = (sys.nodes n).switch.xLinks.map XLink.dest then
      { sys.nodes n with switch := nodes n }
    else sys.nodes n
  count := sys.count
  closed := by
    intro n inside xLink member other num ends
    split at member
    · rename_i same
      have found : xLink.dest ∈ (sys.nodes n).switch.xLinks.map XLink.dest := same ▸ List.mem_map_of_mem member
      obtain ⟨old, isOld, dest⟩ := List.mem_map.mp found
      exact sys.closed n inside old isOld other num (dest.trans ends)
    · exact sys.closed n inside xLink member other num ends

lemma ProcessorNode.coreLocalDest_chanendID {node : ProcessorNode} {n core : Nat} {num : BitVec 8} {val : BitVec 16}
    {dest : ChanEndpoint} (found : node.coreLocalDest n core (chanendID num val) = .here (some dest)) :
    dest = .chanend n core num.toNat := by
  have notConfig : isConfig (chanendID num val) = false := by
    rw [isConfig, type_chanendID]
    rfl
  unfold coreLocalDest at found
  rw [notConfig, if_neg Bool.false_ne_true, num_chanendID] at found
  split_ifs at found
  · cases found
    rfl
  · cases found

lemma ProcessorNode.getLocalChanendDest_chanendID {node : ProcessorNode} {n : Nat} {num : BitVec 8} {val : BitVec 16}
    {dest : ChanEndpoint} (found : node.getLocalChanendDest n (chanendID num val) = .returned (some dest)) :
    ∃ core, dest = .chanend n core num.toNat := by
  unfold getLocalChanendDest at found
  dsimp only at found
  split at found
  · cases found
  · split at found
    · cases found
    · rename_i isHere
      cases found
      exact ⟨_, coreLocalDest_chanendID isHere⟩
    · cases found

lemma NodeSystem.getOutgoingChanendDest_chanendID {sys : NodeSystem} {rounds n : Nat} {num : BitVec 8} {val : BitVec 16}
    {dest : ChanEndpoint}
    (found : sys.getOutgoingChanendDest rounds n (chanendID num val) = some (.returned (some dest))) :
    ∃ m core, dest = .chanend m core num.toNat := by
  have notConfig : isConfig (chanendID num val) = false := by
    rw [isConfig, type_chanendID]
    rfl
  unfold getOutgoingChanendDest NodeNetwork.getIncomingChanendDest at found
  obtain ⟨route, -, res⟩ := Option.map_eq_some_iff.mp found
  cases route with
  | arrived m =>
    dsimp only [NodeNetwork.lookup] at res
    rw [notConfig, Bool.false_and, if_neg Bool.false_ne_true] at res
    exact ⟨m, ProcessorNode.getLocalChanendDest_chanendID res⟩
  | null => cases res
  | outOfRange => cases res

/-- The endpoints of a system of nodes, with the node and the core that each thread belongs to. -/
def NodeSystem.topology (sys : NodeSystem) (coreOf : Nat → Nat × Nat) (rounds : Nat) : Topology where
  getChanendDest nodes owner id := do
    let (n, core) := coreOf (← owner)
    (← (sys.withSwitches nodes).getChanendDest rounds n core id).number
  getOutgoingChanendDest nodes n id := do (← (sys.withSwitches nodes).getOutgoingChanendDest rounds n id).number
  switchEnd n := (ChanEndpoint.switch n).number
  switchOf e := if e % 2 = 1 then some (e / 2) else none
  switchOf_eq_some := by
    intro e n
    unfold ChanEndpoint.number
    split <;> simp <;> omega
  to_chanend := by
    intro nodes n num node d found
    obtain ⟨res, looked, isNumber⟩ := Option.bind_eq_some_iff.mp found
    cases res with
    | returned dest =>
      obtain ⟨dest, rfl, rfl⟩ := Option.map_eq_some_iff.mp isNumber
      obtain ⟨m, core, rfl⟩ := getOutgoingChanendDest_chanendID looked
      simp [ChanEndpoint.number]
    | outOfRange => cases isNumber
    | unimplemented => cases isNumber

def NodeSystem.dualCore : NodeSystem where
  nodes _ := .new (.processor .xs1L 2 []) (by decide)
  count := 1
  closed _ _ _ member := by cases member

theorem NodeSystem.ids_resolve_dualCore : ([(0, 0x8000)].foldl writeNodeId dualCore).IDsResolve 0 :=
  (ids_resolve_iff (fun _ => .processor .xs1L 2 []) (fun _ => by decide) dualCore (fun _ => rfl) [(0, 0x8000)] 0).mpr
    (by decide)

/-- With a node ID that does not fit the core does not even find its own channel ends. -/
theorem NodeSystem.wide_nodeID_lost : ¬([(0, 0x10000)].foldl writeNodeId dualCore).IDsResolve 0 := by
  have numbered : (([(0, 0x10000)].foldl writeNodeId dualCore).nodes 0).Numbered :=
    (ProcessorNode.numbered_new _ _).writeNodeId 0x10000
  rw [idsResolve_iff numbered]
  decide

end Axe
