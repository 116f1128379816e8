import Axe.Core.Geometry
import Axe.Library.CycleSearch
import Axe.Switch.RoundTrips

/-! Routes through the network of switches. A packet that a node does not take for itself
leaves by a link of the direction that the table of the node has for the highest bit in which
its destination differs from the node. -/

namespace Axe

open Function BitVec

open SwitchNode

open CycleSearch (Hop)

namespace ResourceID

def type (id : BitVec 32) : BitVec 8 := id.extractLsb' 0 8

def num (id : BitVec 32) : BitVec 8 := id.extractLsb' 8 8

def node (id : BitVec 32) : BitVec 16 := id.extractLsb' 16 16

def typeChanend : BitVec 8 := 2

def typeConfig : BitVec 8 := 12

def configSSCtrl : BitVec 8 := 0xc3

def isConfig (id : BitVec 32) : Bool := type id == typeConfig

end ResourceID

namespace SwitchNode

variable (node : SwitchNode) (dest : BitVec 16)

def routeDiff : BitVec 32 :=
  let destNode := dest.setWidth 32 >>> node.getNonNodeNumberBits
  let nodeId := node.nodeID >>> node.getNonNodeNumberBits
  (destNode ^^^ nodeId) <<< node.getNonNodeNumberBits

def routeBit : Option Nat :=
  if node.routeDiff dest = 0 then none else some (31 - countLeadingZeros (node.routeDiff dest))

def LookupInRange : Prop := ∀ bit, node.routeBit dest = some bit → bit < node.directions.length
  deriving Decidable

def Matches : Prop := dest.setWidth 32 >>> node.getNonNodeNumberBits = node.nodeID >>> node.getNonNodeNumberBits

def getXLinkForDirection (dir : BitVec 8) : Option XLink :=
  node.xLinks.find? fun xLink => xLink.enabled && xLink.direction == dir

lemma getNonNodeNumberBits_le : node.getNonNodeNumberBits ≤ 16 := Nat.sub_le _ _

lemma getLsbD_routeDiff {i : Nat} (within : i < 32) : (node.routeDiff dest).getLsbD i =
    (decide (node.getNonNodeNumberBits ≤ i) && ((dest.setWidth 32).getLsbD i ^^ node.nodeID.getLsbD i)) := by
  unfold routeDiff
  simp only [getLsbD_shiftLeft, getLsbD_xor, getLsbD_ushiftRight, within, decide_true,
    Bool.true_and]
  rcases Nat.lt_or_ge i node.getNonNodeNumberBits with below | above
  · simp [below]
  · simp [above, Nat.not_lt.mpr above, Nat.add_sub_cancel' above]

lemma routeDiff_lt_iff (k : Nat) : (node.routeDiff dest).toNat < 2 ^ k ↔
    dest.setWidth 32 >>> max k node.getNonNodeNumberBits = node.nodeID >>> max k node.getNonNodeNumberBits := by
  have high : (node.routeDiff dest).toNat < 2 ^ k ↔ ∀ i, k ≤ i → (node.routeDiff dest).getLsbD i = false := by
    constructor
    · intro small i above
      exact Nat.testBit_lt_two_pow (Nat.lt_of_lt_of_le small (Nat.pow_le_pow_right (by decide) above))
    · intro clear
      exact Nat.lt_pow_two_of_testBit _ clear
  rw [high]
  constructor
  · intro clear
    apply eq_of_getLsbD_eq
    intro j within
    rw [getLsbD_ushiftRight, getLsbD_ushiftRight]
    by_cases inside : max k node.getNonNodeNumberBits + j < 32
    · have same := clear _ (Nat.le_trans (Nat.le_max_left k node.getNonNodeNumberBits) (Nat.le_add_right _ j))
      rw [node.getLsbD_routeDiff dest inside] at same
      have above : node.getNonNodeNumberBits ≤ max k node.getNonNodeNumberBits + j := by omega
      simpa [above] using same
    · rw [getLsbD_of_ge _ _ (Nat.not_lt.mp inside), getLsbD_of_ge _ _ (Nat.not_lt.mp inside)]
  · intro same i above
    by_cases inside : i < 32
    · rw [node.getLsbD_routeDiff dest inside]
      by_cases counts : node.getNonNodeNumberBits ≤ i
      · have bit := congrArg (fun word => word.getLsbD (i - max k node.getNonNodeNumberBits)) same
        have place : max k node.getNonNodeNumberBits + (i - max k node.getNonNodeNumberBits) = i := by omega
        simp only [getLsbD_ushiftRight, place] at bit
        simp [counts, bit]
      · simp [counts]
    · exact getLsbD_of_ge _ _ (Nat.not_lt.mp inside)

lemma routeDiff_eq_zero_iff : node.routeDiff dest = 0 ↔ node.Matches dest := by
  have none := node.routeDiff_lt_iff dest 0
  rw [Nat.zero_max] at none
  rw [Matches, ← none]
  constructor
  · intro zero
    rw [zero]
    decide
  · intro small
    apply eq_of_toNat_eq
    show (node.routeDiff dest).toNat = 0
    omega

lemma routeBit_eq_none_iff : node.routeBit dest = none ↔ node.Matches dest := by
  rw [← node.routeDiff_eq_zero_iff dest]
  unfold routeBit
  split <;> simp_all

lemma lookupInRange_iff : node.LookupInRange dest ↔
    dest.setWidth 32 >>> max node.nodeNumberBits node.getNonNodeNumberBits =
      node.nodeID >>> max node.nodeNumberBits node.getNonNodeNumberBits := by
  rw [← node.routeDiff_lt_iff dest]
  unfold LookupInRange routeBit
  rw [node.sized]
  by_cases arrived : node.routeDiff dest = 0
  · simp [arrived]
  · have ne : (node.routeDiff dest).toNat ≠ 0 := fun zero => arrived (eq_of_toNat_eq zero)
    have highest : 31 - countLeadingZeros (node.routeDiff dest) = (node.routeDiff dest).toNat.log2 := by
      have small := (Nat.log2_lt ne).mpr (node.routeDiff dest).isLt
      rw [countLeadingZeros_eq arrived]
      omega
    simp only [arrived, if_false, Option.some.injEq, forall_eq', highest]
    exact Nat.log2_lt ne

end SwitchNode

/-! ### Nodes as they are configured -/

/-- How a node is described: a processor node by its cores and links, a peripheral node by its number and its link. -/
inductive NodeConfig where
  | processor (type : NodeType) (cores : Nat) (xLinks : List XLink)
  | peripheral (number : BitVec 32) (xLink : XLink)

namespace NodeConfig

/-- How many bits are needed to tell so many values apart. -/
def getMinimumBits (vals : Nat) : Nat :=
  if vals = 0 then 0 else 32 - countLeadingZeros (BitVec.ofNat 32 (vals - 1))

/-- `computeCoreNumberBits`; an XS1-G has eight bits at least. -/
def coreNumberBits (type : NodeType) (cores : Nat) : Nat :=
  if type = .xs1G ∧ getMinimumBits cores < 8 then 8 else getMinimumBits cores

def cores : NodeConfig → Nat
  | .processor _ cores _ => cores
  | .peripheral _ _ => 0

/-- The bits of a node number are those that are not bits of a core number, by a subtraction of words. A peripheral
node has none, so that it takes every packet. -/
def nodeNumberBits : NodeConfig → Nat
  | .processor type cores _ => (2 ^ 32 + 16 - coreNumberBits type cores) % 2 ^ 32
  | .peripheral _ _ => 0

lemma coreNumberBits_le (type : NodeType) {cores : Nat} (few : cores ≤ 2 ^ 16) : coreNumberBits type cores ≤ 16 := by
  have minimum : getMinimumBits cores ≤ 16 := by
    unfold getMinimumBits
    by_cases none : cores = 0
    · simp [none]
    · rw [if_neg none]
      by_cases one : cores - 1 = 0
      · rw [one]
        decide
      · have value : (BitVec.ofNat 32 (cores - 1)).toNat = cores - 1 := by
          rw [toNat_ofNat, Nat.mod_eq_of_lt (by omega)]
        have nonzero : BitVec.ofNat 32 (cores - 1) ≠ 0 := by
          intro zero
          rw [zero] at value
          exact one value.symm
        have small := (Nat.log2_lt one).mpr (show cores - 1 < 2 ^ 16 by omega)
        rw [countLeadingZeros_eq nonzero, value]
        omega
  unfold coreNumberBits
  split <;> omega

lemma nodeNumberBits_le (cfg : NodeConfig) (few : cfg.cores ≤ 2 ^ 16) : cfg.nodeNumberBits ≤ 16 := by
  cases cfg with
  | processor type cores xLinks =>
    have bits : coreNumberBits type cores ≤ 16 := coreNumberBits_le type few
    unfold nodeNumberBits
    dsimp only
    omega
  | peripheral number xLink => exact Nat.zero_le 16

/-- The node after `finalize`. The directions of an XS1-G are fixed, the link of a peripheral node is always enabled. -/
def node (config : NodeConfig) (few : config.cores ≤ 2 ^ 16) : SwitchNode where
  type := match config with
    | .processor type _ _ => type
    | .peripheral _ _ => .xs1L
  xLinks := match config with
    | .processor _ _ xLinks => xLinks
    | .peripheral _ xLink => [{ xLink with enabled := true, fiveWire := true }]
  nodeNumberBits := config.nodeNumberBits
  directions := (List.range config.nodeNumberBits).map fun i =>
    match config with
    | .processor .xs1G _ _ => BitVec.ofNat 8 i
    | _ => 0
  nodeID := match config with
    | .processor _ _ _ => 0
    | .peripheral number _ => number
  scratchReg := 0
  clkDividerReg := 0
  narrow := config.nodeNumberBits_le few
  sized := by simp

end NodeConfig

/-- A write to a register of the switch of a node; one that is refused or goes wrong leaves the nodes. -/
def writeRegister (nodes : Nat → SwitchNode) (write : Nat × BitVec 16 × BitVec 32) : Nat → SwitchNode :=
  match (nodes write.1).write write.2.1.toNat write.2.2 with
  | .done written => Function.update nodes write.1 written
  | _ => nodes

section

open SwitchReg

variable {node written : SwitchNode}

lemma writeDirections_alike {off count : Nat} {value : BitVec 32}
    (wrote : node.writeDirections off value count = .done written) : node.Alike written := by
  induction count generalizing written with
  | zero =>
    cases wrote
    exact .refl node
  | succ count ih =>
    unfold writeDirections at wrote
    cases prior : node.writeDirections off value count with
    | done pre =>
      rw [prior] at wrote
      dsimp only at wrote
      by_cases inside : off + count < pre.directions.length
      · rw [if_pos inside] at wrote
        cases wrote
        exact ⟨(ih prior).type, (ih prior).bits, (ih prior).links⟩
      · rw [if_neg inside] at wrote
        cases wrote
    | refused => simp [prior] at wrote
    | outOfRange => simp [prior] at wrote
    | unexpectedRegister => simp [prior] at wrote

lemma write_alike {num : Nat} {value : BitVec 32} (wrote : node.write num value = .done written) :
    node.Alike written := by
  rw [node.write_registered value (node.registered_of_write wrote)] at wrote
  have link (i : Nat) (chg : XLink → XLink)
      (wrote : (node.withXLink i fun xLink => .done (node.setXLink i (chg xLink))) = .done written) :
      node.Alike written := by
    unfold withXLink at wrote
    cases found : node.xLinks[i]? with
    | none => simp [found] at wrote
    | some xLink =>
      rw [found] at wrote
      cases wrote
      exact node.setXLink_alike i
  by_cases dir : node.LinkDirection num
  · rw [if_pos dir] at wrote
    exact link _ _ wrote
  · rw [if_neg dir] at wrote
    by_cases state : node.LinkState num
    · rw [if_pos state] at wrote
      exact link _ _ wrote
    · rw [if_neg state] at wrote
      unfold writeOther at wrote
      split at wrote
      · exact writeDirections_alike wrote
      · split at wrote
        · cases wrote
          exact ⟨rfl, rfl, rfl⟩
        · split at wrote
          · cases wrote
            exact ⟨rfl, rfl, rfl⟩
          · split at wrote
            · cases wrote
              exact ⟨rfl, rfl, rfl⟩
            · cases wrote

lemma writeRegister_alike (nodes : Nat → SwitchNode) (write : Nat × BitVec 16 × BitVec 32) (n : Nat) :
    (nodes n).Alike (writeRegister nodes write n) := by
  unfold writeRegister
  cases wrote : (nodes write.1).write write.2.1.toNat write.2.2 with
  | done written =>
    by_cases here : n = write.1
    · subst here
      show (nodes write.1).Alike (update nodes write.1 written write.1)
      rw [update_self]
      exact write_alike wrote
    · show (nodes n).Alike (update nodes write.1 written n)
      rw [update_of_ne here]
      exact .refl _
  | refused => exact .refl _
  | outOfRange => exact .refl _
  | unexpectedRegister => exact .refl _

lemma writeRegister_run (nodes : Nat → SwitchNode) (writes : List (Nat × BitVec 16 × BitVec 32)) (n : Nat) :
    (writes.foldl writeRegister nodes n).nodeNumberBits = (nodes n).nodeNumberBits := by
  induction writes generalizing nodes with
  | nil => rfl
  | cons write writes ih =>
    rw [List.foldl_cons, ih]
    exact (writeRegister_alike nodes write n).bits

end

/-- In a system of nodes with as many cores as their bits can number, whatever has been written to the registers of
the switches, the lookup for a destination is in the table of the node exactly when the destination and the ID of the
node agree in all bits from the larger of the numbers of node bits and core bits on. -/
theorem lookups_in_range_iff (configs : Nat → NodeConfig) (few : ∀ n, (configs n).cores ≤ 2 ^ 16)
    (writes : List (Nat × BitVec 16 × BitVec 32)) (n : Nat) (dest : BitVec 16) :
    let node := writes.foldl writeRegister (fun n => (configs n).node (few n)) n
    let bits := max (configs n).nodeNumberBits (16 - (configs n).nodeNumberBits)
    node.LookupInRange dest ↔ dest.setWidth 32 >>> bits = node.nodeID >>> bits := by
  intro node bits
  have shape : node.nodeNumberBits = (configs n).nodeNumberBits := writeRegister_run _ writes n
  have exactly := node.lookupInRange_iff dest
  rw [getNonNodeNumberBits, shape] at exactly
  exact exactly

/-- Two cores, after a write to the register of the node ID. -/
theorem lookups_in_range_dualCore :
    ([(0, 5, 0x8000)].foldl writeRegister (fun _ => (NodeConfig.processor .xs1L 2 []).node (by decide)) 0).LookupInRange
      0x8002 :=
  (lookups_in_range_iff (fun _ => .processor .xs1L 2 []) (fun _ => by decide) [(0, 5, 0x8000)] 0 0x8002).mpr
    (by decide)

/-- An XS1-G with four cores has eight directions, and the lookup for the node next to it is for the ninth. -/
theorem lookup_behind_table : ¬((NodeConfig.processor .xs1G 4 []).node (by decide)).LookupInRange 0x100 := by
  decide

/-! ### The way of a packet -/

/-- The nodes of a system, whose links lead to nodes of the system. -/
structure NodeNetwork where
  count : Nat
  nodes : Nat → SwitchNode
  closed : ∀ n < count, ∀ xLink ∈ (nodes n).xLinks, ∀ other num, xLink.dest = some (other, num) → other < count

inductive Route where
  | arrived (n : Nat)
  | null
  /-- The direction is looked up outside the table. -/
  | outOfRange
  deriving DecidableEq, Repr

inductive ChanEndpoint where
  | switch (n : Nat)
  | chanend (n core num : Nat)
  deriving DecidableEq, Repr

inductive Lookup where
  | returned (dest : Option ChanEndpoint)
  | outOfRange
  /-- The assertion about the registers of a core fails. -/
  | unimplemented
  deriving DecidableEq, Repr

namespace NodeNetwork

variable (net : NodeNetwork) (dest : BitVec 16)

def linkedNode (xLink : Option XLink) : Option Nat :=
  xLink.bind fun xLink =>
    if isConnected net.nodes xLink then xLink.dest.map Prod.fst else none

def hop (n : Nat) : Hop Nat Route :=
  let node := net.nodes n
  match node.routeBit dest with
  | none => .stop (.arrived n)
  | some bit =>
    match node.directions[bit]? with
    | none => .stop .outOfRange
    | some dir =>
      match net.linkedNode (node.getXLinkForDirection dir) with
      | none => .stop .null
      | some next => .onward next

/-- The routing loop; `none` if it has not ended after the given number of rounds. -/
def route (rounds start : Nat) : Option Route :=
  CycleSearch.search (net.hop dest) .null (2 ^ 32) rounds (CycleSearch.initial start 8)

def lookup (getLocalChanendDest : Nat → BitVec 32 → Lookup) (n : Nat) (id : BitVec 32) : Lookup :=
  if ResourceID.isConfig id && ResourceID.num id == ResourceID.configSSCtrl then .returned (some (.switch n))
  else getLocalChanendDest n id

def getIncomingChanendDest (getLocalChanendDest : Nat → BitVec 32 → Lookup) (rounds start : Nat)
    (id : BitVec 32) : Option Lookup :=
  (net.route (ResourceID.node id) rounds start).map fun
    | .arrived n => lookup getLocalChanendDest n id
    | .null => .returned none
    | .outOfRange => .outOfRange

/-! ### The path of next hops -/

def path (start : Nat) : Nat → Option Nat := CycleSearch.path (net.hop dest) start

def FirstMatch (start n : Nat) : Prop :=
  ∃ i, net.path dest start i = some n ∧ (net.nodes n).Matches dest ∧
    ∀ j < i, ∀ m, net.path dest start j = some m → ¬(net.nodes m).Matches dest

/-- There is no link, or no connected one, in the direction of the destination. -/
def Blocked (n : Nat) : Prop :=
  ∃ bit dir, (net.nodes n).routeBit dest = some bit ∧ (net.nodes n).directions[bit]? = some dir ∧
    ∀ xLink, (net.nodes n).getXLinkForDirection dir = some xLink →
      isConnected net.nodes xLink = false

def Stranded (start : Nat) : Prop := ∃ i n, net.path dest start i = some n ∧ net.Blocked dest n

def Endless (start : Nat) : Prop := ∀ i, (net.path dest start i).isSome = true

lemma isConnected_dest {nodes : Nat → SwitchNode} {xLink : XLink}
    (conn : isConnected nodes xLink = true) : ∃ other num, xLink.dest = some (other, num) := by
  unfold isConnected at conn
  cases dest : xLink.dest with
  | none => simp [dest] at conn
  | some ends => exact ⟨ends.1, ends.2, rfl⟩

lemma linkedNode_eq_none_iff (xLink : Option XLink) : net.linkedNode xLink = none ↔
    ∀ link, xLink = some link → isConnected net.nodes link = false := by
  cases xLink with
  | none => simp [linkedNode]
  | some link =>
    cases conn : isConnected net.nodes link with
    | false => simp [linkedNode, conn]
    | true =>
      obtain ⟨other, num, dest⟩ := isConnected_dest conn
      simp [linkedNode, conn, dest]

lemma hop_arrived_iff (n m : Nat) :
    net.hop dest n = .stop (.arrived m) ↔ m = n ∧ (net.nodes n).Matches dest := by
  rw [← routeBit_eq_none_iff]
  unfold hop
  dsimp only
  cases (net.nodes n).routeBit dest with
  | none => simp [eq_comm]
  | some bit =>
    cases dir : (net.nodes n).directions[bit]? with
    | none => simp [dir]
    | some towards =>
      cases next : net.linkedNode ((net.nodes n).getXLinkForDirection towards) <;> simp [dir, next]

lemma hop_null_iff (n : Nat) : net.hop dest n = .stop .null ↔ net.Blocked dest n := by
  unfold hop Blocked
  dsimp only
  cases (net.nodes n).routeBit dest with
  | none => simp
  | some bit =>
    cases dir : (net.nodes n).directions[bit]? with
    | none => simp [dir]
    | some towards =>
      have blocked := net.linkedNode_eq_none_iff ((net.nodes n).getXLinkForDirection towards)
      cases next : net.linkedNode ((net.nodes n).getXLinkForDirection towards) with
      | none =>
        rw [next] at blocked
        simpa [dir, next] using blocked.mp rfl
      | some m =>
        rw [next] at blocked
        simpa [dir, next] using blocked

lemma hop_outOfRange {n : Nat} (inRange : (net.nodes n).LookupInRange dest) :
    net.hop dest n ≠ .stop .outOfRange := by
  unfold hop
  dsimp only
  cases bit : (net.nodes n).routeBit dest with
  | none => simp
  | some pos =>
    have isIn := inRange pos bit
    cases next : net.linkedNode ((net.nodes n).getXLinkForDirection ((net.nodes n).directions[pos])) <;>
      simp [List.getElem?_eq_getElem isIn, next]

lemma hop_outOfRange_of_not {n : Nat} (behind : ¬(net.nodes n).LookupInRange dest) :
    net.hop dest n = .stop .outOfRange := by
  unfold hop
  dsimp only
  cases bit : (net.nodes n).routeBit dest with
  | none =>
    have came : (net.nodes n).LookupInRange dest := by simp [LookupInRange, bit]
    exact absurd came behind
  | some pos =>
    have out : (net.nodes n).directions.length ≤ pos := by
      simpa [LookupInRange, bit] using behind
    simp [List.getElem?_eq_none out]

lemma route_of_stop {start : Nat} {res : Route} (stop : net.hop dest start = .stop res) (n : Nat) :
    net.route dest (n + 1) start = some res := by
  simp [route, CycleSearch.search, CycleSearch.round, CycleSearch.initial, stop]

lemma hop_onward {n next : Nat} (isIn : n < net.count) (onward : net.hop dest n = .onward next) :
    next < net.count := by
  unfold hop at onward
  cases bit : (net.nodes n).routeBit dest with
  | none => simp [bit] at onward
  | some pos =>
    cases dir : (net.nodes n).directions[pos]? with
    | none => simp [bit, dir] at onward
    | some towards =>
      cases found : (net.nodes n).getXLinkForDirection towards with
      | none => simp [bit, dir, found, linkedNode] at onward
      | some xLink =>
        have mem : xLink ∈ (net.nodes n).xLinks := List.mem_of_find?_eq_some found
        cases conn : isConnected net.nodes xLink with
        | false => simp [bit, dir, found, linkedNode, conn] at onward
        | true =>
          obtain ⟨other, num, ends⟩ := isConnected_dest conn
          have same : other = next := by
            simpa [bit, dir, found, linkedNode, conn, ends] using onward
          rw [← same]
          exact net.closed n isIn xLink mem other num ends

lemma path_lt {start : Nat} (isIn : start < net.count) (i n : Nat)
    (here : net.path dest start i = some n) : n < net.count := by
  induction i generalizing n with
  | zero =>
    cases here
    exact isIn
  | succ i ih =>
    obtain ⟨pre, there, step⟩ := Option.bind_eq_some_iff.mp here
    apply net.hop_onward dest (ih pre there)
    unfold CycleSearch.next at step
    cases hops : net.hop dest pre with
    | stop res => simp [hops] at step
    | onward next =>
      rw [hops] at step
      cases step
      rfl

lemma firstMatch_iff (start n : Nat) :
    net.FirstMatch dest start n ↔ CycleSearch.EndsWith (net.hop dest) start (.arrived n) := by
  constructor
  · rintro ⟨i, here, fit, -⟩
    exact ⟨i, n, here, (net.hop_arrived_iff dest n n).mpr ⟨rfl, fit⟩⟩
  · rintro ⟨i, place, here, stop⟩
    obtain ⟨rfl, fit⟩ := (net.hop_arrived_iff dest place n).mp stop
    refine ⟨i, here, fit, fun j pre m there prior => ?_⟩
    have ended := CycleSearch.path_succ_of_stop there ((net.hop_arrived_iff dest m m).mpr ⟨rfl, prior⟩)
    have none := CycleSearch.path_none_of_le ended pre
    rw [show CycleSearch.path (net.hop dest) start i = some n from here] at none
    cases none

lemma stranded_iff (start : Nat) :
    net.Stranded dest start ↔ CycleSearch.EndsWith (net.hop dest) start .null := by
  unfold Stranded CycleSearch.EndsWith
  simp only [net.hop_null_iff dest]
  rfl

/-- In every network of fewer than 2^30 nodes the routing loop ends. It returns the endpoint that is looked up at the
first node on the way whose number matches, if there is one, and null exactly when the way is blocked or has no end. -/
theorem getIncomingChanendDest_right (few : net.count < 2 ^ 30)
    (getLocalChanendDest : Nat → BitVec 32 → Lookup) {start : Nat} (inside : start < net.count)
    (id : BitVec 32) (inRange : ∀ n < net.count, (net.nodes n).LookupInRange (ResourceID.node id)) :
    ∃ rounds found, (∀ more, rounds ≤ more → net.getIncomingChanendDest getLocalChanendDest more start id =
          some (found.elim (.returned none) fun n => lookup getLocalChanendDest n id)) ∧
      (∀ n, found = some n ↔ net.FirstMatch (ResourceID.node id) start n) ∧
      (found = none ↔ net.Stranded (ResourceID.node id) start ∨ net.Endless (ResourceID.node id) start) := by
  have visited (i n : Nat) (here : CycleSearch.path (net.hop (ResourceID.node id)) start i = some n) :
      n ∈ Finset.range net.count := Finset.mem_range.mpr (net.path_lt _ inside i n here)
  obtain ⟨rounds, res, ends, right⟩ := CycleSearch.search_right (net.hop (ResourceID.node id)) Route.null start 3
    30 (Finset.range net.count) visited (by rw [Finset.card_range]; exact Nat.le_of_lt few) (by decide)
    (show 2 ^ (30 + 1) < 2 ^ 32 by decide)
  have tabled : res ≠ .outOfRange := by
    rw [Ne, right.eq_iff]
    rintro (⟨i, n, here, stop⟩ | ⟨isNull, -⟩)
    · exact net.hop_outOfRange _ (inRange n (net.path_lt _ inside i n here)) stop
    · cases isNull
  refine ⟨rounds, match res with | .arrived n => some n | _ => none, fun more le => ?_, fun n => ?_, ?_⟩
  · have left : net.route (ResourceID.node id) more start = some res := ends more le
    unfold getIncomingChanendDest
    rw [left]
    cases res with
    | arrived n => rfl
    | null => rfl
    | outOfRange => exact absurd rfl tabled
  · have arrived : res = .arrived n ↔ CycleSearch.EndsWith (net.hop (ResourceID.node id)) start (.arrived n) :=
      right.eq_iff.trans (or_iff_left fun isNull => nomatch isNull.1)
    rw [firstMatch_iff, ← arrived]
    cases res <;> simp
  · have lost : res = .null ↔ CycleSearch.EndsWith (net.hop (ResourceID.node id)) start .null ∨
        net.Endless (ResourceID.node id) start := right.eq_iff.trans (or_congr_right (and_iff_right rfl))
    rw [stranded_iff, ← lost]
    cases res with
    | arrived n => simp
    | null => simp
    | outOfRange => exact absurd rfl tabled

def ring : NodeNetwork where
  count := 2
  nodes n :=
    { (NodeConfig.processor .xs1L 1 [{ dest := some (1 - n, 0), enabled := true }]).node (Nat.le_add_left 1 _) with
      nodeID := BitVec.ofNat 32 n }
  closed := by
    intro n inside xLink member other num ends
    simp only [NodeConfig.node, List.mem_singleton] at member
    subst member
    cases ends
    omega

/-- A packet for a node that is not there goes round and round. -/
theorem getIncomingChanendDest_ring : ∃ rounds found, (∀ more, rounds ≤ more →
        ring.getIncomingChanendDest (fun _ _ => .returned none) more 0 0x80000002 =
          some (found.elim (.returned none) fun n => lookup (fun _ _ => .returned none) n 0x80000002)) ∧
      (∀ n, found = some n ↔ ring.FirstMatch (ResourceID.node 0x80000002) 0 n) ∧
      (found = none ↔ ring.Stranded (ResourceID.node 0x80000002) 0 ∨ ring.Endless (ResourceID.node 0x80000002) 0) :=
  ring.getIncomingChanendDest_right (by decide) (fun _ _ => .returned none) (by decide) 0x80000002 (by decide)

end NodeNetwork

end Axe
