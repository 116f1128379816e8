import Axe.Switch.Requests
import Axe.Switch.RoundTrips

/-! What a switch does with a request and what it answers. Requests come from every core of
every node, and later ones find the registers as the earlier ones left them. -/

namespace Axe

open Function

open SwitchReg

structure Served where
  nodes : Nat → SwitchNode
  ack : Bool
  value : BitVec 32 := 0
  /-- A register was read or written. -/
  performed : Bool

/-- The first part of `handleRequest`, by the switch of node `n`; `none` where the access ends in an assertion
or outside a table. A request whose return node is not the number of this node is acknowledged as it is. -/
def serve (nodes : Nat → SwitchNode) (n : Nat) (req : Request) : Option Served :=
  if (nodes n).nodeID ≠ req.returnNode.setWidth 32 then
    some { nodes := nodes, ack := true, performed := false }
  else if req.write then
    match (nodes n).write req.regNum.toNat req.data with
    | .done written => some { nodes := Function.update nodes n written, ack := true, performed := true }
    | .refused => some { nodes := nodes, ack := false, performed := false }
    | _ => none
  else
    match (nodes n).read nodes req.regNum.toNat with
    | .done val => some { nodes := nodes, ack := true, value := val, performed := true }
    | .refused => some { nodes := nodes, ack := false, performed := false }
    | _ => none

def Served.response (served : Served) (write : Bool) : List Token :=
  if served.ack then
    ⟨ctAck, true⟩ :: (if write then [] else dataTokens (System.wordBytes served.value)) ++ [⟨ctEnd, true⟩]
  else [⟨ctNack, true⟩, ⟨ctEnd, true⟩]

def serveNext (nodes : Nat → SwitchNode) (step : Nat × Request) : Nat → SwitchNode :=
  match serve nodes step.1 step.2 with
  | some served => served.nodes
  | none => nodes

section

variable (nodes : Nat → SwitchNode)

/-- The response starts with ACK exactly when an access was made, and to a read it brings the value of the register. -/
def AnsweredRight (n : Nat) (req : Request) : Prop :=
  ∃ served, serve nodes n req = some served ∧
    ((served.response req.write).head? = some ⟨ctAck, true⟩ ↔ served.performed = true) ∧
    (req.write = false → (served.response req.write).head? = some ⟨ctAck, true⟩ →
      ∃ val, (nodes n).read nodes req.regNum.toNat = .done val ∧
        served.response req.write = ⟨ctAck, true⟩ :: dataTokens (System.wordBytes val) ++ [⟨ctEnd, true⟩])

def Acknowledged (n : Nat) (req : Request) : Prop :=
  ∃ served, serve nodes n req = some served ∧ (served.response req.write).head? = some ⟨ctAck, true⟩

/-- The read gives what was written last, in the bits that the register implements. -/
def ReadsBack (n : Nat) (read : Request) (implemented written : BitVec 32) : Prop :=
  ∃ served val, serve nodes n read = some served ∧
    served.response false = ⟨ctAck, true⟩ :: dataTokens (System.wordBytes val) ++ [⟨ctEnd, true⟩] ∧
    val &&& ~~~(nodes n).status read.regNum.toNat = written &&& implemented

def Unwritten (n : Nat) (regNum : BitVec 16) (requests : List (Nat × Request)) : Prop :=
  ∀ step ∈ requests, step.1 = n → step.2.regNum = regNum → step.2.write = false

/-- All requests are answered right, and what was written with an ACK is read until the next write. -/
structure Answered (requests : List (Nat × Request)) : Prop where
  right : ∀ passed n req, passed ++ [(n, req)] <+: requests →
    AnsweredRight (passed.foldl serveNext nodes) n req
  kept : ∀ passed n write between read, passed ++ (n, write) :: between ++ [(n, read)] <+: requests →
    write.write = true → Acknowledged (passed.foldl serveNext nodes) n write →
    read.write = false → read.regNum = write.regNum → Unwritten n write.regNum between →
    ReadsBack ((passed ++ (n, write) :: between).foldl serveNext nodes) n read
      ((passed.foldl serveNext nodes n).implemented write.regNum.toNat) write.data

/-- The requests that are handled as they should: they come from the core that has the number of the node, they do not
address the place behind the table, they read what can be read and set no token delay. -/
def Admitted (step : Nat × Request) : Prop :=
  (nodes step.1).nodeID = step.2.returnNode.setWidth 32 ∧
    step.2.regNum.toNat ≠ (nodes step.1).numRegs ∧
    (step.2.write = false →
      step.2.regNum.toNat ≠ clkDivider ∧ ¬(nodes step.1).LinkDirection step.2.regNum.toNat) ∧
    (step.2.write = true → (nodes step.1).LinkState step.2.regNum.toNat →
      step.2.data &&& (nodes step.1).tokenDelayField = 0)

end

/-! ### What is answered -/

lemma Served.response_head (served : Served) (write : Bool) :
    (served.response write).head? = some ⟨ctAck, true⟩ ↔ served.ack = true := by
  unfold response
  cases served.ack with
  | true => simp
  | false => simp [ctAck, ctNack]

section

variable {nodes : Nat → SwitchNode} {n : Nat} {req : Request}

section

variable (own : (nodes n).nodeID = req.returnNode.setWidth 32)
include own

lemma serve_refused
    (missing : ¬(nodes n).Registered req.regNum.toNat) (isIn : req.regNum.toNat ≠ (nodes n).numRegs) :
    serve nodes n req = some { nodes := nodes, ack := false, performed := false } := by
  unfold serve SwitchNode.write SwitchNode.read
  rw [if_neg (not_not_intro own), (nodes n).checkRights_of_not_registered _ _ missing isIn,
    (nodes n).checkRights_of_not_registered _ _ missing isIn]
  exact ite_self _

lemma serve_write (isWrite : req.write = true)
    {wr : SwitchNode} (wrote : (nodes n).write req.regNum.toNat req.data = .done wr) :
    serve nodes n req = some { nodes := update nodes n wr, ack := true, performed := true } := by
  unfold serve
  rw [if_neg (not_not_intro own), if_pos isWrite, wrote]

lemma serve_read (isRead : req.write = false)
    {val : BitVec 32} (res : (nodes n).read nodes req.regNum.toNat = .done val) :
    serve nodes n req = some { nodes := nodes, ack := true, value := val, performed := true } := by
  unfold serve
  rw [if_neg (not_not_intro own), if_neg (by rw [isRead]; decide), res]

end

lemma Admitted.answeredRight (admitted : Admitted nodes (n, req)) : AnsweredRight nodes n req := by
  obtain ⟨own, isIn, canRead, -⟩ := admitted
  by_cases registered : (nodes n).Registered req.regNum.toNat
  · cases isWrite : req.write with
    | true =>
      obtain ⟨wr, wrote, -⟩ := (nodes n).write_rewrites registered req.data
      refine ⟨_, serve_write own isWrite wrote, ?_, fun isRead => ?_⟩
      · rw [Served.response_head]
      · rw [isWrite] at isRead
        cases isRead
    | false =>
      obtain ⟨val, res⟩ := (nodes n).read_done nodes ⟨registered, canRead isWrite⟩
      refine ⟨_, serve_read own isWrite res, ?_, fun _ _ => ⟨val, res, ?_⟩⟩
      · rw [Served.response_head]
      · rw [isWrite]
        rfl
  · refine ⟨_, serve_refused own registered isIn, ?_, fun _ acked => ?_⟩
    · rw [Served.response_head]
    · rw [Served.response_head] at acked
      cases acked

/-! ### What is kept -/

variable (nodes) in
lemma serveNext_cases (step : Nat × Request) : serveNext nodes step = nodes ∨
      step.2.write = true ∧ ∃ wr, (nodes step.1).write step.2.regNum.toNat step.2.data = .done wr ∧
        serveNext nodes step = update nodes step.1 wr := by
  obtain ⟨n, req⟩ := step
  unfold serveNext serve
  by_cases own : (nodes n).nodeID = req.returnNode.setWidth 32
  · rw [if_neg (not_not_intro own)]
    cases isWrite : req.write with
    | true =>
      rw [if_pos rfl]
      cases wrote : (nodes n).write req.regNum.toNat req.data with
      | done wr => exact .inr ⟨rfl, wr, rfl, rfl⟩
      | refused => exact .inl rfl
      | outOfRange => exact .inl rfl
      | unexpectedRegister => exact .inl rfl
    | false =>
      rw [if_neg Bool.false_ne_true]
      cases (nodes n).read nodes req.regNum.toNat <;> exact .inl rfl
  · rw [if_pos own]
    exact .inl rfl

lemma serveNext_readable (step : Nat × Request) (num : Nat)
    (unwritten : step.1 = n → step.2.regNum.toNat = num → step.2.write = false) :
    (serveNext nodes step n).readable (serveNext nodes step) num = (nodes n).readable nodes num := by
  obtain same | ⟨isWrite, wr, wrote, chg⟩ := serveNext_cases nodes step
  · rw [same]
  · rw [chg]
    by_cases here : n = step.1
    · subst here
      have other : num ≠ step.2.regNum.toNat := by
        intro same
        have isRead := unwritten rfl same.symm
        rw [isWrite] at isRead
        cases isRead
      obtain ⟨wr', wrote', rewrites⟩ :=
        (nodes step.1).write_rewrites ((nodes step.1).registered_of_write wrote) step.2.data
      obtain rfl : wr = wr' := by
        rw [wrote] at wrote'
        exact Access.done.inj wrote'
      rw [update_self]
      exact rewrites.others _ _ num other
    · rw [update_of_ne here]
      exact (nodes n).readable_nodes _ _ num

variable (nodes) in
lemma readable_run {regNum : BitVec 16} {requests : List (Nat × Request)} (unwritten : Unwritten n regNum requests) :
    (requests.foldl serveNext nodes n).readable (requests.foldl serveNext nodes) regNum.toNat =
      (nodes n).readable nodes regNum.toNat := by
  induction requests generalizing nodes with
  | nil => rfl
  | cons step requests ih =>
    rw [List.foldl_cons, ih _ fun other mem => unwritten other (List.mem_cons_of_mem _ mem)]
    refine serveNext_readable step regNum.toNat fun here same => ?_
    exact unwritten step List.mem_cons_self here (BitVec.eq_of_toNat_eq same)

lemma Admitted.readsBack {write read : Request} {between : List (Nat × Request)}
    (wr : Admitted nodes (n, write)) (isWrite : write.write = true) (acked : Acknowledged nodes n write)
    (unwritten : Unwritten n write.regNum between) (isRead : read.write = false) (sameReg : read.regNum = write.regNum)
    (reading : Admitted (((n, write) :: between).foldl serveNext nodes) (n, read)) :
    ReadsBack (((n, write) :: between).foldl serveNext nodes) n read
      ((nodes n).implemented write.regNum.toNat) write.data := by
  obtain ⟨own, isIn, -, noDelay⟩ := wr
  have registered : (nodes n).Registered write.regNum.toNat := by
    by_cases registered : (nodes n).Registered write.regNum.toNat
    · exact registered
    · obtain ⟨served, res, ack⟩ := acked
      rw [serve_refused own registered isIn] at res
      cases res
      rw [Served.response_head] at ack
      cases ack
  obtain ⟨node, wrote, rewrites⟩ := (nodes n).write_rewrites registered write.data
  have put : serveNext nodes (n, write) = update nodes n node := by
    unfold serveNext
    rw [serve_write own isWrite wrote]
  have still := readable_run (serveNext nodes (n, write)) unwritten
  rw [put, update_self, rewrites.own, ← put] at still
  rw [List.foldl_cons] at reading ⊢
  generalize between.foldl serveNext (serveNext nodes (n, write)) = after at still reading ⊢
  obtain ⟨ownRead, insideRead, canRead, -⟩ := reading
  rw [← sameReg] at still noDelay ⊢
  by_cases found : (after n).Registered read.regNum.toNat
  · obtain ⟨val, res⟩ := (after n).read_done after ⟨found, canRead isRead⟩
    refine ⟨_, val, serve_read ownRead isRead res, rfl, ?_⟩
    unfold SwitchNode.readable at still
    rw [res] at still
    -- The register can be read, so it was neither the divider nor a direction of a link.
    have whole : (nodes n).readBack read.regNum.toNat write.data =
        .done (write.data &&& (nodes n).implemented read.regNum.toNat) := by
      rw [SwitchNode.readBack_eq_iff]
      unfold SwitchNode.readBack at still
      split at still
      · cases still
      · rename_i odd
        exact ⟨(not_or.mp odd).1, (not_or.mp odd).2, noDelay isWrite⟩
    rw [whole] at still
    exact Access.done.inj still
  · unfold SwitchNode.readable SwitchNode.read at still
    rw [(after n).checkRights_of_not_registered _ _ found insideRead] at still
    unfold SwitchNode.readBack at still
    split at still
    · cases still
    · split at still <;> cases still

end

/-- A run of requests that come from the core with the number of the node is answered right throughout. -/
theorem answered_of_admitted (nodes : Nat → SwitchNode) (requests : List (Nat × Request))
    (admitted : Runs.Meets serveNext Admitted nodes requests) : Answered nodes requests := by
  constructor
  · rintro passed n req ⟨rest, rfl⟩
    rw [List.append_assoc, Runs.meets_append] at admitted
    exact admitted.2.1.answeredRight
  · rintro passed n write between read ⟨rest, rfl⟩ isWrite acked isRead sameReg unwritten
    rw [List.append_assoc, Runs.meets_append, Runs.meets_append, List.foldl_append] at admitted
    obtain ⟨⟨-, writing, -⟩, reading, -⟩ := admitted
    rw [List.foldl_append]
    exact writing.readsBack isWrite acked unwritten isRead sameReg reading

/-- A core of the node itself enables a link and reads back what it wrote. -/
theorem answered_enable : let requests := [(0, ⟨true, 0, 0, 0x80, 0xc0000000⟩), (0, ⟨false, 0, 0, 0x80, 0⟩)]
    Answered (fun _ => SwitchNode.linked) requests := by
  intro requests
  apply answered_of_admitted
  have writing : Admitted (fun _ => SwitchNode.linked) (0, ⟨true, 0, 0, 0x80, 0xc0000000⟩) :=
    ⟨rfl, by decide, nofun, fun _ _ => by decide⟩
  have reading : Admitted (serveNext (fun _ => SwitchNode.linked) (0, ⟨true, 0, 0, 0x80, 0xc0000000⟩))
      (0, ⟨false, 0, 0, 0x80, 0⟩) :=
    ⟨by decide, by decide, fun _ => by decide, nofun⟩
  exact ⟨writing, reading, trivial⟩

def quadCore : SwitchNode where
  type := .xs1G
  xLinks := []
  nodeNumberBits := 8
  directions := [0, 1, 2, 3, 4, 5, 6, 7]
  nodeID := 0
  scratchReg := 0
  clkDividerReg := 0
  narrow := by decide
  sized := rfl

/-- The second core writes the scratch register; the request is acknowledged, but nothing is written. -/
theorem acknowledged_unperformed : ¬Answered (fun _ => quadCore) [(0, ⟨true, 1, 0, 3, 0x1234⟩)] := by
  intro answered
  obtain ⟨served, res, acked, -⟩ := answered.right [] 0 _ (List.prefix_refl _)
  cases res
  exact Bool.false_ne_true (acked.mp rfl)

end Axe
