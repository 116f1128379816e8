import Axe.Switch.NodeIDs

/-! When a switch can answer. The response is placed while the request is still being received, so the
channel end it goes to has to be free and to have room for all of it. -/

namespace Axe

open SwitchReg
open PacketNetwork (Network)

def AccessSafe (nodes : Nat → SwitchNode) (n : Nat) (req : Request) : Prop :=
  (nodes n).nodeID = req.returnNode.setWidth 32 →
    req.regNum.toNat ≠ (nodes n).numRegs ∧
      (req.write = false →
        req.regNum.toNat ≠ clkDivider ∧ ¬(nodes n).LinkDirection req.regNum.toNat)

/-- A read that is acknowledged brings a word, all other responses are two tokens long. -/
def responseLength (nodes : Nat → SwitchNode) (n : Nat) (req : Request) : Nat :=
  if req.write = false ∧
      ((nodes n).nodeID ≠ req.returnNode.setWidth 32 ∨ (nodes n).Registered req.regNum.toNat) then 6
  else 2

section

variable {nodes : Nat → SwitchNode} {n : Nat} {req : Request}

lemma response_length (served : Served) (write : Bool) :
    (served.response write).length = if write = false ∧ served.ack = true then 6 else 2 := by
  unfold Served.response
  cases served.ack <;> cases write <;> simp [dataTokens, System.wordBytes]

variable (nodes n req) in
/-- A request is served exactly when its access is safe, and then the length of the response is known beforehand. -/
lemma serve_spec : (AccessSafe nodes n req ∧ ∃ served, serve nodes n req = some served ∧
      (served.response req.write).length = responseLength nodes n req) ∨
    (¬AccessSafe nodes n req ∧ serve nodes n req = none) := by
  unfold AccessSafe responseLength
  by_cases own : (nodes n).nodeID = req.returnNode.setWidth 32
  · simp only [own, true_imp_iff, ne_eq, not_true_eq_false, false_or]
    by_cases behind : req.regNum.toNat = (nodes n).numRegs
    · refine .inr ⟨fun safe => safe.1 behind, ?_⟩
      unfold serve SwitchNode.write SwitchNode.read
      rw [if_neg (not_not_intro own), behind, (nodes n).checkRights_numRegs, (nodes n).checkRights_numRegs]
      exact ite_self _
    · by_cases registered : (nodes n).Registered req.regNum.toNat
      · cases isWrite : req.write with
        | true =>
          obtain ⟨written, wrote, -⟩ := (nodes n).write_rewrites registered req.data
          refine .inl ⟨⟨behind, nofun⟩, _, serve_write own isWrite wrote, ?_⟩
          rw [response_length]
          simp
        | false =>
          by_cases odd : req.regNum.toNat = clkDivider ∨ (nodes n).LinkDirection req.regNum.toNat
          · refine .inr ⟨fun safe => ?_, ?_⟩
            · obtain ⟨notDivider, noDir⟩ := safe.2 rfl
              exact odd.elim notDivider noDir
            · unfold serve
              rw [if_neg (not_not_intro own), if_neg (by rw [isWrite]; decide),
                (nodes n).read_unexpected nodes registered odd]
          · obtain ⟨value, res⟩ := (nodes n).read_done nodes ⟨registered, not_or.mp odd⟩
            refine .inl ⟨⟨behind, fun _ => not_or.mp odd⟩, _, serve_read own isWrite res, ?_⟩
            rw [response_length]
            simp [registered]
      · refine .inl ⟨⟨behind, fun _ => ⟨fun is => ?_, fun isDirection => ?_⟩⟩, _,
          serve_refused own registered behind, ?_⟩
        · exact registered (.inr (.inl is))
        · exact registered (.inr (.inr (.inr (.inr (.inl isDirection)))))
        · rw [response_length]
          simp [registered]
  · refine .inl ⟨fun same => absurd same own, { nodes := nodes, ack := true, performed := false }, ?_, ?_⟩
    · unfold serve
      rw [if_pos own]
    · rw [response_length]
      simp [own]

end

namespace SwitchedSystem

variable (topo : Topology) (st : SwitchedSystem)

def advance (st : Option SwitchedSystem) (call : ChanCall) : Option SwitchedSystem :=
  st.bind (·.execute topo call)

lemma advance_none (calls : List ChanCall) : calls.foldl (advance topo) none = none := by
  induction calls with
  | nil => rfl
  | cons call calls ih => exact ih

variable {topo st} in
lemma Valid.run {post : SwitchedSystem} (valid : st.Valid topo) {calls : List ChanCall}
    (reach : calls.foldl (advance topo) (some st) = some post) : post.Valid topo := by
  induction calls generalizing st with
  | nil =>
    obtain rfl := Option.some.inj reach
    exact valid
  | cons call calls ih =>
    rw [List.foldl_cons, advance, Option.bind_some] at reach
    cases ran : st.execute topo call with
    | none =>
      rw [ran, advance_none] at reach
      cases reach
    | some next =>
      rw [ran] at reach
      exact ih (valid.execute ran) reach

variable (n : Nat) (req : Request)

def returnEnd : Option Nat :=
  topo.getOutgoingChanendDest (serveNext st.nodes (n, req)) n
    (chanendID req.returnNum req.returnNode)

/-- The request is handled without a failed assertion, no buffer gets too long, and the whole response is in the buffer
of the return channel end if there is one in use. -/
def HandlesRequest (time : Nat) : Prop :=
  ∃ post, st.handleRequest topo n time req = some post ∧
    (∀ c, (post.sys.chanends c).buf.length ≤ chanendBufferSize) ∧
    ∀ d, st.returnEnd topo n req = some d → (st.sys.chanends d).inUse = true →
      ∃ served, serve st.nodes n req = some served ∧
        (post.sys.chanends d).buf = (st.sys.chanends d).buf ++ served.response req.write

structure CanRespond : Prop where
  access : AccessSafe st.nodes n req
  free : ∀ d, st.returnEnd topo n req = some d → (st.sys.chanends d).inUse = true →
    ∀ other, (st.sys.chanends d).source = some other → other = topo.switchEnd n
  room : ∀ d, st.returnEnd topo n req = some d → (st.sys.chanends d).inUse = true →
    (st.sys.chanends d).buf.length + responseLength st.nodes n req ≤ chanendBufferSize

variable {n req} in
lemma handleRequest_of_served {served : Served} (res : serve st.nodes n req = some served) (time : Nat) :
    st.handleRequest topo n time req =
      (st.sys.respond (topo.switchEnd n) (st.returnEnd topo n req) time
        (served.response req.write)).map fun sys => { st with sys := sys, nodes := served.nodes } := by
  unfold handleRequest returnEnd serveNext
  rw [res]
  dsimp only
  generalize st.sys.respond .. = responded
  cases responded <;> rfl

lemma buf_of_answered {sys post : System} {d : Nat} {response : List Token}
    (answered : post.network = sys.network.answer d response) (c : Nat) :
    (post.chanends c).buf = if c = d then (sys.chanends c).buf ++ response else (sys.chanends c).buf := by
  have view : (post.chanends c).buf = (post.network c).buf := rfl
  rw [view, answered, Network.answer, Network.change_apply]
  split
  · rename_i here
    rw [here]
    rfl
  · rfl

variable {topo st n req}

lemma Valid.handlesRequest_iff (valid : st.Valid topo) (time : Nat) :
    st.HandlesRequest topo n req time ↔ st.CanRespond topo n req := by
  obtain ⟨safe, served, res, len⟩ | ⟨notSafe, res⟩ := serve_spec st.nodes n req
  · obtain ⟨body, isResponse, plain⟩ := served.response_eq req.write
    have responds := st.sys.respond_result (topo.switchEnd n) time (st.returnEnd topo n req) _
      isResponse plain
    unfold HandlesRequest
    rw [handleRequest_of_served topo st res]
    generalize st.sys.respond (topo.switchEnd n) (st.returnEnd topo n req) time
      (served.response req.write) = responded at responds
    have unused {d : Nat} (refuses : (st.sys.chanends d).junkIncoming = true) :
        (st.sys.chanends d).inUse = false := by simpa [refuses] using valid.sys.agrees d
    have used {d : Nat} (acc : (st.sys.chanends d).junkIncoming = false) :
        (st.sys.chanends d).inUse = true := by simpa [acc] using valid.sys.agrees d
    cases responds with
    | unreachable nowhere =>
      refine iff_of_true ⟨_, rfl, valid.sys.network.bounded, ?_⟩ ⟨safe, ?_, ?_⟩ <;>
        · rw [nowhere]
          nofun
    | junked d isDest refuses =>
      have never {e : Nat} (toE : st.returnEnd topo n req = some e) :
          (st.sys.chanends e).inUse = false := by
        rw [isDest] at toE
        exact Option.some.inj toE ▸ unused refuses
      refine iff_of_true ⟨_, rfl, valid.sys.network.bounded, fun e toE inUse => ?_⟩
        ⟨safe, fun e toE inUse => ?_, fun e toE inUse => ?_⟩ <;>
        · rw [never toE] at inUse
          cases inUse
    | claimed d other isDest acc source ne =>
      refine iff_of_false nofun fun can => ?_
      exact ne (can.free d isDest (used acc) other source)
    | full d isDest acc free noRoom =>
      refine iff_of_false nofun fun can => ?_
      have room := can.room d isDest (used acc)
      omega
    | sent d post isDest acc free room answered settings =>
      have onlyEnd {e : Nat} (toE : st.returnEnd topo n req = some e) : e = d := by
        rw [isDest] at toE
        exact (Option.some.inj toE).symm
      have buf := buf_of_answered answered
      refine iff_of_true ⟨_, rfl, fun c => ?_, fun e toE _ => ⟨served, res, ?_⟩⟩
        ⟨safe, fun e toE _ => ?_, fun e toE _ => ?_⟩
      · dsimp only
        rw [buf]
        split
        · rename_i here
          rw [here, List.length_append]
          exact room
        · exact valid.sys.network.bounded c
      · dsimp only
        rw [buf, if_pos (onlyEnd toE)]
      · rw [onlyEnd toE]
        exact free
      · rw [onlyEnd toE, ← len]
        exact room
  · refine iff_of_false ?_ fun can => notSafe can.access
    rintro ⟨post, handled, -⟩
    unfold handleRequest at handled
    rw [res] at handled
    cases handled

/-- In every state that a run of instructions reaches, a request is handled as it should be exactly when its access is
safe and the return channel end is free and has room. -/
theorem handlesRequest_iff_canRespond (topo : Topology) (st : SwitchedSystem) (initial : st.Initial topo)
    (calls : List ChanCall) (post : SwitchedSystem)
    (reach : calls.foldl (advance topo) (some st) = some post) (n time : Nat) (req : Request) :
    post.HandlesRequest topo n req time ↔ post.CanRespond topo n req :=
  (initial.valid.run reach).handlesRequest_iff time

/-- The channel ends keep their protocol among switches that answer while a request is still being received: a route is
held by one source, leads to a channel end in use and never starts at a switch, and no buffer gets too long. -/
theorem routes_exclusive (topo : Topology) (st : SwitchedSystem) (initial : st.Initial topo) (calls : List ChanCall)
    (post : SwitchedSystem) (reach : calls.foldl (advance topo) (some st) = some post) :
    (∀ s d, post.sys.HasRoute s d → topo.switchOf s = none ∧ (post.sys.chanends d).inUse = true ∧
      ∀ other, post.sys.HasRoute other d → other = s) ∧
    ∀ c, (post.sys.chanends c).buf.length ≤ chanendBufferSize := by
  have valid := initial.valid.run reach
  have owner {s d : Nat} (route : post.sys.HasRoute s d) : (post.sys.chanends d).source = some s := by
    obtain ⟨e, dest, source⟩ := valid.sys.network.owns s route.1 route.2.1
    obtain rfl := Option.some.inj (route.2.2.symm.trans dest)
    exact source
  refine ⟨fun s d route => ⟨?_, ?_, fun other also => ?_⟩, valid.sys.network.bounded⟩
  · cases isSwitch : topo.switchOf s with
    | none => rfl
    | some n =>
      have idle := valid.idle n
      rw [← topo.switchOf_eq_some.mp isSwitch, route.1] at idle
      cases idle
  · have accepting := valid.sys.network.claimed d (Option.isSome_of_eq_some (owner route))
    simpa [System.network, Chanend.endpoint, valid.sys.agrees d] using accepting
  · exact Option.some.inj ((owner also).symm.trans (owner route))

/-! ### A small system -/

/-- A node with two cores; all threads are on the first. -/
def dualCoreEnds : Topology := NodeSystem.dualCore.topology (fun _ => (0, 0)) 2

def start : SwitchedSystem where
  sys := { System.initial with chanends := fun c => if c % 2 = 1 then { inUse := true, junkIncoming := false } else {} }
  nodes n := (NodeSystem.dualCore.nodes n).switch
  receivers _ := {}

lemma start_initial : start.Initial dualCoreEnds := by
  refine ⟨fun c isEnd => ?_, fun n => ?_, fun _ => rfl⟩
  · have even : ¬c % 2 = 1 := by
      intro odd
      simp [dualCoreEnds, NodeSystem.topology, odd] at isEnd
    simp [start, even]
  · have odd : (2 * n + 1) % 2 = 1 := by omega
    simp [start, dualCoreEnds, NodeSystem.topology, ChanEndpoint.number, odd]

/-- A channel end is allocated, and the number of the node is read for it. -/
theorem handlesRequest_allocated :
    ∃ post, [(⟨0, 0, .alloc⟩ : ChanCall)].foldl (advance dualCoreEnds) (some start) = some post ∧
      post.HandlesRequest dualCoreEnds 0 ⟨false, 0, 0, 5, 0⟩ 0 := by
  refine ⟨_, rfl, (handlesRequest_iff_canRespond dualCoreEnds start start_initial [⟨0, 0, .alloc⟩] _ rfl 0 0 _).mpr ?_⟩
  refine ⟨fun _ => ⟨by decide, fun _ => by decide⟩, fun d toD _ => ?_, fun d toD _ => ?_⟩
  · obtain rfl := Option.some.inj toD
    nofun
  · obtain rfl := Option.some.inj toD
    decide

/-- The number of the node is read for a channel end, which has the answer in its buffer when another channel end
begins a packet to it. -/
def packetBegun : List ChanCall :=
  [⟨0, 0, .alloc⟩, ⟨0, 0, .setd 0xc30c⟩, ⟨0, 0, .outct ctReadc⟩, ⟨0, 0, .out 0⟩, ⟨0, 0, .outt 5⟩, ⟨0, 0, .outct ctEnd⟩,
    ⟨1, 2, .alloc⟩, ⟨1, 2, .setd (chanendID 0 0)⟩, ⟨1, 2, .outt 7⟩]

theorem routes_exclusive_packetBegun : ∃ post, packetBegun.foldl (advance dualCoreEnds) (some start) = some post ∧
    (post.sys.chanends 0).buf.length = 7 ∧
    post.sys.HasRoute 2 0 ∧ ∀ other, post.sys.HasRoute other 0 → other = 2 := by
  refine ⟨_, rfl, rfl, ⟨rfl, rfl, rfl⟩, ?_⟩
  exact ((routes_exclusive dualCoreEnds start start_initial packetBegun _ rfl).1 2 0 ⟨rfl, rfl, rfl⟩).2.2

/-- Another channel end has begun a packet to the one that the response goes to. -/
theorem response_to_claimed :
    ∃ post, [(⟨0, 0, .alloc⟩ : ChanCall), ⟨1, 2, .alloc⟩, ⟨1, 2, .setd (chanendID 0 0)⟩, ⟨1, 2, .outt 7⟩].foldl
        (advance dualCoreEnds) (some start) = some post ∧
      ¬post.HandlesRequest dualCoreEnds 0 ⟨false, 0, 0, 5, 0⟩ 0 := by
  refine ⟨_, rfl, ?_⟩
  rintro ⟨handled, res, -⟩
  have failed : none = some handled := res
  cases failed

end SwitchedSystem

end Axe
