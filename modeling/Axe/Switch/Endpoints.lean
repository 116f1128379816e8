import Axe.Channel.Delivery
import Axe.Switch.Responses

/-! Switches among the channel ends. A switch is an endpoint that is claimed like a channel
end; it takes every token at once, and an END token makes it send a response before the
instruction that sent the token is done. -/

namespace Axe

open List

def chanendID (num : BitVec 8) (node : BitVec 16) : BitVec 32 := node ++ num ++ (2 : BitVec 8)

/-- How endpoints are numbered and found. The routes depend on the registers of the switches; a response goes to a
channel end, as it is the ID of one that is looked up. -/
structure Topology where
  getChanendDest : (Nat → SwitchNode) → System.Routing
  getOutgoingChanendDest : (Nat → SwitchNode) → Nat → BitVec 32 → Option Nat
  /-- The switch of a node as an endpoint. -/
  switchEnd : Nat → Nat
  /-- The node whose switch an endpoint is. -/
  switchOf : Nat → Option Nat
  switchOf_eq_some : ∀ {e n}, switchOf e = some n ↔ e = switchEnd n
  to_chanend : ∀ {nodes n num node d}, getOutgoingChanendDest nodes n (chanendID num node) = some d → switchOf d = none

structure SwitchedSystem where
  sys : System
  nodes : Nat → SwitchNode
  receivers : Nat → Receiver

namespace System

def receiveToken (d time : Nat) (sys : System) (token : Token) : System :=
  if token.control then sys.receiveCtrlToken d time token.value else sys.receiveDataTokens d time [token.value]

/-- The second part of `handleRequest`; `none` stands for its two assertions. -/
def respond (sys : System) (switch : Nat) (dest : Option Nat) (time : Nat) (response : List Token) : Option System :=
  match dest with
  | none => some sys
  | some d =>
    match sys.claim d switch with
    | (sys, .junked) => some sys
    | (_, .queued) => none
    | (sys, .opened) =>
      if chanendBufferSize < (sys.chanends d).buf.length + response.length then none
      else some (response.foldl (receiveToken d time) sys)

end System

def ChanOp.delivered : ChanOp → Option Delivered
  | .outt val => some (.dataToken val)
  | .out val => some (.dataTokens (System.wordBytes val))
  | .outct val => some (.ctrlToken val)
  | _ => none

def Delivered.closes : Delivered → Bool
  | .ctrlToken val => endsPacket val
  | _ => false

namespace SwitchedSystem

variable (topo : Topology) (st : SwitchedSystem)

def handleRequest (n time : Nat) (req : Request) : Option SwitchedSystem :=
  match serve st.nodes n req with
  | none => none
  | some served =>
    let dest := topo.getOutgoingChanendDest served.nodes n (chanendID req.returnNum req.returnNode)
    match st.sys.respond (topo.switchEnd n) dest time (served.response req.write) with
    | none => none
    | some sys => some { st with sys := sys, nodes := served.nodes }

def setReceiver (n : Nat) (rcv : Receiver) : SwitchedSystem :=
  { st with receivers := Function.update st.receivers n rcv }

def release (n time : Nat) : SwitchedSystem :=
  { st with sys := st.sys.release (topo.switchEnd n) time }

/-- The switch of node `n` takes tokens; when an END comes the request is handled first. -/
def receive (n time : Nat) (toks : Delivered) : Option SwitchedSystem :=
  let rcv := st.receivers n
  let taken (st : SwitchedSystem) := st.setReceiver n (rcv.receive toks)
  if toks = .ctrlToken ctEnd then
    match rcv.request with
    | none => some ((taken st).release topo n time)
    | some req =>
      (st.handleRequest topo n time req).map fun st => (taken st).release topo n time
  else if toks = .ctrlToken ctPause then some ((taken st).release topo n time)
  else some (taken st)

def arrives (call : ChanCall) : Option (Nat × Delivered) :=
  let (sys, opened) := st.sys.openRoute (topo.getChanendDest st.nodes) call.chanend
  let ch := sys.chanends call.chanend
  match call.op.delivered, ch.dest.bind topo.switchOf with
  | some toks, some n => if ch.inUse && opened && !ch.junkPacket then some (n, toks) else none
  | _, _ => none

def deliver (call : ChanCall) (n : Nat) (toks : Delivered) : Option SwitchedSystem :=
  let running := { st.sys with currentRunnable := some call.thread }
  let sys := (running.openRoute (topo.getChanendDest st.nodes) call.chanend).1
  let received := { st with sys := sys }.receive topo n (sys.threads call.thread).time toks
  received.map fun st =>
    let sys :=
      if toks.closes then
        st.sys.updateChanend call.chanend fun ch => { ch with inPacket := false, dest := none }
      else st.sys
    { st with sys := sys.finish call.thread (.chanend call.chanend) true (.continued 0) }

/-- A thread executes an instruction on a channel end; `none` once an assertion has failed. -/
def execute (call : ChanCall) : Option SwitchedSystem :=
  if (topo.switchOf call.chanend).isSome then some st
  else
    match st.arrives topo call with
    | some (n, toks) => st.deliver topo call n toks
    | none => some { st with sys := st.sys.execute (topo.getChanendDest st.nodes) call }

structure Initial : Prop where
  chanends : ∀ c, topo.switchOf c = none → st.sys.chanends c = {}
  switches : ∀ n, st.sys.chanends (topo.switchEnd n) = { inUse := true, junkIncoming := false }
  receivers : ∀ n, st.receivers n = {}

end SwitchedSystem

open PacketNetwork (Message Network)

/-! ### Responses -/

def Token.Plain (token : Token) : Prop := token.control = true → endsPacket token.value = false

namespace System

lemma push_push (net : Network Nat Token) (d : Nat) (first snd : List Token) :
    (net.push d first).push d snd = net.push d (first ++ snd) := by
  simp [Network.push, Network.change]

lemma push_nil (net : Network Nat Token) (d : Nat) : net.push d [] = net := by
  simp [Network.push, Network.change]

section

variable (sys : System) (d time : Nat)

@[simp] lemma receiveToken_settings (e : Nat) (token : Token) :
    ((sys.receiveToken d time token).chanends e).settings = (sys.chanends e).settings := by
  unfold receiveToken
  split <;> simp

lemma receiveTokens_settings (e : Nat) (toks : List Token) :
    ((toks.foldl (receiveToken d time) sys).chanends e).settings = (sys.chanends e).settings := by
  induction toks generalizing sys with
  | nil => rfl
  | cons token toks ih => rw [foldl_cons, ih, receiveToken_settings]

lemma receiveToken_network {token : Token} (plain : token.Plain) :
    (sys.receiveToken d time token).network = sys.network.push d [token] := by
  obtain ⟨val, control⟩ := token
  unfold receiveToken
  cases control with
  | true =>
    have goes : endsPacket val = false := plain rfl
    obtain ⟨notEnd, notPause⟩ : val ≠ ctEnd ∧ val ≠ ctPause := by simpa [endsPacket] using goes
    rw [if_pos rfl, receiveCtrlToken_network, if_neg notPause, if_neg notEnd]
  | false => rw [if_neg Bool.false_ne_true, receiveDataTokens_network, map_singleton]

lemma receiveTokens_network {toks : List Token} (plain : ∀ token ∈ toks, token.Plain) :
    (toks.foldl (receiveToken d time) sys).network = sys.network.push d toks := by
  induction toks generalizing sys with
  | nil => exact (push_nil _ _).symm
  | cons token toks ih =>
    rw [foldl_cons, ih _ fun other mem => plain other (mem_cons_of_mem _ mem),
      receiveToken_network sys d time (plain token mem_cons_self), push_push, singleton_append]

lemma receivePacket_network {body : List Token} (plain : ∀ token ∈ body, token.Plain) :
    ((body ++ [(⟨ctEnd, true⟩ : Token)]).foldl (receiveToken d time) sys).network =
      sys.network.answer d (body ++ [⟨ctEnd, true⟩]) := by
  have last (sys : System) : (sys.receiveToken d time ⟨ctEnd, true⟩).network =
      (sys.network.push d [⟨ctEnd, true⟩]).release d := by
    unfold receiveToken
    rw [if_pos rfl, receiveCtrlToken_network, if_neg (by decide), if_pos rfl]
  rw [foldl_append, foldl_cons, foldl_nil, last, receiveTokens_network sys d time plain, push_push]
  simp [Network.push, Network.release, Network.answer, Network.change]

end

section

variable (sys : System) (switch time : Nat) (dest : Option Nat) (response : List Token)

inductive RespondResult : Option System → Prop where
  | unreachable (nowhere : dest = none) : RespondResult (some sys)
  | junked (d : Nat) (isDest : dest = some d) (refuses : (sys.chanends d).junkIncoming = true) :
      RespondResult (some sys)
  | claimed (d other : Nat) (isDest : dest = some d) (accepts : (sys.chanends d).junkIncoming = false)
      (src : (sys.chanends d).source = some other) (differs : other ≠ switch) : RespondResult none
  | full (d : Nat) (isDest : dest = some d) (accepts : (sys.chanends d).junkIncoming = false)
      (free : ∀ other, (sys.chanends d).source = some other → other = switch)
      (noRoom : chanendBufferSize < (sys.chanends d).buf.length + response.length) : RespondResult none
  | sent (d : Nat) (post : System) (isDest : dest = some d) (accepts : (sys.chanends d).junkIncoming = false)
      (free : ∀ other, (sys.chanends d).source = some other → other = switch)
      (room : (sys.chanends d).buf.length + response.length ≤ chanendBufferSize)
      (answered : post.network = sys.network.answer d response)
      (cfg : ∀ e, (post.chanends e).settings = (sys.chanends e).settings) : RespondResult (some post)

lemma respond_result {body : List Token} (isResponse : response = body ++ [⟨ctEnd, true⟩])
    (plain : ∀ token ∈ body, token.Plain) :
    RespondResult sys switch dest response (sys.respond switch dest time response) := by
  unfold respond
  cases dest with
  | none => exact .unreachable rfl
  | some d =>
    unfold claim
    dsimp only
    cases junk : (sys.chanends d).junkIncoming with
    | true => exact .junked d rfl junk
    | false =>
      -- The claim itself leaves the buffer, and the answer ends it again.
      have sends (own : System) (sameBuf : (own.chanends d).buf = (sys.chanends d).buf)
          (sameAnswer : own.network.answer d response = sys.network.answer d response)
          (sameSettings : ∀ e, (own.chanends e).settings = (sys.chanends e).settings)
          (free : ∀ other, (sys.chanends d).source = some other → other = switch) :
          RespondResult sys switch (some d) response
            (if chanendBufferSize < (own.chanends d).buf.length + response.length then none
              else some (response.foldl (receiveToken d time) own)) := by
        rw [sameBuf]
        split
        · rename_i noRoom
          exact .full d rfl junk free noRoom
        · rename_i room
          refine .sent d _ rfl junk free (Nat.not_lt.mp room) ?_ fun e => ?_
          · rw [isResponse, receivePacket_network own d time plain, ← isResponse, sameAnswer]
          · rw [receiveTokens_settings, sameSettings]
      rw [if_neg Bool.false_ne_true]
      cases src : (sys.chanends d).source with
      | none =>
        apply sends
        · simp [updateChanend]
        · rw [network_updateChanend sys d (fun ep => { ep with source := some switch }) fun _ => rfl]
          simp [Network.answer, Network.change]
        · exact fun e => updateChanend_field _ _ fun _ _ => rfl
        · rw [src]
          intro other isSource
          cases isSource
      | some other =>
        by_cases same : other = switch
        · rw [if_pos (congrArg some same)]
          apply sends sys rfl rfl (fun _ => rfl)
          rw [src, same]
          exact fun _ isSource => (Option.some.inj isSource).symm
        · rw [if_neg fun equal => same (Option.some.inj equal), if_pos (by rfl)]
          exact .claimed d other rfl junk src same

end

end System

lemma Served.response_eq (served : Served) (write : Bool) :
    ∃ body, served.response write = body ++ [⟨ctEnd, true⟩] ∧ ∀ token ∈ body, token.Plain := by
  unfold response
  cases served.ack with
  | true =>
    refine ⟨⟨ctAck, true⟩ :: (if write then [] else dataTokens (System.wordBytes served.value)), rfl, ?_⟩
    intro token mem control
    obtain rfl | data := mem_cons.mp mem
    · decide
    · split at data
      · cases data
      · obtain ⟨val, -, rfl⟩ := mem_map.mp data
        cases control
  | false =>
    refine ⟨[⟨ctNack, true⟩], rfl, fun token mem control => ?_⟩
    obtain rfl := mem_singleton.mp mem
    decide

/-! ### Validity -/

/-- A message without tokens, which only ends the packet or does not. -/
def silent (closes : Bool) : Message Token := ⟨[], 0, closes, Nat.le_refl 0⟩

lemma Delivered.closes_eq_false {toks : Delivered} (notEnd : toks ≠ .ctrlToken ctEnd)
    (notPause : toks ≠ .ctrlToken ctPause) : toks.closes = false := by
  cases toks with
  | ctrlToken val =>
    rw [ne_eq, Delivered.ctrlToken.injEq] at notEnd notPause
    simp [Delivered.closes, endsPacket, notEnd, notPause]
  | _ => rfl

namespace SwitchedSystem

/-- What is true in every run: channel ends and switches keep the protocol, and a switch does not open packets. -/
structure Valid (topo : Topology) (st : SwitchedSystem) : Prop where
  sys : st.sys.Valid
  inUse : ∀ n, (st.sys.chanends (topo.switchEnd n)).inUse = true
  idle : ∀ n, (st.sys.chanends (topo.switchEnd n)).inPacket = false

variable {topo : Topology} {st post : SwitchedSystem} {call : ChanCall} {n time : Nat} {toks : Delivered}

lemma Initial.valid (init : st.Initial topo) : st.Valid topo := by
  have view (c : Nat) : st.sys.chanends c = {} ∨
      st.sys.chanends c = { inUse := true, junkIncoming := false } := by
    cases isSwitch : topo.switchOf c with
    | none => exact .inl (init.chanends c isSwitch)
    | some n => exact .inr (topo.switchOf_eq_some.mp isSwitch ▸ init.switches n)
  refine ⟨⟨⟨?_, ?_, ?_, ?_, ?_⟩, ?_⟩, fun n => by rw [init.switches], fun n => by rw [init.switches]⟩
  all_goals
    intro c
    obtain fresh | fresh := view c <;> simp [System.network_apply, Chanend.endpoint, fresh]

/-- A switch leaves the network alone or places an answer at a channel end that nobody else has claimed. -/
def Answers (topo : Topology) (n : Nat) (net mid : Network Nat Token) : Prop :=
  mid = net ∨
    ∃ d response, topo.switchOf d = none ∧ (net d).accepting = true ∧
      (∀ s, (net d).source = some s → s = topo.switchEnd n) ∧
      (net d).buf.length + response.length ≤ chanendBufferSize ∧ mid = net.answer d response

section

variable {net mid : Network Nat Token}

lemma Answers.packetState (answers : Answers topo n net mid) (c : Nat) :
    PacketNetwork.packetState (mid c) = PacketNetwork.packetState (net c) := by
  obtain rfl | ⟨d, response, -, -, -, -, rfl⟩ := answers
  · rfl
  · by_cases here : c = d <;>
      simp [PacketNetwork.packetState, Network.answer, Network.change_apply, here]

lemma switchEnd_ne {d : Nat} (isEnd : topo.switchOf d = none) (m : Nat) : topo.switchEnd m ≠ d := by
  rintro rfl
  rw [topo.switchOf_eq_some.mpr rfl] at isEnd
  cases isEnd

section

variable (answers : Answers topo n net mid)
include answers

lemma Answers.source (m : Nat) : (mid (topo.switchEnd m)).source = (net (topo.switchEnd m)).source := by
  obtain rfl | ⟨d, response, isEnd, -, -, -, rfl⟩ := answers
  · rfl
  · simp [Network.answer, Network.change_apply, switchEnd_ne isEnd m]

lemma Answers.ready {s m : Nat} {msg : Message Token}
    (ready : PacketNetwork.Ready chanendBufferSize net s (topo.switchEnd m) msg)
    (room : (mid (topo.switchEnd m)).buf.length + msg.room ≤ chanendBufferSize) :
    PacketNetwork.Ready chanendBufferSize mid s (topo.switchEnd m) msg := by
  obtain ⟨pkt, rest⟩ := Prod.mk.inj (answers.packetState s)
  obtain ⟨junk, dest⟩ := Prod.mk.inj rest
  exact ⟨pkt.trans ready.packet, junk.trans ready.kept, dest.trans ready.dest,
    (answers.source m).trans ready.source, room⟩

lemma Answers.invariant
    (inv : PacketNetwork.Invariant chanendBufferSize net) (idle : (net (topo.switchEnd n)).inPacket = false) :
    PacketNetwork.Invariant chanendBufferSize mid := by
  obtain rfl | ⟨d, response, -, acc, free, room, rfl⟩ := answers
  · exact inv
  · exact inv.answer (fun s src => free s src ▸ idle) acc room

end

end

lemma handleRequest_answers {req : Request} (handled : st.handleRequest topo n time req = some post) :
    Answers topo n st.sys.network post.sys.network ∧
      (∀ e, (post.sys.chanends e).settings = (st.sys.chanends e).settings) ∧ post.receivers = st.receivers := by
  unfold handleRequest at handled
  split at handled
  · cases handled
  · rename_i served _
    obtain ⟨body, isResponse, plain⟩ := served.response_eq req.write
    dsimp only at handled
    split at handled
    · cases handled
    · rename_i sys responded
      obtain rfl := Option.some.inj handled
      have res := st.sys.respond_result (topo.switchEnd n) time
        (topo.getOutgoingChanendDest served.nodes n (chanendID req.returnNum req.returnNode)) _
        isResponse plain
      rw [responded] at res
      cases res with
      | unreachable => exact ⟨.inl rfl, fun _ => rfl, rfl⟩
      | junked => exact ⟨.inl rfl, fun _ => rfl, rfl⟩
      | sent d _ isDest accepts free room answered cfg =>
        have acc : (st.sys.network d).accepting = true := by
          simp [System.network_apply, Chanend.endpoint, accepts]
        exact ⟨.inr ⟨d, _, topo.to_chanend isDest, acc, free, room, answered⟩, cfg, rfl⟩

lemma receive_network (got : st.receive topo n time toks = some post) :
    (∃ mid, Answers topo n st.sys.network mid ∧
      post.sys.network = if toks.closes then mid.release (topo.switchEnd n) else mid) ∧
    (∀ e, (post.sys.chanends e).settings = (st.sys.chanends e).settings) ∧
    post.receivers = Function.update st.receivers n ((st.receivers n).receive toks) := by
  unfold receive at got
  dsimp only at got
  split at got
  · rename_i isEnd
    subst isEnd
    split at got
    · obtain rfl := Option.some.inj got
      exact ⟨⟨_, .inl rfl, System.release_network ..⟩, fun e => System.release_settings .., rfl⟩
    · obtain ⟨handled, handles, rfl⟩ := Option.map_eq_some_iff.mp got
      obtain ⟨answers, cfg, sameReceivers⟩ := handleRequest_answers handles
      refine ⟨⟨_, answers, System.release_network ..⟩, fun e => ?_, ?_⟩
      · exact (System.release_settings ..).trans (cfg e)
      · exact congrArg (Function.update · n _) sameReceivers
  · rename_i notEnd
    split at got
    · rename_i isPause
      subst isPause
      obtain rfl := Option.some.inj got
      exact ⟨⟨_, .inl rfl, System.release_network ..⟩, fun e => System.release_settings .., rfl⟩
    · rename_i notPause
      obtain rfl := Option.some.inj got
      have goes : toks.closes = false := Delivered.closes_eq_false notEnd notPause
      exact ⟨⟨_, .inl rfl, by rw [goes]; rfl⟩, fun _ => rfl, rfl⟩

variable (topo st call) in
def openedNetwork : Network Nat Token :=
  (st.sys.network.openTo call.chanend
    (st.sys.target (topo.getChanendDest st.nodes) call.chanend)).1

structure Arrival (topo : Topology) (st : SwitchedSystem) (call : ChanCall) (n : Nat) (toks : Delivered) :
    Prop where
  output : call.op.delivered = some toks
  inUse : (st.sys.chanends call.chanend).inUse = true
  ready : PacketNetwork.Ready chanendBufferSize (st.openedNetwork topo call) call.chanend
    (topo.switchEnd n) (silent toks.closes)

lemma arrival (valid : st.Valid topo) (arr : st.arrives topo call = some (n, toks)) :
    st.Arrival topo call n toks := by
  unfold SwitchedSystem.arrives at arr
  have route := (st.sys.openRoute_result (topo.getChanendDest st.nodes) call.chanend)
  have cfg := route.settings call.chanend
  have opens := route.network
  generalize st.sys.openRoute (topo.getChanendDest st.nodes) call.chanend = res at *
  obtain ⟨sys, opened⟩ := res
  dsimp only at arr cfg opens
  split at arr
  · rename_i found node out toward
    split at arr
    · rename_i reached
      obtain ⟨rfl, rfl⟩ := Prod.mk.inj (Option.some.inj arr)
      obtain ⟨⟨inUse, rfl⟩, kept⟩ : ((sys.chanends call.chanend).inUse = true ∧ opened = true) ∧
          (sys.chanends call.chanend).junkPacket = false := by simpa using reached
      have le := (valid.sys.network.openTo ((valid.sys.accepting _).trans
        ((congrArg Prod.fst cfg).symm.trans inUse))
        (st.sys.target (topo.getChanendDest st.nodes) call.chanend)).bounded
      have res := PacketNetwork.openTo_true valid.sys.network call.chanend
        (st.sys.target (topo.getChanendDest st.nodes) call.chanend)
      rw [← opens] at res le
      obtain ⟨pkt, owns⟩ := res rfl
      obtain ⟨d, dest, src⟩ := owns kept
      have toDest : (sys.chanends call.chanend).dest = some d := dest
      rw [toDest] at toward
      obtain rfl := topo.switchOf_eq_some.mp toward
      refine ⟨out, (congrArg Prod.fst cfg).symm.trans inUse, ?_⟩
      unfold openedNetwork
      rw [← opens]
      exact ⟨pkt, kept, dest, src, le _⟩
    · cases arr
  · cases arr

lemma arrives_of_delivered (valid : st.Valid topo) (inUse : (st.sys.chanends call.chanend).inUse = true)
    {msg : Message Token} (output : call.op.message = some msg)
    (sent : (st.sys.network.send chanendBufferSize call.chanend
      (st.sys.target (topo.getChanendDest st.nodes) call.chanend) msg).2 =
        .delivered (topo.switchEnd n)) : ∃ toks, st.arrives topo call = some (n, toks) := by
  have hits := (PacketNetwork.openTo_reaches valid.sys.network).mpr
    ((PacketNetwork.send_delivered_iff valid.sys.network msg).mp sent).1
  obtain ⟨toks, isOutput⟩ : ∃ toks, call.op.delivered = some toks := by
    cases op : call.op with
    | outt val => exact ⟨_, rfl⟩
    | out val => exact ⟨_, rfl⟩
    | outct val => exact ⟨_, rfl⟩
    | _ =>
      rw [op] at output
      cases output
  have route := (st.sys.openRoute_result (topo.getChanendDest st.nodes) call.chanend)
  have cfg := route.settings call.chanend
  have opens := route.network
  refine ⟨toks, ?_⟩
  unfold SwitchedSystem.arrives
  generalize st.sys.openRoute (topo.getChanendDest st.nodes) call.chanend = res at *
  obtain ⟨sys, opened⟩ := res
  rw [← opens] at hits
  obtain ⟨rfl, kept, dest⟩ := hits
  have kept : (sys.chanends call.chanend).junkPacket = false := kept
  have dest : (sys.chanends call.chanend).dest = some (topo.switchEnd n) := dest
  have inUse : (sys.chanends call.chanend).inUse = true := (congrArg Prod.fst cfg).trans inUse
  simp [isOutput, kept, dest, inUse, topo.switchOf_eq_some.mpr rfl]

lemma deliver_network (sent : st.deliver topo call n toks = some post) :
    (∃ mid, Answers topo n (st.openedNetwork topo call) mid ∧
      post.sys.network = mid.deliver call.chanend (topo.switchEnd n) (silent toks.closes)) ∧
    (∀ e, (post.sys.chanends e).settings = (st.sys.chanends e).settings) ∧
    post.receivers = Function.update st.receivers n ((st.receivers n).receive toks) := by
  unfold deliver at sent
  obtain ⟨got, receives, rfl⟩ := Option.map_eq_some_iff.mp sent
  obtain ⟨⟨mid, answers, released⟩, cfg, receivers⟩ := receive_network receives
  have route := System.openRoute_result (topo.getChanendDest st.nodes)
    { st.sys with currentRunnable := some call.thread } call.chanend
  have opened : (System.openRoute (topo.getChanendDest st.nodes)
      { st.sys with currentRunnable := some call.thread } call.chanend).1.network =
      st.openedNetwork topo call := congrArg Prod.fst route.network
  have closing (sys : System) :
      (sys.updateChanend call.chanend fun ch => { ch with inPacket := false, dest := none }).network =
        sys.network.change call.chanend fun ep => { ep with inPacket := false, dest := none } :=
    System.network_updateChanend _ _ _ fun _ => rfl
  refine ⟨⟨mid, opened ▸ answers, ?_⟩, fun e => ?_, receivers⟩
  · rw [System.network_of_chanends (System.finish_chanends ..)]
    unfold Network.deliver silent
    cases closes : toks.closes with
    | true =>
      rw [closes, if_pos rfl] at released
      rw [if_pos rfl, if_pos rfl, closing, released, System.push_nil]
    | false =>
      rw [closes, if_neg Bool.false_ne_true] at released
      rw [if_neg Bool.false_ne_true, if_neg Bool.false_ne_true, released, System.push_nil]
  · dsimp only
    rw [System.finish_chanends]
    refine Eq.trans ?_ ((cfg e).trans (route.settings e))
    split
    · exact System.updateChanend_field _ _ fun _ _ => rfl
    · rfl

lemma Valid.deliver (valid : st.Valid topo) (isEnd : topo.switchOf call.chanend = none)
    (arrival : st.Arrival topo call n toks)
    (delivered : st.deliver topo call n toks = some post) : post.Valid topo := by
  obtain ⟨⟨mid, answers, net⟩, cfg, -⟩ := deliver_network delivered
  have act := (valid.sys.accepting _).trans arrival.inUse
  have opened := valid.sys.network.openTo act (st.sys.target (topo.getChanendDest st.nodes) call.chanend)
  have opening := PacketNetwork.openTo_opening st.sys.network call.chanend
    (st.sys.target (topo.getChanendDest st.nodes) call.chanend)
  have other := switchEnd_ne isEnd
  have idle (m : Nat) : (st.openedNetwork topo call (topo.switchEnd m)).inPacket = false :=
    (opening.others _ (other m)).1.trans (valid.idle m)
  have middleInv := answers.invariant opened (idle n)
  have sent := PacketNetwork.deliver_delivery mid call.chanend (topo.switchEnd n) (silent toks.closes)
  refine ⟨⟨?_, fun e => ?_⟩, fun m => ?_, fun m => ?_⟩
  · rw [net]
    exact middleInv.deliver (answers.ready arrival.ready (middleInv.bounded _))
  · have same := Prod.mk.inj (cfg e)
    rw [same.1, (Prod.mk.inj same.2).1]
    exact valid.sys.agrees e
  · exact (Prod.mk.inj (cfg (topo.switchEnd m))).1.trans (valid.inUse m)
  · have view : (post.sys.chanends (topo.switchEnd m)).inPacket =
        (post.sys.network (topo.switchEnd m)).inPacket := rfl
    rw [view, net, sent.inPacket, if_neg fun both => other m both.2]
    exact (Prod.mk.inj (answers.packetState _)).1.trans (idle m)

lemma Valid.step (valid : st.Valid topo) (isEnd : topo.switchOf call.chanend = none) :
    Valid topo { st with sys := st.sys.execute (topo.getChanendDest st.nodes) call } := by
  have other := switchEnd_ne isEnd
  obtain ⟨label, ref⟩ := System.execute_refines (topo.getChanendDest st.nodes) call valid.sys
  have actor : label.actor = call.chanend := by cases ref.stands <;> rfl
  refine ⟨valid.sys.execute call, fun m => ?_, fun m => ?_⟩
  · have upd := st.sys.execute_settings (topo.switchEnd m) (topo.getChanendDest st.nodes) call
    refine Eq.trans ?_ (valid.inUse m)
    generalize same : ((st.sys.execute (topo.getChanendDest st.nodes) call).chanends
      (topo.switchEnd m)).settings = cfg at upd
    cases upd with
    | same => exact congrArg Prod.fst same
    | alloc here => exact absurd here (other m)
    | free here => exact absurd here (other m)
    | setd _ here => exact absurd here (other m)
    | input here => exact absurd here (other m)
  · have kept := PacketNetwork.step_inPacket valid.sys.network
      (show topo.switchEnd m ≠ label.actor from actor ▸ other m)
    rw [← ref.network] at kept
    exact kept.trans (valid.idle m)

lemma Valid.execute (valid : st.Valid topo) (ran : st.execute topo call = some post) :
    post.Valid topo := by
  unfold SwitchedSystem.execute at ran
  split at ran
  · obtain rfl := Option.some.inj ran
    exact valid
  · rename_i isEnd
    have isEnd : topo.switchOf call.chanend = none := by simpa using isEnd
    split at ran
    · rename_i n toks arr
      exact valid.deliver isEnd (arrival valid arr) ran
    · obtain rfl := Option.some.inj ran
      exact valid.step isEnd

end SwitchedSystem

end Axe
