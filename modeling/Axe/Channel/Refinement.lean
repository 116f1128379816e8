import Axe.Channel.Frames
import Axe.Library.PacketNetwork

/-! The channel ends as a packet network. Threads, owners and events drop out of the
view; what is left of an instruction is at most one step of the network. -/

namespace Axe

open PacketNetwork.Network

open PacketNetwork (Message Network Endpoint Outcome Label)

def Chanend.endpoint (ch : Chanend) : Endpoint Nat Token where
  accepting := !ch.junkIncoming
  source := ch.source
  queue := ch.queue
  dest := ch.dest
  buf := ch.buf
  inPacket := ch.inPacket
  junkPacket := ch.junkPacket

def dataMessage (vals : List (BitVec 8)) : Message Token :=
  ⟨vals.map (⟨·, false⟩), vals.length, false, by simp⟩

/-- A `PAUSE` ends the packet and leaves no token. -/
def ctrlMessage (val : BitVec 8) : Message Token :=
  ⟨if val = ctPause then [] else [⟨val, true⟩], 1, endsPacket val, by split <;> simp⟩

def ChanOp.message : ChanOp → Option (Message Token)
  | .outt val => some (dataMessage [val])
  | .out val => some (dataMessage (System.wordBytes val))
  | .outct val => some (ctrlMessage val)
  | _ => none

namespace System

def network (sys : System) : Network Nat Token := fun c => (sys.chanends c).endpoint

lemma network_apply (sys : System) (c : Nat) : sys.network c = (sys.chanends c).endpoint := rfl

lemma network_of_chanends {sys other : System} (same : sys.chanends = other.chanends) :
    sys.network = other.network := by
  funext c
  rw [network_apply, network_apply, same]

lemma network_updateChanend (sys : System) (c : Nat) {upd : Chanend → Chanend}
    (view : Endpoint Nat Token → Endpoint Nat Token) (same : ∀ ch, (upd ch).endpoint = view ch.endpoint) :
    (sys.updateChanend c upd).network = sys.network.change c view := by
  funext e
  by_cases here : e = c
  · simp [network, updateChanend, Network.change, here, same]
  · simp [network, updateChanend, Network.change, here]

lemma network_updateChanend_same (sys : System) (c : Nat) {upd : Chanend → Chanend}
    (same : ∀ ch, (upd ch).endpoint = ch.endpoint) : (sys.updateChanend c upd).network = sys.network := by
  rw [network_updateChanend sys c id same, Network.change]
  exact Function.update_eq_self c sys.network

section

variable (sys : System) (c d t time : Nat)

lemma notifySource_network : (sys.notifySource c time).network = sys.network := by
  unfold notifySource
  split
  · rfl
  · exact network_updateChanend_same _ _ fun _ => rfl

lemma release_network : (sys.release d time).network = sys.network.release d := by
  unfold release
  split
  · rename_i empty
    funext e
    by_cases here : e = d
    · simp [network, updateChanend, Network.release, Network.change, here, Chanend.endpoint, empty]
    · simp [network, updateChanend, Network.release, Network.change, here]
  · rename_i next rest wait
    rw [notifySource_network]
    funext e
    by_cases here : e = d
    · simp [network, updateChanend, Network.release, Network.change, here, Chanend.endpoint, wait]
    · simp [network, updateChanend, Network.release, Network.change, here]

lemma updateAfterToken_network : (sys.updateAfterToken d time).network = sys.network := by
  unfold updateAfterToken
  dsimp only
  split
  · exact network_of_chanends (by simp)
  · split
    · rfl
    · split
      · rfl
      · exact network_updateChanend_same _ _ fun _ => rfl

lemma pushTokens_network (toks : List Token) : (sys.pushTokens d toks).network = sys.network.push d toks :=
  network_updateChanend sys d _ fun _ => rfl

lemma setOwner_network : (sys.setOwner t c).network = sys.network :=
  network_updateChanend_same sys c fun _ => rfl

lemma setPausedIn_network (wordInput : Bool) : (sys.setPausedIn t c wordInput).network = sys.network :=
  network_updateChanend_same sys c fun _ => rfl

lemma popTokens_network (num : Nat) : (sys.popTokens c time num).network = sys.network.take c num := by
  have drop : (sys.updateChanend c fun ch => { ch with buf := ch.buf.drop num }).network =
      sys.network.take c num := network_updateChanend sys c _ fun _ => rfl
  unfold popTokens
  dsimp only
  split
  · exact drop
  · rw [notifySource_network, drop]

end

section

variable (via : Routing) (sys : System) (s d t time : Nat)

variable {via sys s} in
lemma RouteResult.network {res : System × Bool} (route : RouteResult via sys s res) :
    (res.1.network, res.2) = sys.network.openTo s (sys.target via s) := by
  have view (e : Nat) : sys.network e = (sys.chanends e).endpoint := rfl
  cases route with
  | already pkt => simp [openTo, view, Chanend.endpoint, pkt]
  | junked dest pkt named refused =>
    rw [network_updateChanend sys s (fun ep => { ep with dest := dest, junkPacket := true, inPacket := true })
      fun _ => rfl]
    cases dest with
    | none => simp [openTo, view, Chanend.endpoint, pkt, named]
    | some d => simp [openTo, view, Chanend.endpoint, pkt, named, refused d rfl]
  | opened d pkt named acc claimed =>
    rw [network_updateChanend _ s (fun ep => { ep with dest := some d, inPacket := true }) fun _ => rfl,
      network_updateChanend sys d (fun ep => { ep with source := some s }) fun _ => rfl]
    rcases claimed with free | mine
    · simp [openTo, view, Chanend.endpoint, pkt, named, acc, free]
    · have same : (sys.network.change d fun ep => { ep with source := some s }) = sys.network := by
        rw [change, ← mine]
        exact Function.update_eq_self d sys.network
      simp [openTo, view, Chanend.endpoint, pkt, named, acc, mine, same]
  | queued d current pkt named acc claimed other =>
    have swapped : (sys.network.change d fun ep => { ep with queue := ep.queue ++ [s] }).change s
          (fun ep => { ep with dest := some d }) =
        (sys.network.change s fun ep => { ep with dest := some d }).change d
          fun ep => { ep with queue := ep.queue ++ [s] } := by
      funext e
      by_cases own : d = s <;> by_cases here : e = s <;> by_cases there : e = d <;>
        simp_all [change_apply]
    rw [network_updateChanend _ s (fun ep => { ep with dest := some d }) fun _ => rfl,
      network_updateChanend sys d (fun ep => { ep with queue := ep.queue ++ [s] }) fun _ => rfl, swapped]
    simp [openTo, view, Chanend.endpoint, pkt, named, acc, claimed, other]

def ofOutcome : Outcome Nat → ResOpResult Unit
  | .blocked => .deschedule
  | _ => .continued ()

def Sends (msg : Message Token) (res : System × ResOpResult Unit) : Prop :=
  (res.1.network, res.2) =
    ((sys.network.send chanendBufferSize s (sys.target via s) msg).1,
      ofOutcome (sys.network.send chanendBufferSize s (sys.target via s) msg).2)

lemma sendTokens_sends (msg : Message Token) {junk : System → System} {deliver : System → Nat → System}
    (drops : ∀ sys : System, (junk sys).network = sys.network.dropMessage s msg)
    (sends : ∀ (sys : System) d, (deliver sys d).network = sys.network.deliver s d msg) :
    sys.Sends via s msg (sys.sendTokens via t s msg.room junk deliver) := by
  have route := (sys.openRoute_result via s).network
  unfold Sends sendTokens send
  rw [← route]
  generalize sys.openRoute via s = opened
  obtain ⟨post, success⟩ := opened
  have held : (post.updateChanend s fun ch => { ch with pausedOut := some t }).network = post.network :=
    network_updateChanend_same _ _ fun _ => rfl
  have view (e : Nat) : post.network e = (post.chanends e).endpoint := rfl
  simp only [view, Chanend.endpoint]
  cases success with
  | false => simp [held, ofOutcome]
  | true =>
    cases junked : (post.chanends s).junkPacket with
    | true => simp [drops, ofOutcome]
    | false =>
      cases dest : (post.chanends s).dest with
      | none => simp [ofOutcome]
      | some d =>
        by_cases full : chanendBufferSize < (post.chanends d).buf.length + msg.room
        · simp [full, held, ofOutcome]
        · simp [full, sends, ofOutcome]

lemma receiveDataTokens_network (vals : List (BitVec 8)) :
    (sys.receiveDataTokens d time vals).network = sys.network.push d (vals.map (⟨·, false⟩)) := by
  rw [receiveDataTokens, updateAfterToken_network, pushTokens_network]

lemma receiveCtrlToken_network (val : BitVec 8) : (sys.receiveCtrlToken d time val).network =
      if val = ctPause then sys.network.release d
      else if val = ctEnd then (sys.network.push d [⟨val, true⟩]).release d
      else sys.network.push d [⟨val, true⟩] := by
  unfold receiveCtrlToken
  by_cases isEnd : val = ctEnd
  · have notPause : val ≠ ctPause := by
      rw [isEnd]
      decide
    simp only [isEnd, if_true]
    rw [updateAfterToken_network, release_network, pushTokens_network, if_neg (isEnd ▸ notPause)]
  · by_cases isPause : val = ctPause
    · simp only [isPause, if_true, if_neg (isPause ▸ isEnd)]
      rw [release_network]
    · simp only [isEnd, isPause, if_false]
      rw [updateAfterToken_network, pushTokens_network]

lemma outct_sends (val : BitVec 8) : sys.Sends via s (ctrlMessage val) (sys.outct via t s time val) := by
  apply sys.sendTokens_sends via s t (ctrlMessage val)
  · intro sys
    dsimp only [dropMessage, ctrlMessage]
    split
    · exact network_updateChanend _ _ _ fun _ => rfl
    · rfl
  · intro sys d
    have closing (sys : System) :
        (sys.updateChanend s fun ch => { ch with inPacket := false, dest := none }).network =
          sys.network.change s fun ep => { ep with inPacket := false, dest := none } :=
      network_updateChanend _ _ _ fun _ => rfl
    have quiet (net : Network Nat Token) : net.push d [] = net := by
      simp [push, change]
    have ne : ctEnd ≠ ctPause := by decide
    by_cases isPause : val = ctPause
    · simp [deliver, ctrlMessage, endsPacket, isPause, closing, receiveCtrlToken_network, quiet]
    · by_cases isEnd : val = ctEnd
      · simp [deliver, ctrlMessage, endsPacket, isEnd, closing, receiveCtrlToken_network, ne]
      · simp [deliver, ctrlMessage, endsPacket, isEnd, isPause, receiveCtrlToken_network]

lemma outt_sends (val : BitVec 8) : sys.Sends via s (dataMessage [val]) (sys.outt via t s time val) := by
  apply sys.sendTokens_sends via s t (dataMessage [val])
  · exact fun _ => rfl
  · exact fun sys d => sys.receiveDataTokens_network d time [val]

lemma out_sends (val : BitVec 32) :
    sys.Sends via s (dataMessage (wordBytes val)) (sys.out via t s time val) := by
  apply sys.sendTokens_sends via s t (dataMessage (wordBytes val))
  · exact fun _ => rfl
  · exact fun sys d => sys.receiveDataTokens_network d time (wordBytes val)

end

section

lemma getLsbD_bytes (a b c d : BitVec 8) (i : Nat) : BitVec.getLsbD (w := 32) (a ++ b ++ c ++ d) i =
      if i < 8 then d.getLsbD i else if i < 16 then c.getLsbD (i - 8)
      else if i < 24 then b.getLsbD (i - 16) else a.getLsbD (i - 24) := by
  have whole := BitVec.getLsbD_append (x := a ++ b ++ c) (y := d) (i := i)
  have upper := BitVec.getLsbD_append (x := a ++ b) (y := c) (i := i - 8)
  have top := BitVec.getLsbD_append (x := a) (y := b) (i := i - 8 - 8)
  rw [whole, upper, top]
  grind

lemma wordBytes_append (a b c d : BitVec 8) : wordBytes (a ++ b ++ c ++ d) = [a, b, c, d] := by
  unfold wordBytes
  simp only [List.cons.injEq, and_true]
  refine ⟨?_, ?_, ?_, ?_⟩ <;> apply BitVec.eq_of_getLsbD_eq <;> intro i bound <;>
    rw [BitVec.getLsbD_extractLsb', getLsbD_bytes] <;> grind

lemma wordBytes_injective {val other : BitVec 32} (same : wordBytes val = wordBytes other) : val = other := by
  simp only [wordBytes, List.cons.injEq, and_true] at same
  obtain ⟨first, snd, third, fourth⟩ := same
  have bit (k i : Nat) (same : val.extractLsb' k 8 = other.extractLsb' k 8) (bound : i < 8) :
      val.getLsbD (k + i) = other.getLsbD (k + i) := by
    simpa [bound] using congrArg (·.getLsbD i) same
  apply BitVec.eq_of_getLsbD_eq
  intro i bound
  have byte : i < 8 ∨ 8 ≤ i ∧ i < 16 ∨ 16 ≤ i ∧ i < 24 ∨ 24 ≤ i := by omega
  rcases byte with low | low | low | low
  · simpa using bit 0 i fourth low
  · simpa [Nat.add_sub_cancel' low.1] using bit 8 (i - 8) third (by omega)
  · simpa [Nat.add_sub_cancel' low.1] using bit 16 (i - 16) snd (by omega)
  · simpa [Nat.add_sub_cancel' low] using bit 24 (i - 24) first (by omega)

lemma word_of_controlPosition {buf : List Token} (data : controlPosition buf = 0) (long : 4 ≤ buf.length) :
    ∃ first snd third fourth rest,
      buf = ⟨first, false⟩ :: ⟨snd, false⟩ :: ⟨third, false⟩ :: ⟨fourth, false⟩ :: rest := by
  match buf, data, long with
  | ⟨_, x⟩ :: ⟨_, y⟩ :: ⟨_, z⟩ :: ⟨_, w⟩ :: _, data, _ =>
    cases x <;> cases y <;> cases z <;> cases w <;> simp [controlPosition, List.findIdx?_cons] at data ⊢
  | [], _, long | [_], _, long | [_, _], _, long | [_, _, _], _, long => simp at long

end

section

variable (sys : System) (t c time : Nat)

lemma testct_spec : (sys.testct t c).1.network = sys.network ∧
      (sys.testct t c).2 = (sys.chanends c).buf.head?.map (·.control) := by
  have owned := sys.setOwner_network c t
  have buf : ((sys.setOwner t c).chanends c).buf = (sys.chanends c).buf := by
    simp [setOwner, updateChanend]
  unfold testct
  dsimp only
  rw [buf]
  cases (sys.chanends c).buf with
  | nil => exact ⟨by rw [setPausedIn_network, owned], rfl⟩
  | cons token rest => exact ⟨owned, rfl⟩

lemma testwct_spec : (sys.testwct t c).1.network = sys.network ∧ (sys.testwct t c).2 =
        if controlPosition (sys.chanends c).buf = 0 ∧ (sys.chanends c).buf.length < 4 then none
        else some (controlPosition (sys.chanends c).buf) := by
  have owned := sys.setOwner_network c t
  have buf : ((sys.setOwner t c).chanends c).buf = (sys.chanends c).buf := by
    simp [setOwner, updateChanend]
  unfold testwct
  dsimp only
  rw [buf]
  by_cases control : controlPosition (sys.chanends c).buf = 0
  · by_cases short : (sys.chanends c).buf.length < 4
    · simp [control, short, setPausedIn_network, owned]
    · simp [control, short, owned]
  · simp [control, owned]

def inputTokens (op : ChanOp) (val : BitVec 32) : List Token :=
  match op with
  | .intoken => [⟨val.setWidth 8, false⟩]
  | .inct => [⟨val.setWidth 8, true⟩]
  | .chkct expected => [⟨expected.setWidth 8, true⟩]
  | .inWord => (wordBytes val).map (⟨·, false⟩)
  | .alloc | .free | .setd _ | .outt _ | .out _ | .outct _ | .testct | .testwct => []

/-- A completed input takes the tokens it reports from the front of the buffer; one that
does not complete leaves the network alone. -/
def Takes (op : ChanOp) (res : System × ResOpResult (BitVec 32)) : Prop :=
  match res.2 with
  | .continued val =>
    inputTokens op val <+: (sys.chanends c).buf ∧
      res.1.network = sys.network.take c (inputTokens op val).length
  | _ => res.1.network = sys.network

lemma inputToken_takes (op : ChanOp) {acc : Token → Bool}
    (reads : ∀ token : Token, acc token = true → inputTokens op (token.value.setWidth 32) = [token]) :
    sys.Takes c op (sys.inputToken t c time acc) := by
  have test := sys.testct_spec t c
  have buf : ((sys.testct t c).1.chanends c).buf = (sys.chanends c).buf :=
    congrArg (fun net => (net c).buf) test.1
  unfold inputToken Takes
  generalize sys.testct t c = res at test buf ⊢
  obtain ⟨post, isCt⟩ := res
  cases isCt with
  | none => exact test.1
  | some _ =>
    dsimp only
    rw [buf]
    cases toks : (sys.chanends c).buf with
    | nil => exact test.1
    | cons token rest =>
      dsimp only
      cases ok : acc token with
      | false => simpa using test.1
      | true => simp [reads token ok, popTokens_network, test.1]

lemma intoken_takes : sys.Takes c .intoken (sys.intoken t c time) := by
  unfold intoken
  apply sys.inputToken_takes t c time .intoken
  intro token data
  cases token
  simp_all [inputTokens]

lemma inct_takes : sys.Takes c .inct (sys.inct t c time) := by
  unfold inct
  apply sys.inputToken_takes t c time .inct
  intro token control
  cases token
  simp_all [inputTokens]

lemma chkct_takes (val : BitVec 32) : sys.Takes c (.chkct val) (sys.chkct t c time val) := by
  unfold chkct
  apply sys.inputToken_takes t c time (.chkct val)
  intro token expected
  simp only [Bool.and_eq_true, beq_iff_eq] at expected
  obtain ⟨control, rfl⟩ := expected
  cases token
  simp_all [inputTokens]

lemma inWord_takes : sys.Takes c .inWord (sys.inWord t c time) := by
  have test := sys.testwct_spec t c
  have buf : ((sys.testwct t c).1.chanends c).buf = (sys.chanends c).buf :=
    congrArg (fun net => (net c).buf) test.1
  unfold inWord Takes
  generalize sys.testwct t c = res at test buf ⊢
  obtain ⟨post, pos⟩ := res
  obtain ⟨same, pos⟩ := test
  dsimp only at same pos buf
  subst pos
  by_cases control : controlPosition (sys.chanends c).buf = 0
  · by_cases short : (sys.chanends c).buf.length < 4
    · simpa [control, short] using same
    · obtain ⟨first, snd, third, fourth, rest, toks⟩ := word_of_controlPosition control (by omega)
      simp only [control, short, and_false, if_false, buf]
      simp [toks, bufferWord, inputTokens, wordBytes_append, popTokens_network, same]
  · simpa [control] using same

end

section

variable (via : Routing) (sys : System) (call : ChanCall)

inductive Effect (post : System) (res : ResOpResult (BitVec 32)) : Prop where
  | send (msg : Message Token) (output : call.op.message = some msg)
      (inUse : (sys.chanends call.chanend).inUse = true)
      (sends : post.network =
        (sys.network.send chanendBufferSize call.chanend (sys.target via call.chanend) msg).1)
      (outcome : res = (ofOutcome (sys.network.send chanendBufferSize call.chanend
        (sys.target via call.chanend) msg).2).map fun _ => 0)
  | allocate (op : call.op = .alloc) (unused : (sys.chanends call.chanend).inUse = false)
      (allocates : post.network = sys.network.allocate call.chanend) (completed : res = .continued 0)
  | retire (op : call.op = .free) (idle : PacketNetwork.Guard sys.network (.retire call.chanend))
      (retires : post.network = sys.network.retire call.chanend) (completed : res = .continued 0)
  | take (val : BitVec 32) (input : call.op.message = none)
      (available : inputTokens call.op val <+: (sys.chanends call.chanend).buf)
      (takes : post.network = sys.network.take call.chanend (inputTokens call.op val).length)
      (completed : res = .continued val)
  | refuse (input : call.op.message = none ∨ (sys.chanends call.chanend).inUse = false)
      (incomplete : ∀ val, res ≠ .continued val) (unchanged : post.network = sys.network)

variable {via sys call}

lemma Sends.effect {msg : Message Token} {res : System × ResOpResult Unit}
    (out : call.op.message = some msg) (inUse : (sys.chanends call.chanend).inUse = true)
    (sends : sys.Sends via call.chanend msg res) : Effect via sys call (ofUnit res).1 (ofUnit res).2 := by
  rw [Sends, Prod.mk.injEq] at sends
  exact .send msg out inUse sends.1 (by rw [← sends.2, ofUnit])

lemma Takes.effect {res : System × ResOpResult (BitVec 32)} (input : call.op.message = none)
    (takes : sys.Takes call.chanend call.op res) : Effect via sys call res.1 res.2 := by
  unfold Takes at takes
  split at takes
  · exact .take _ input takes.1 takes.2 ‹_›
  · exact .refuse (.inl input) ‹_› takes

lemma Effect.unchanged {post : System} {res : ResOpResult (BitVec 32)} (input : call.op.message = none)
    (reads : ∀ val, inputTokens call.op val = []) (same : post.network = sys.network) :
    Effect via sys call post res := by
  cases res with
  | continued val =>
    have still : sys.network.take call.chanend 0 = sys.network := by
      simp [Network.take, Network.change]
    exact .take val input (by simp [reads]) (by simp [reads, still, same]) rfl
  | deschedule => exact .refuse (.inl input) (by simp) same
  | illegal => exact .refuse (.inl input) (by simp) same

lemma free_effect (op : call.op = .free) :
    Effect via sys call (ofBool (sys.free call.chanend)).1 (ofBool (sys.free call.chanend)).2 := by
  unfold free
  dsimp only
  split
  · exact .refuse (.inl (by rw [op]; rfl)) (by simp [ofBool]) rfl
  · rename_i idle
    have retires : (sys.updateChanend call.chanend fun ch =>
        { ch with events := { ch.events with owner := none }, inUse := false, junkIncoming := true }).network =
          sys.network.retire call.chanend := network_updateChanend _ _ _ fun _ => rfl
    apply Effect.retire op
    · simpa [PacketNetwork.Guard, network, Chanend.endpoint, and_assoc] using idle
    · exact retires
    · rfl

lemma alloc_network (t c : Nat) : (sys.alloc t c).network = sys.network.allocate c :=
  network_updateChanend _ _ _ fun _ => rfl

lemma setData_network (c : Nat) (val : BitVec 32) : (sys.setData c val).1.network = sys.network := by
  unfold setData
  dsimp only
  split
  · rfl
  · split
    · rfl
    · dsimp only
      apply network_updateChanend_same
      exact fun _ => rfl

variable (via sys call) in
lemma perform_effect : Effect via sys call (sys.perform via call).1
    (sys.perform via call).2 := by
  obtain ⟨t, c, op⟩ := call
  unfold perform
  dsimp only
  cases inUse : (sys.chanends c).inUse with
  | true =>
    cases op with
    | alloc => exact .refuse (.inl rfl) (by simp) rfl
    | free => exact free_effect rfl
    | setd val => exact .unchanged rfl (fun _ => rfl) (setData_network c val)
    | outt val => exact Sends.effect rfl inUse (outt_sends ..)
    | out val => exact Sends.effect rfl inUse (out_sends ..)
    | outct val => exact Sends.effect rfl inUse (outct_sends ..)
    | intoken => exact Takes.effect rfl (intoken_takes ..)
    | inct => exact Takes.effect rfl (inct_takes ..)
    | chkct val => exact Takes.effect rfl (chkct_takes ..)
    | inWord => exact Takes.effect rfl (inWord_takes ..)
    | testct => exact .unchanged rfl (fun _ => rfl) (testct_spec ..).1
    | testwct => exact .unchanged rfl (fun _ => rfl) (testwct_spec ..).1
  | false =>
    cases op with
    | alloc => exact .allocate rfl inUse (alloc_network t c) rfl
    | _ => exact .refuse (.inr inUse) (by simp) rfl

end

end System

end Axe
