import Axe.Channel.Refinement
import Axe.Library.Runs

/-! Tokens on their way between channel ends. Every instruction is one step of the
packet network, so what holds of the network over whole runs holds of the channel
ends: no token is lost, none overtakes another and packets do not mix. -/

namespace Axe.System

open PacketNetwork

open PacketNetwork (Message Network Label Outcome)

section

variable (via : Routing)

/-- Where the tokens of an output go once its route is open; nowhere if the packet is dropped. -/
def packetDest (sys : System) (s : Nat) : Option Nat :=
  let ch := (sys.openRoute via s).1.chanends s
  if ch.junkPacket then none else ch.dest

/-- The tokens an instruction delivers to `d`: those of a completed output on the way there. -/
def deliveredTo (d : Nat) (sys : System) (call : ChanCall) : List Token :=
  match call.op.message, (sys.attempt via call).2 with
  | some msg, .continued _ =>
    if sys.packetDest via call.chanend = some d then msg.tokens else []
  | _, _ => []

def consumedFrom (d : Nat) (sys : System) (call : ChanCall) : List Token :=
  match (sys.attempt via call).2 with
  | .continued val => if call.chanend = d then inputTokens call.op val else []
  | _ => []

def EndsPacket (s : Nat) (sys : System) (call : ChanCall) : Prop :=
  call.chanend = s ∧ (∃ msg, call.op.message = some msg ∧ msg.closes = true) ∧
    ∃ val, (sys.attempt via call).2 = .continued val

structure Valid (sys : System) : Prop where
  network : Invariant chanendBufferSize sys.network
  agrees : ∀ c, (sys.chanends c).junkIncoming = !(sys.chanends c).inUse

inductive StandsFor (sys : System) (call : ChanCall) : Label Nat Token → Prop where
  | send (msg : Message Token) (output : call.op.message = some msg)
      (inUse : (sys.chanends call.chanend).inUse = true)
      (outcome : (sys.attempt via call).2 = (ofOutcome (sys.network.send chanendBufferSize call.chanend
        (sys.target via call.chanend) msg).2).map fun _ => 0) :
      StandsFor sys call (.send call.chanend (sys.target via call.chanend) msg)
  | allocate (op : call.op = .alloc) : StandsFor sys call (.allocate call.chanend)
  | retire (op : call.op = .free) : StandsFor sys call (.retire call.chanend)
  | take (count : Nat) (unsent : call.op.message = none ∨ (sys.chanends call.chanend).inUse = false) :
      StandsFor sys call (.take call.chanend count)

structure Refines (sys : System) (call : ChanCall) (lbl : Label Nat Token) : Prop where
  stands : StandsFor via sys call lbl
  guard : Guard sys.network lbl
  network : (sys.execute via call).network = step chanendBufferSize sys.network lbl
  consumed : ∀ d, sys.consumedFrom via d call = taken d sys.network lbl
  delivered : ∀ d, sys.deliveredTo via d call =
    delivered chanendBufferSize d sys.network lbl
  ends : ∀ s, sys.EndsPacket via s call ↔ Closes chanendBufferSize sys.network s lbl

variable {via} {sys : System} {call : ChanCall}

lemma execute_network : (sys.execute via call).network = (sys.attempt via call).1.network :=
  network_of_chanends (finish_chanends ..)

lemma attempt_effect : Effect via sys call (sys.attempt via call).1
    (sys.attempt via call).2 := by
  -- Which thread runs is not part of the view.
  cases perform_effect via { sys with currentRunnable := some call.thread } call with
  | send msg output inUse sends res => exact .send msg output inUse sends res
  | allocate op free allocates done => exact .allocate op free allocates done
  | retire op idle retires done => exact .retire op idle retires done
  | take val input available takes done => exact .take val input available takes done
  | refuse input partly same => exact .refuse input partly same

lemma packetDest_network (s : Nat) : sys.packetDest via s =
      if ((sys.network.openTo s (sys.target via s)).1 s).junkPacket then none
      else ((sys.network.openTo s (sys.target via s)).1 s).dest := by
  rw [← (sys.openRoute_result via s).network]
  rfl

lemma Valid.accepting (valid : sys.Valid) (c : Nat) : (sys.network c).accepting = (sys.chanends c).inUse := by
  simp [network_apply, Chanend.endpoint, valid.agrees c]

variable {msg : Message Token}

lemma deliveredTo_send (valid : sys.Valid) (output : call.op.message = some msg)
    (res : (sys.attempt via call).2 = (ofOutcome (sys.network.send chanendBufferSize call.chanend
      (sys.target via call.chanend) msg).2).map fun _ => 0) (d : Nat) :
    sys.deliveredTo via d call = delivered chanendBufferSize d sys.network
      (.send call.chanend (sys.target via call.chanend) msg) := by
  unfold deliveredTo delivered
  rw [output, packetDest_network]
  rcases send_cases valid.network call.chanend (sys.target via call.chanend) msg with
    blocked | ⟨-, junk, junked⟩ | ⟨e, ready, sent⟩
  · simp [res, blocked, ofOutcome, ResOpResult.map]
  · simp [res, junked, junk, ofOutcome, ResOpResult.map]
  · simp [res, sent, ready.kept, ready.dest, ofOutcome, ResOpResult.map]

section

variable (output : call.op.message = some msg)
include output

variable (via) in
lemma attempt_send (inUse : (sys.chanends call.chanend).inUse = true) : (sys.attempt via call).1.network =
        (sys.network.send chanendBufferSize call.chanend (sys.target via call.chanend) msg).1 ∧
      (sys.attempt via call).2 = (ofOutcome (sys.network.send chanendBufferSize call.chanend
        (sys.target via call.chanend) msg).2).map fun _ => 0 := by
  have eff : Effect via sys call _ _ := attempt_effect
  cases eff with
  | send other same _ sends res =>
    obtain rfl := Option.some.inj (output.symm.trans same)
    exact ⟨sends, res⟩
  | allocate op => simp [op, ChanOp.message] at output
  | retire op => simp [op, ChanOp.message] at output
  | take val input => simp [input] at output
  | refuse input =>
    rcases input with none | free
    · simp [none] at output
    · simp [free] at inUse

lemma endsPacket_send
    (res : (sys.attempt via call).2 = (ofOutcome (sys.network.send chanendBufferSize call.chanend
      (sys.target via call.chanend) msg).2).map fun _ => 0) (s : Nat) :
    sys.EndsPacket via s call ↔ Closes chanendBufferSize sys.network s
      (.send call.chanend (sys.target via call.chanend) msg) := by
  unfold EndsPacket Closes
  rw [res, output]
  cases sent : (sys.network.send chanendBufferSize call.chanend (sys.target via call.chanend) msg).2 <;>
    simp [ofOutcome, ResOpResult.map, sent]

lemma consumedFrom_output (d : Nat) : sys.consumedFrom via d call = [] := by
  obtain ⟨t, c, op⟩ := call
  unfold consumedFrom
  cases op with
  | outt val | out val | outct val => split <;> simp [inputTokens]
  | _ => cases output

end

lemma not_endsPacket (input : call.op.message = none) (s : Nat) : ¬ sys.EndsPacket via s call := by
  simp [EndsPacket, input]

lemma deliveredTo_input (input : call.op.message = none) (d : Nat) : sys.deliveredTo via d call = [] := by
  simp [deliveredTo, input]

lemma deliveredTo_incomplete (partly : ∀ val, (sys.attempt via call).2 ≠ .continued val)
    (d : Nat) : sys.deliveredTo via d call = [] := by
  unfold deliveredTo
  split
  · exact absurd ‹_› (partly _)
  · rfl

variable (via call) in
/-- Every instruction is one step of the packet network; one that fails takes no token. -/
lemma execute_refines (valid : sys.Valid) : ∃ lbl, sys.Refines via call lbl := by
  have eff : Effect via sys call _ _ := attempt_effect
  cases eff with
  | send msg output inUse sends res =>
    refine ⟨.send call.chanend (sys.target via call.chanend) msg, ?_⟩
    constructor
    · exact .send msg output inUse res
    · exact (valid.accepting call.chanend).trans inUse
    · rw [execute_network, sends, step]
    · exact consumedFrom_output output
    · exact deliveredTo_send valid output res
    · exact endsPacket_send output res
  | allocate op free allocates done =>
    have input : call.op.message = none := by rw [op]; rfl
    refine ⟨.allocate call.chanend, ?_⟩
    constructor
    · exact .allocate op
    · exact (valid.accepting call.chanend).trans free
    · rw [execute_network, allocates, step]
    · intro d
      simp [consumedFrom, done, op, inputTokens, taken]
    · exact deliveredTo_input input
    · exact fun s => iff_of_false (not_endsPacket input s) id
  | retire op idle retires done =>
    have input : call.op.message = none := by rw [op]; rfl
    refine ⟨.retire call.chanend, ?_⟩
    constructor
    · exact .retire op
    · exact idle
    · rw [execute_network, retires, step]
    · intro d
      simp [consumedFrom, done, op, inputTokens, taken]
    · exact deliveredTo_input input
    · exact fun s => iff_of_false (not_endsPacket input s) id
  | take val input available takes done =>
    refine ⟨.take call.chanend (inputTokens call.op val).length, ?_⟩
    constructor
    · exact .take _ (.inl input)
    · exact available.length_le
    · rw [execute_network, takes, step]
    · intro d
      by_cases here : call.chanend = d
      · subst here
        simp only [consumedFrom, done, taken, if_true]
        exact List.prefix_iff_eq_take.mp available
      · simp [consumedFrom, done, taken, here]
    · exact deliveredTo_input input
    · exact fun s => iff_of_false (not_endsPacket input s) id
  | refuse input partly same =>
    have consumed (d : Nat) : sys.consumedFrom via d call = [] := by
      unfold consumedFrom
      split
      · exact absurd ‹_› (partly _)
      · rfl
    refine ⟨.take call.chanend 0, ?_⟩
    constructor
    · exact .take 0 input
    · exact Nat.zero_le _
    · rw [execute_network, same]
      simp [step, Network.take, Network.change]
    · intro d
      simp [consumed, taken]
    · exact deliveredTo_incomplete partly
    · intro s
      refine iff_of_false ?_ id
      rintro ⟨-, -, val, done⟩
      exact partly val done

lemma Valid.execute (valid : sys.Valid) (call : ChanCall) : (sys.execute via call).Valid := by
  obtain ⟨lbl, ref⟩ := execute_refines via call valid
  constructor
  · rw [ref.network]
    exact valid.network.step sys.network lbl ref.guard
  · intro c
    have agrees := valid.agrees c
    have upd := sys.execute_settings c via call
    generalize same : ((sys.execute via call).chanends c).settings = settings at upd
    simp only [Chanend.settings] at same
    cases upd <;> grind [Chanend.settings]

variable (via) in
lemma execute_stream (valid : sys.Valid) (call : ChanCall) (d : Nat) :
    sys.consumedFrom via d call ++ ((sys.execute via call).chanends d).buf =
      (sys.chanends d).buf ++ sys.deliveredTo via d call := by
  obtain ⟨lbl, ref⟩ := execute_refines via call valid
  have stream := step_stream valid.network lbl d
  rw [← ref.network] at stream
  rw [ref.consumed, ref.delivered]
  exact stream

lemma execute_packetState (valid : sys.Valid) {s : Nat} (pkt : (sys.chanends s).inPacket = true)
    (stays : ¬ sys.EndsPacket via s call) : packetState ((sys.execute via call).network s) =
      packetState (sys.network s) := by
  obtain ⟨lbl, ref⟩ := execute_refines via call valid
  rw [ref.network]
  exact step_packetState valid.network ref.guard pkt fun closes => stays ((ref.ends s).mpr closes)

end

section

variable (via : Routing)

def Unallocated (sys : System) : Prop := ∀ c, sys.chanends c = {}

lemma Unallocated.valid {sys : System} (free : sys.Unallocated) : sys.Valid := by
  have view (c : Nat) : sys.network c = Chanend.endpoint {} := by rw [network_apply, free c]
  constructor
  · constructor <;> simp [view, Chanend.endpoint]
  · intro c
    simp [free c]

lemma valid_run {sys : System} (valid : sys.Valid) (calls : List ChanCall) : (calls.foldl (execute via) sys).Valid :=
  Runs.invariant (fun _ call valid => valid.execute call) valid calls

def HasRoute (sys : System) (s d : Nat) : Prop :=
  (sys.chanends s).inPacket = true ∧ (sys.chanends s).junkPacket = false ∧ (sys.chanends s).dest = some d

variable {via} in
lemma packetState_run {sys : System} (valid : sys.Valid) {s : Nat} (pkt : (sys.chanends s).inPacket = true)
    {calls : List ChanCall} (stays : Runs.Meets (execute via) (fun sys call => ¬ sys.EndsPacket via s call) sys calls) :
    packetState ((calls.foldl (execute via) sys).network s) = packetState (sys.network s) := by
  induction calls generalizing sys with
  | nil => rfl
  | cons call calls ih =>
    have same := execute_packetState valid pkt stays.1
    have open_ : ((sys.execute via call).chanends s).inPacket = true :=
      (congrArg Prod.fst same).trans pkt
    rw [List.foldl_cons, ih (valid.execute call) open_ stays.2, same]

variable {via} {sys : System} {call : ChanCall}

lemma mem_deliveredTo (valid : sys.Valid) {d : Nat} {token : Token} : token ∈ sys.deliveredTo via d call ↔
      ∃ msg, call.op.message = some msg ∧ (sys.chanends call.chanend).inUse = true ∧
        Reaches sys.network call.chanend (sys.target via call.chanend) d ∧
        (sys.chanends d).buf.length + msg.room ≤ chanendBufferSize ∧ token ∈ msg.tokens := by
  constructor
  · intro mem
    have eff : Effect via sys call _ _ := attempt_effect
    cases eff with
    | send msg output inUse sends res =>
      rw [deliveredTo_send valid output res d, delivered] at mem
      split at mem
      · rename_i e sent
        split at mem
        · rename_i here
          obtain ⟨hits, room⟩ := (send_delivered_iff valid.network msg).mp (here ▸ sent)
          exact ⟨msg, output, inUse, hits, room, mem⟩
        · simp at mem
      · simp at mem
    | allocate op => simp [deliveredTo_input (show call.op.message = none by rw [op]; rfl)] at mem
    | retire op => simp [deliveredTo_input (show call.op.message = none by rw [op]; rfl)] at mem
    | take val input => simp [deliveredTo_input input] at mem
    | refuse input partly => simp [deliveredTo_incomplete partly] at mem
  · rintro ⟨msg, output, inUse, hits, room, mem⟩
    have sent := (send_delivered_iff valid.network msg).mpr ⟨hits, room⟩
    rw [deliveredTo_send valid output (attempt_send via output inUse).2 d, delivered, sent]
    simpa using mem

/-- While a route is open, tokens arrive at its end from its source only. -/
lemma delivered_on_route (valid : sys.Valid) {s d : Nat} (route : sys.HasRoute s d)
    (sends : sys.deliveredTo via d call ≠ []) : call.chanend = s := by
  obtain ⟨token, mem⟩ := List.exists_mem_of_ne_nil _ sends
  obtain ⟨msg, -, -, hits, room, -⟩ := (mem_deliveredTo valid).mp mem
  have sent := (send_delivered_iff valid.network msg).mpr ⟨hits, room⟩
  exact delivered_by_owner valid.network route.1 route.2.1 route.2.2 sent

lemma attempt_junked (valid : sys.Valid) {msg : Message Token} (output : call.op.message = some msg)
    (pkt : (sys.chanends call.chanend).inPacket = true) (junk : (sys.chanends call.chanend).junkPacket = true) :
    (sys.attempt via call).2 = .continued 0 ∧ (∀ d, sys.deliveredTo via d call = []) ∧
      (msg.closes = true → ((sys.execute via call).chanends call.chanend).inPacket = false) := by
  have inUse := (valid.accepting call.chanend).symm.trans (valid.network.active call.chanend pkt)
  obtain ⟨sends, res⟩ := attempt_send via output inUse
  have drop : sys.network.send .. = _ := send_junked chanendBufferSize pkt junk
    (sys.target via call.chanend) msg
  refine ⟨by simp [res, drop, ofOutcome, ResOpResult.map], fun d => ?_, fun closes => ?_⟩
  · rw [deliveredTo_send valid output res d]
    simp [delivered, drop]
  · have post : (sys.execute via call).network = sys.network.dropMessage call.chanend msg := by
      rw [execute_network, sends, drop]
    have view : ((sys.execute via call).chanends call.chanend).inPacket =
      ((sys.execute via call).network call.chanend).inPacket := rfl
    simp [view, post, Network.dropMessage, closes, Network.change_apply]

lemma attempt_refused (valid : sys.Valid) {msg : Message Token} (output : call.op.message = some msg)
    (inUse : (sys.chanends call.chanend).inUse = true) (idle : (sys.chanends call.chanend).inPacket = false)
    (refused : ∀ d, sys.target via call.chanend = some d → (sys.chanends d).inUse = false) :
    (sys.attempt via call).2 = .continued 0 ∧ (∀ d, sys.deliveredTo via d call = []) ∧
      (msg.closes = false → ((sys.execute via call).chanends call.chanend).inPacket = true ∧
        ((sys.execute via call).chanends call.chanend).junkPacket = true) := by
  obtain ⟨sends, res⟩ := attempt_send via output inUse
  have closed (d : Nat) (named : sys.target via call.chanend = some d) :
      (sys.network d).accepting = false := (valid.accepting d).trans (refused d named)
  have drop := send_refused chanendBufferSize idle closed msg
  refine ⟨by simp [res, drop.1, ofOutcome, ResOpResult.map], fun d => ?_, fun goesOn => ?_⟩
  · rw [deliveredTo_send valid output res d]
    simp [delivered, drop.1]
  · have post := drop.2 goesOn
    rw [← sends, ← execute_network] at post
    exact post

lemma inWord_of_front {word val : BitVec 32} {t d : Nat} {rest : List Token}
    (front : (sys.chanends d).buf = (wordBytes word).map (⟨·, false⟩) ++ rest)
    (reads : (sys.attempt via ⟨t, d, .inWord⟩).2 = .continued val) : val = word := by
  have eff : Effect via sys ⟨t, d, .inWord⟩ _ _ := attempt_effect
  cases eff with
  | send msg output => simp [ChanOp.message] at output
  | allocate op => simp at op
  | retire op => simp at op
  | take other _ available _ done =>
    obtain rfl : other = val := by simpa [reads] using done.symm
    have bytes : wordBytes other = wordBytes word := by
      rw [front] at available
      simpa [inputTokens, wordBytes] using available
    exact wordBytes_injective bytes
  | refuse _ partly => exact absurd reads (partly val)

end

section

variable (via : Routing)

def runCalls (sys : System) (calls : List ChanCall) : System := calls.foldl (execute via) sys

def deliveries (sys : System) (d : Nat) (calls : List ChanCall) : List Token :=
  Runs.collect (execute via) (deliveredTo via d) sys calls

def consumption (sys : System) (d : Nat) (calls : List ChanCall) : List Token :=
  Runs.collect (execute via) (consumedFrom via d) sys calls

variable {via} {sys : System}

lemma runCalls_append (fst snd : List ChanCall) :
    sys.runCalls via (fst ++ snd) = (sys.runCalls via fst).runCalls via snd := by
  simp [runCalls]

variable (via) in
lemma consumption_balance (free : sys.Unallocated) (calls : List ChanCall) (d : Nat) :
    sys.consumption via d calls ++ ((sys.runCalls via calls).chanends d).buf = sys.deliveries via d calls := by
  have balance := Runs.collect_balance Valid (fun sys => (sys.chanends d).buf)
    (fun _ call (valid : Valid _) => valid.execute call)
    (fun _ call valid => execute_stream via valid call d) free.valid calls
  rw [free d] at balance
  exact balance

/-- A word output to `d` comes back as the same word, if the input starts where the output did. -/
lemma word_round_trip (free : sys.Unallocated) (calls during : List ChanCall) {t u s d : Nat}
    {word val : BitVec 32} (sent : (((sys.runCalls via calls).attempt via ⟨t, s, .out word⟩).2 =
      .continued 0)) (dest : (sys.runCalls via calls).packetDest via s = some d)
    (al : (sys.consumption via d (calls ++ ⟨t, s, .out word⟩ :: during)).length =
      (sys.deliveries via d calls).length)
    (reads : ((sys.runCalls via (calls ++ ⟨t, s, .out word⟩ :: during)).attempt via
      ⟨u, d, .inWord⟩).2 = .continued val) : val = word := by
  have balance := consumption_balance via free (calls ++ ⟨t, s, .out word⟩ :: during) d
  have delivered : (sys.runCalls via calls).deliveredTo via d ⟨t, s, .out word⟩ =
      (wordBytes word).map (⟨·, false⟩) := by
    simp [deliveredTo, ChanOp.message, sent, dest, dataMessage]
  have split : sys.deliveries via d (calls ++ ⟨t, s, .out word⟩ :: during) =
      sys.deliveries via d calls ++ ((wordBytes word).map (⟨·, false⟩) ++
        ((sys.runCalls via calls).execute via ⟨t, s, .out word⟩).deliveries via d during) := by
    rw [deliveries, Runs.collect_append, Runs.collect, ← delivered]
    rfl
  rw [split] at balance
  exact inWord_of_front (List.append_inj_right balance al) reads

lemma incomplete_input {call : ChanCall} (input : call.op.message = none)
    (partly : ∀ val, (sys.attempt via call).2 ≠ .continued val) (d : Nat) :
    ((sys.execute via call).chanends d).buf = (sys.chanends d).buf := by
  have eff : Effect via sys call _ _ := attempt_effect
  have same : (sys.execute via call).network = sys.network := by
    rw [execute_network]
    cases eff with
    | send msg output => simp [input] at output
    | allocate _ _ _ done => exact absurd done (partly 0)
    | retire _ _ _ done => exact absurd done (partly 0)
    | take val _ _ _ done => exact absurd done (partly val)
    | refuse _ _ unchanged => exact unchanged
  exact congrArg (fun net => (net d).buf) same

variable (via) in
theorem channel_protocol (unallocated : sys.Unallocated) (calls : List ChanCall) :
    -- What was read and what is still in the buffer is what was delivered, in that order.
    (∀ d, sys.consumption via d calls ++ ((sys.runCalls via calls).chanends d).buf = sys.deliveries via d calls) ∧
    -- From an open route on, until it ends, only its source delivers.
    (∀ (s d : Nat) (during : List ChanCall) (call : ChanCall), (sys.runCalls via calls).HasRoute s d →
      Runs.Meets (execute via) (fun sys call => ¬ sys.EndsPacket via s call) (sys.runCalls via calls) during →
      (sys.runCalls via (calls ++ during)).deliveredTo via d call ≠ [] → call.chanend = s) ∧
    (∀ d, ((sys.runCalls via calls).chanends d).buf.length ≤ 8) ∧
    -- An input that does not complete takes nothing.
    (∀ call : ChanCall, call.op.message = none →
      (∀ val, ((sys.runCalls via calls).attempt via call).2 ≠ .continued val) →
      ∀ d, (((sys.runCalls via calls).execute via call).chanends d).buf = ((sys.runCalls via calls).chanends d).buf) ∧
    -- A word that is output here and read later comes back as it was.
    (∀ (t s d u : Nat) (word val : BitVec 32) (during : List ChanCall),
      ((sys.runCalls via calls).attempt via ⟨t, s, .out word⟩).2 = .continued 0 →
      (sys.runCalls via calls).packetDest via s = some d →
      (sys.consumption via d (calls ++ ⟨t, s, .out word⟩ :: during)).length = (sys.deliveries via d calls).length →
      ((sys.runCalls via (calls ++ ⟨t, s, .out word⟩ :: during)).attempt via
        ⟨u, d, .inWord⟩).2 = .continued val → val = word) ∧
    -- A packet opened to a channel end that is not in use is dropped as a whole.
    (∀ (fst : ChanCall) (msg : Message Token), fst.op.message = some msg →
      ((sys.runCalls via calls).chanends fst.chanend).inUse = true →
      ((sys.runCalls via calls).chanends fst.chanend).inPacket = false →
      (∀ d, (sys.runCalls via calls).target via fst.chanend = some d →
        ((sys.runCalls via calls).chanends d).inUse = false) →
      ((sys.runCalls via calls).attempt via fst).2 = .continued 0 ∧
      (∀ d, (sys.runCalls via calls).deliveredTo via d fst = []) ∧
      (msg.closes = false → ∀ (during : List ChanCall) (later : ChanCall) (next : Message Token),
        Runs.Meets (execute via) (fun sys call => ¬ sys.EndsPacket via fst.chanend call)
          (sys.runCalls via (calls ++ [fst])) during → later.chanend = fst.chanend → later.op.message = some next →
        ((sys.runCalls via (calls ++ fst :: during)).attempt via later).2 = .continued 0 ∧
        (∀ d, (sys.runCalls via (calls ++ fst :: during)).deliveredTo via d later = []) ∧
        (next.closes = true → (((sys.runCalls via (calls ++ fst :: during)).execute via
          later).chanends fst.chanend).inPacket = false))) := by
  have valid : (sys.runCalls via calls).Valid := valid_run via unallocated.valid calls
  refine ⟨consumption_balance via unallocated calls, ?_, fun d => valid.network.bounded d,
    fun call input partly => incomplete_input input partly, ?_, ?_⟩
  · intro s d during call route stays delivers
    have same := packetState_run valid route.1 stays
    rw [runCalls_append] at delivers
    have later : ((sys.runCalls via calls).runCalls via during).HasRoute s d := by
      simp only [packetState, Prod.mk.injEq] at same
      exact ⟨same.1.trans route.1, same.2.1.trans route.2.1, same.2.2.trans route.2.2⟩
    exact delivered_on_route (valid_run via valid during) later delivers
  · intro t s d u word val during
    exact word_round_trip unallocated calls during
  · intro fst msg output inUse idle refused
    obtain ⟨completes, nothing, dropped⟩ := attempt_refused valid output inUse idle refused
    refine ⟨completes, nothing, fun goesOn during later next stays own nextOutput => ?_⟩
    obtain ⟨packet, junk⟩ := dropped goesOn
    rw [runCalls_append] at stays
    have post : ((sys.runCalls via calls).execute via fst).Valid := valid.execute fst
    have same := packetState_run post packet stays
    have split : sys.runCalls via (calls ++ fst :: during) =
        during.foldl (execute via) ((sys.runCalls via calls).execute via fst) := by
      rw [runCalls_append]
      rfl
    simp only [packetState, Prod.mk.injEq] at same
    rw [split, ← own]
    rw [← own] at same packet junk
    exact attempt_junked (valid_run via post during) nextOutput (same.1.trans packet) (same.2.1.trans junk)

end

/-- Identifiers on a node of their own: the number of the channel end is in bits 8 to 15. -/
def routeByNumber : Routing := fun _ id => some (id.extractLsb' 8 8).toNat

def wordRun : List ChanCall :=
  [⟨0, 0, .alloc⟩, ⟨1, 1, .alloc⟩, ⟨1, 1, .inWord⟩, ⟨0, 0, .setd 0x102⟩, ⟨0, 0, .out 0xcafe0123⟩, ⟨0, 0, .outct ctEnd⟩,
    ⟨1, 1, .inWord⟩]

theorem channel_protocol_wordRun : initial.Unallocated ∧
    initial.consumption routeByNumber 1 wordRun ++ ((initial.runCalls routeByNumber wordRun).chanends 1).buf =
      initial.deliveries routeByNumber 1 wordRun ∧
    initial.consumption routeByNumber 1 wordRun = (wordBytes 0xcafe0123).map (⟨·, false⟩) ∧
    ((initial.runCalls routeByNumber wordRun).chanends 1).buf = [⟨ctEnd, true⟩] :=
  ⟨fun _ => rfl, (channel_protocol routeByNumber (fun _ => rfl) wordRun).1 1, by decide, by decide⟩

end Axe.System
