import Axe.Switch.ResponseRoom

/-! Who sent the tokens of a request. The claim on a switch keeps the packets of different
channel ends apart, but a PAUSE gives the claim up and leaves the tokens with the switch. -/

namespace Axe

open Function List

open SwitchedSystem

open PacketNetwork (Network)

def noted (sent : List (Nat × Token)) (s : Nat) : Delivered → List (Nat × Token)
  | .ctrlToken value => if value = ctEnd then [] else if value = ctPause then sent else sent ++ [(s, ⟨value, true⟩)]
  | toks => sent ++ toks.tokens.map (s, ·)

lemma noted_tokens (sent : List (Nat × Token)) (s : Nat) (toks : Delivered) :
    (noted sent s toks).map Prod.snd = sinceEnd (sent.map Prod.snd) toks := by
  cases toks with
  | ctrlToken value =>
    simp only [noted, sinceEnd]
    split
    · rfl
    · split
      · rfl
      · rw [map_append, map_singleton]
  | dataToken value => simp [noted, sinceEnd, Delivered.tokens]
  | dataTokens vals => simp [noted, sinceEnd, Delivered.tokens]

structure SenderRun where
  state : SwitchedSystem
  sent : Nat → List (Nat × Token)

namespace SenderRun

variable (topo : Topology)

def next (run : SenderRun) (call : ChanCall) : Option SenderRun :=
  (run.state.execute topo call).map fun post =>
    if (topo.switchOf call.chanend).isSome then { run with state := post }
    else
      match run.state.arrives topo call with
      | some (n, toks) =>
        { state := post, sent := Function.update run.sent n (noted (run.sent n) call.chanend toks) }
      | none => { run with state := post }

def step (run : Option SenderRun) (call : ChanCall) : Option SenderRun := run.bind fun run => run.next topo call

/-- The instruction ends a packet to the switch of node `n`, which takes what it has received for a request. -/
def Handles (run : SenderRun) (call : ChanCall) (n : Nat) (req : Request) : Prop :=
  topo.switchOf call.chanend = none ∧
    run.state.arrives topo call = some (n, .ctrlToken ctEnd) ∧ (run.state.receivers n).request = some req

/-- A request that is handled consists of tokens that the sender of its END has sent. -/
def FromOneSender (run : SenderRun) : Prop :=
  ∀ call n req, run.Handles topo call n req →
    Spells ((run.sent n).map Prod.snd) req ∧ ∀ entry ∈ run.sent n, entry.1 = call.chanend

/-- A PAUSE reaches a switch only while it holds no part of a request. -/
def PausesBetween (run : SenderRun) (call : ChanCall) : Prop :=
  ∀ n, run.state.arrives topo call = some (n, .ctrlToken ctPause) →
    (run.state.receivers n).buf = [] ∨ (run.state.receivers n).junkIncomingTokens = true

structure Initial (run : SenderRun) : Prop where
  state : run.state.Initial topo
  sent : ∀ n, run.sent n = []

structure Inv (run : SenderRun) : Prop where
  valid : run.state.Valid topo
  holds : ∀ n, (run.state.receivers n).Holds ((run.sent n).map Prod.snd)
  source : ∀ n, (run.state.receivers n).junkIncomingTokens = false → ∀ entry ∈ run.sent n,
    (run.state.sys.chanends (topo.switchEnd n)).source = some entry.1

variable {topo} {run post : SenderRun} {call : ChanCall} {n : Nat} {toks : Delivered}

lemma Initial.inv (init : run.Initial topo) : run.Inv topo := by
  refine ⟨init.state.valid, fun n => ?_, fun n _ entry mem => ?_⟩
  · rw [init.state.receivers, init.sent]
    exact .initial
  · rw [init.sent] at mem
    cases mem

lemma Inv.same_sender (inv : run.Inv topo) (arrives : run.state.arrives topo call = some (n, toks))
    (open_ : (run.state.receivers n).junkIncomingTokens = false) : ∀ entry ∈ run.sent n, entry.1 = call.chanend := by
  intro entry mem
  have pre := inv.source n open_ entry mem
  have ready := (arrival inv.valid arrives).ready
  have opens := PacketNetwork.openTo_opening run.state.sys.network call.chanend
    (run.state.sys.target (topo.getChanendDest run.state.nodes) call.chanend)
  obtain same | ⟨free, -, -⟩ := opens.source (topo.switchEnd n)
  · have now : (run.state.sys.network (topo.switchEnd n)).source = some call.chanend :=
      same.symm.trans ready.source
    exact Option.some.inj (pre.symm.trans now)
  · cases pre.symm.trans free

lemma Inv.fromOneSender (inv : run.Inv topo) : run.FromOneSender topo := by
  rintro call n req ⟨-, arrives, isRequest⟩
  have open_ : (run.state.receivers n).junkIncomingTokens = false := by
    unfold Receiver.request at isRequest
    split at isRequest
    · cases isRequest
    · rename_i kept
      simpa using kept
  exact ⟨((inv.holds n).request_eq_some_iff req).mp isRequest, inv.same_sender arrives open_⟩

lemma junk_receive {receiver : Receiver} (goes : toks ≠ .ctrlToken ctEnd)
    (junked : receiver.junkIncomingTokens = true) : (receiver.receive toks).junkIncomingTokens = true := by
  cases toks with
  | dataToken value => simp [Receiver.receive, Receiver.receiveDataToken, Receiver.pushToken, junked]
  | dataTokens vals => simp [Receiver.receive, Receiver.receiveDataTokens, junked]
  | ctrlToken value =>
    have notEnd : value ≠ ctEnd := fun same => goes (congrArg _ same)
    simp [Receiver.receive, Receiver.receiveCtrlToken, Receiver.pushToken, junked, notEnd]

lemma mem_noted {sent : List (Nat × Token)} {s : Nat} {entry : Nat × Token} (mem : entry ∈ noted sent s toks) :
    entry ∈ sent ∨ entry.1 = s := by
  cases toks with
  | ctrlToken value =>
    simp only [noted] at mem
    split at mem
    · cases mem
    · split at mem
      · exact .inl mem
      · exact (mem_append.mp mem).imp_right fun last => by rw [mem_singleton.mp last]
  | dataToken value =>
    obtain old | ⟨token, -, rfl⟩ := (mem_append.mp mem).imp_right mem_map.mp
    · exact .inl old
    · exact .inr rfl
  | dataTokens vals =>
    obtain old | ⟨token, -, rfl⟩ := (mem_append.mp mem).imp_right mem_map.mp
    · exact .inl old
    · exact .inr rfl

section

variable {st : SwitchedSystem} (inv : run.Inv topo)
  (arrives : run.state.arrives topo call = some (n, toks))
  (delivered : run.state.deliver topo call n toks = some st)

include delivered in
lemma source_elsewhere {m s : Nat} (other : m ≠ n)
    (own : (run.state.sys.chanends (topo.switchEnd m)).source = some s) :
    (st.sys.chanends (topo.switchEnd m)).source = some s := by
  obtain ⟨⟨mid, answers, net⟩, -, -⟩ := deliver_network delivered
  have opens := PacketNetwork.openTo_opening run.state.sys.network call.chanend
    (run.state.sys.target (topo.getChanendDest run.state.nodes) call.chanend)
  have apart : topo.switchEnd m ≠ topo.switchEnd n := by
    intro same
    have found := topo.switchOf_eq_some.mpr same
    rw [topo.switchOf_eq_some.mpr rfl] at found
    exact other (Option.some.inj found)
  have view : (st.sys.chanends (topo.switchEnd m)).source = (st.sys.network (topo.switchEnd m)).source := rfl
  rw [view, net, (PacketNetwork.deliver_delivery ..).source, if_neg fun both => apart both.2, answers.source]
  obtain same | ⟨free, -, -⟩ := opens.source (topo.switchEnd m)
  · exact same.trans own
  · cases own.symm.trans free

include inv arrives delivered

lemma source_here (goes : toks.closes = false) :
    (st.sys.chanends (topo.switchEnd n)).source = some call.chanend := by
  obtain ⟨⟨mid, answers, net⟩, -, -⟩ := deliver_network delivered
  have ready := (arrival inv.valid arrives).ready
  have view : (st.sys.chanends (topo.switchEnd n)).source = (st.sys.network (topo.switchEnd n)).source := rfl
  have stays : ¬((silent toks.closes).closes = true ∧ topo.switchEnd n = topo.switchEnd n) := by
    rw [goes]
    exact fun both => Bool.false_ne_true both.1
  rw [view, net, (PacketNetwork.deliver_delivery ..).source, if_neg stays, answers.source]
  exact ready.source

lemma Inv.deliver (isChanend : topo.switchOf call.chanend = none) (pauses : run.PausesBetween topo call) : Inv topo
      { state := st, sent := update run.sent n (noted (run.sent n) call.chanend toks) } := by
  obtain ⟨-, -, receivers⟩ := deliver_network delivered
  have arrival := arrival inv.valid arrives
  refine ⟨inv.valid.deliver isChanend arrival delivered, fun m => ?_, fun m open_ entry mem => ?_⟩
  · dsimp only
    rw [receivers]
    by_cases here : m = n
    · subst here
      rw [update_self, update_self, noted_tokens]
      exact (inv.holds m).receive toks
    · rw [update_of_ne here, update_of_ne here]
      exact inv.holds m
  · dsimp only at open_ mem ⊢
    rw [receivers] at open_
    by_cases here : m = n
    · subst here
      rw [update_self] at open_ mem
      by_cases isEnd : toks = .ctrlToken ctEnd
      · subst isEnd
        cases mem
      have wasOpen : (run.state.receivers m).junkIncomingTokens = false := by
        cases junked : (run.state.receivers m).junkIncomingTokens with
        | false => rfl
        | true => exact (junk_receive isEnd junked).symm.trans open_
      by_cases isPause : toks = .ctrlToken ctPause
      · subst isPause
        -- The claim is given up, so nothing may be left of the packet.
        have empty : (run.state.receivers m).buf = [] := by
          obtain empty | junked := pauses m arrives
          · exact empty
          · cases wasOpen.symm.trans junked
        have nil : run.sent m = [] := map_eq_nil_iff.mp (((inv.holds m).held wasOpen).symm.trans empty)
        have stays : noted (run.sent m) call.chanend (.ctrlToken ctPause) = run.sent m := rfl
        rw [stays, nil] at mem
        cases mem
      · have goes : toks.closes = false := Delivered.closes_eq_false isEnd isPause
        rw [source_here inv arrives delivered goes]
        obtain old | new := mem_noted mem
        · rw [inv.same_sender arrives wasOpen entry old]
        · rw [new]
    · rw [update_of_ne here] at open_ mem
      exact source_elsewhere delivered here (inv.source m open_ entry mem)

end

lemma stays_of_unreached (inv : run.Inv topo) (unreached : run.state.arrives topo call = none)
    {label : PacketNetwork.Label Nat Token}
    (ref : run.state.sys.Refines (topo.getChanendDest run.state.nodes) call label) (n : Nat) :
    ∀ sender target message, label = .send sender target message →
      (run.state.sys.network.send chanendBufferSize sender target message).2 ≠ .delivered (topo.switchEnd n) := by
  intro sender target message isSend delivered
  have stands := ref.stands
  rw [isSend] at stands
  cases stands with
  | send _ out inUse outcome =>
    obtain ⟨toks, arrives⟩ := arrives_of_delivered inv.valid inUse out delivered
    cases unreached.symm.trans arrives

lemma Inv.next (inv : run.Inv topo) (pauses : run.PausesBetween topo call)
    (stepped : run.next topo call = some post) : post.Inv topo := by
  obtain ⟨st, ran, rfl⟩ := Option.map_eq_some_iff.mp stepped
  have valid := inv.valid.execute ran
  unfold execute at ran
  split at ran
  · rename_i isSwitch
    obtain rfl := Option.some.inj ran
    rw [if_pos isSwitch]
    exact inv
  · rename_i notSwitch
    rw [if_neg notSwitch]
    have isEnd : topo.switchOf call.chanend = none := by simpa using notSwitch
    cases reach : run.state.arrives topo call with
    | some arrival =>
      rw [reach] at ran
      exact inv.deliver reach ran isEnd pauses
    | none =>
      rw [reach] at ran
      obtain rfl := Option.some.inj ran
      refine ⟨valid, inv.holds, fun n open_ entry mem => ?_⟩
      obtain ⟨label, ref⟩ := System.execute_refines (topo.getChanendDest run.state.nodes) call inv.valid.sys
      have kept := PacketNetwork.step_source inv.valid.sys.network (inv.source n open_ entry mem)
        (stays_of_unreached inv reach ref n)
      rw [← ref.network] at kept
      exact kept

lemma step_none (calls : List ChanCall) : calls.foldl (step topo) none = none := by
  induction calls with
  | nil => rfl
  | cons call calls ih => exact ih

variable (topo) in
def Pauses (run : Option SenderRun) (call : ChanCall) : Prop := ∀ now, run = some now → now.PausesBetween topo call

lemma Inv.reached (inv : run.Inv topo) {calls : List ChanCall}
    (pauses : Runs.Meets (step topo) (Pauses topo) (some run) calls)
    (reach : calls.foldl (step topo) (some run) = some post) : post.Inv topo := by
  induction calls generalizing run with
  | nil =>
    obtain rfl := Option.some.inj reach
    exact inv
  | cons call calls ih =>
    obtain ⟨first, rest⟩ := pauses
    rw [foldl_cons] at reach
    cases stepped : run.next topo call with
    | none =>
      have failed : step topo (some run) call = none := stepped
      rw [failed, step_none] at reach
      cases reach
    | some next =>
      have going : step topo (some run) call = some next := stepped
      rw [going] at reach rest
      exact ih (inv.next (first run rfl) stepped) rest reach

/-- Where switches get no PAUSE in the middle of a request, every request that is handled comes from one sender. -/
theorem requests_from_one_sender (topo : Topology) (run : SenderRun) (initial : run.Initial topo)
    (calls : List ChanCall) (pauses : Runs.Meets (step topo) (Pauses topo) (some run) calls)
    (passed : List ChanCall) (isPassed : passed <+: calls) (post : SenderRun)
    (reach : passed.foldl (step topo) (some run) = some post) : post.FromOneSender topo := by
  obtain ⟨rest, rfl⟩ := isPassed
  exact (initial.inv.reached ((Runs.meets_append _ _ _).mp pauses).1 reach).fromOneSender

lemma pauses_of_op (notPause : call.op ≠ .outct ctPause) (run : Option SenderRun) : Pauses topo run call := by
  intro now _ n arrives
  have out : call.op.delivered = some (.ctrlToken ctPause) := by
    unfold SwitchedSystem.arrives at arrives
    dsimp only at arrives
    split at arrives
    · rename_i found _ isOutput _
      split at arrives
      · obtain ⟨-, rfl⟩ := Prod.mk.inj (Option.some.inj arrives)
        exact isOutput
      · cases arrives
    · cases arrives
  cases op : call.op with
  | outct value =>
    rw [op] at out notPause
    cases out
    exact absurd rfl notPause
  | _ =>
    rw [op] at out
    cases out

lemma meets_of_noPause {calls : List ChanCall} (noPause : ∀ call ∈ calls, call.op ≠ .outct ctPause)
    (run : Option SenderRun) : Runs.Meets (step topo) (Pauses topo) run calls :=
  Runs.meets_of_prefix fun _ call isPrefix => pauses_of_op (noPause call (isPrefix.subset (by simp))) _

def twoSenders : List ChanCall :=
  [⟨0, 0, .alloc⟩, ⟨0, 0, .setd 0xc30c⟩, ⟨1, 2, .alloc⟩, ⟨1, 2, .setd 0xc30c⟩]

def started : SenderRun := ⟨start, fun _ => []⟩

lemma started_initial : started.Initial dualCoreEnds := ⟨start_initial, fun _ => rfl⟩

def readSent : List ChanCall := [⟨0, 0, .outct ctReadc⟩, ⟨0, 0, .out 0⟩, ⟨0, 0, .outt 5⟩]

/-- A request is answered, the other channel end sends a PAUSE, and the request is sent again. -/
def sentTwice : List ChanCall :=
  (twoSenders ++ readSent ++ [⟨0, 0, .outct ctEnd⟩]) ++ ⟨1, 2, .outct ctPause⟩ :: readSent

theorem requests_from_one_sender_readSent : ∃ post, sentTwice.foldl (step dualCoreEnds) (some started) = some post ∧
      post.Handles dualCoreEnds ⟨0, 0, .outct ctEnd⟩ 0 ⟨false, 0, 0, 5, 0⟩ ∧ post.FromOneSender dualCoreEnds := by
  refine ⟨_, rfl, ⟨rfl, rfl, rfl⟩, ?_⟩
  refine requests_from_one_sender _ started started_initial sentTwice ?_ _ (List.prefix_refl _) _ rfl
  refine (Runs.meets_append _ _ _).mpr ⟨meets_of_noPause (by decide) _, ?_, meets_of_noPause (by decide) _⟩
  intro now reach n arrives
  cases reach
  have first : some (0, Delivered.ctrlToken ctPause) = some (n, Delivered.ctrlToken ctPause) := arrives
  cases first
  exact .inl rfl

def mixed : List ChanCall := [⟨0, 0, .outct ctReadc⟩, ⟨0, 0, .outct ctPause⟩, ⟨1, 2, .out 0⟩, ⟨1, 2, .outt 5⟩]

theorem mixed_request : ∃ post, (twoSenders ++ mixed).foldl (step dualCoreEnds) (some started) = some post ∧
      ¬post.FromOneSender dualCoreEnds := by
  refine ⟨_, rfl, fun fromOne => ?_⟩
  obtain ⟨-, same⟩ := fromOne ⟨1, 2, .outct ctEnd⟩ 0 ⟨false, 0, 0, 5, 0⟩ ⟨rfl, rfl, rfl⟩
  have first := same (0, ⟨ctReadc, true⟩) List.mem_cons_self
  cases first

end SenderRun

end Axe
