import Axe.Channel.Delivery
import Axe.Channel.Waits

/-! When a thread that waits for input is woken. The condition under which tokens
wake it is written apart from the conditions under which the instructions wait. -/

namespace Axe

open PacketNetwork (Message)

def Chanend.inputSide (ch : Chanend) : Option Nat × Bool := (ch.pausedIn, ch.waitForWord)

def Chanend.afterArrival (ch : Chanend) (toks : List Token) : Option Nat × Bool :=
  if toks = [] ∨ (ch.waitForWord = true ∧ (ch.buf ++ toks).length < 4) then ch.inputSide
  else (none, ch.waitForWord)

namespace System

def Disabled (sys : System) : Prop := ∀ c, (sys.chanends c).events.eventsEnabled = false

section

variable {via : Routing} {sys : System} {s t room : Nat} (c d e time : Nat)

section

variable (off : sys.Disabled)
include off

lemma Disabled.not_permitted : sys.eventsPermitted (sys.chanends c).events = false := by
  unfold eventsPermitted
  split
  · rfl
  · simp [off c]

lemma Disabled.of_settings {post : System}
    (cfg : ∀ e, (post.chanends e).settings = (sys.chanends e).settings) : post.Disabled := by
  intro e
  have same := cfg e
  simp only [Chanend.settings, Prod.mk.injEq] at same
  rw [same.2.2.2, off e]

lemma Disabled.execute (call : ChanCall) : (sys.execute via call).Disabled := by
  intro c
  have before := off c
  have upd := sys.execute_settings c via call
  generalize same : ((sys.execute via call).chanends c).settings = cfg at upd
  simp only [Chanend.settings] at same
  cases upd <;> grind [Chanend.settings]

lemma Disabled.undisturbed : sys.Undisturbed := by
  intro c t legal
  have never : sys.eventsPermitted (sys.eventable (.chanend c)) = false := off.not_permitted c
  simp [permits, never] at legal

end

lemma release_inputSide : ((sys.release d time).chanends e).inputSide = (sys.chanends e).inputSide :=
  release_field d e time fun _ _ _ _ => rfl

lemma release_buf : ((sys.release d time).chanends e).buf = (sys.chanends e).buf :=
  release_field d e time fun _ _ _ _ => rfl

lemma updateAfterToken_inputSide (off : sys.Disabled) : ((sys.updateAfterToken d time).chanends e).inputSide =
      if e = d ∧ ¬ ((sys.chanends d).waitForWord = true ∧ (sys.chanends d).buf.length < 4) then
        (none, (sys.chanends d).waitForWord)
      else (sys.chanends e).inputSide := by
  unfold updateAfterToken
  simp only [off.not_permitted, Bool.false_eq_true, if_false]
  split
  · rename_i none
    by_cases here : e = d
    · subst here
      simp [Chanend.inputSide, none]
    · simp [here]
  · rename_i t held
    by_cases here : e = d
    · subst here
      by_cases short : (sys.chanends e).waitForWord = true ∧ (sys.chanends e).buf.length < 4
      · simp [short]
      · have wakes : ((sys.chanends e).waitForWord && decide ((sys.chanends e).buf.length < 4)) = false := by
          simpa using short
        simp [wakes, short, updateChanend, Chanend.inputSide]
    · split <;> simp [here, updateChanend]

lemma arrival_inputSide {push : System} (off : push.Disabled) {toks : List Token} (some : toks ≠ [])
    (side : ∀ e, (push.chanends e).inputSide = (sys.chanends e).inputSide)
    (buf : (push.chanends d).buf = (sys.chanends d).buf ++ toks) :
    ((push.updateAfterToken d time).chanends e).inputSide =
      if e = d then (sys.chanends d).afterArrival toks else (sys.chanends e).inputSide := by
  have word : (push.chanends d).waitForWord = (sys.chanends d).waitForWord := congrArg Prod.snd (side d)
  rw [updateAfterToken_inputSide d e time off, buf, word]
  unfold Chanend.afterArrival
  by_cases here : e = d
  · subst here
    by_cases short : (sys.chanends e).waitForWord = true ∧ ((sys.chanends e).buf ++ toks).length < 4
    · simp only [short, side, and_self, not_true, and_false, if_false, or_true, if_true]
    · simp only [short, some, or_self, if_false, not_false_iff, and_self, if_true]
  · simp only [here, false_and, if_false, side]

lemma pushTokens_inputSide (toks : List Token) :
    ((sys.pushTokens d toks).chanends e).inputSide = (sys.chanends e).inputSide :=
  updateChanend_field d e fun _ _ => rfl

lemma pushTokens_buf (toks : List Token) :
    ((sys.pushTokens d toks).chanends d).buf = (sys.chanends d).buf ++ toks := by
  simp [pushTokens, updateChanend]

lemma receiveDataTokens_inputSide (off : sys.Disabled) {vals : List (BitVec 8)} (some : vals ≠ []) :
    ((sys.receiveDataTokens d time vals).chanends e).inputSide =
      if e = d then (sys.chanends d).afterArrival (dataMessage vals).tokens else (sys.chanends e).inputSide := by
  apply arrival_inputSide
  · exact off.of_settings fun _ => pushTokens_settings ..
  · simpa [dataMessage] using some
  · exact fun e => pushTokens_inputSide d e _
  · exact pushTokens_buf d _

lemma receiveCtrlToken_inputSide (off : sys.Disabled) (val : BitVec 8) :
    ((sys.receiveCtrlToken d time val).chanends e).inputSide =
      if e = d then (sys.chanends d).afterArrival (ctrlMessage val).tokens else (sys.chanends e).inputSide := by
  unfold receiveCtrlToken
  by_cases isEnd : val = ctEnd
  · have other : ctEnd ≠ ctPause := by decide
    subst isEnd
    simp only [if_true, ctrlMessage, other, if_false]
    apply arrival_inputSide
    · exact off.of_settings fun _ => by rw [release_settings, pushTokens_settings]
    · simp
    · intro e
      rw [release_inputSide, pushTokens_inputSide]
    · rw [release_buf, pushTokens_buf]
  · by_cases isPause : val = ctPause
    · subst isPause
      simp only [isEnd, if_false, if_true, ctrlMessage, release_inputSide]
      by_cases here : e = d
      · simp [here, Chanend.afterArrival]
      · simp [here]
    · simp only [isEnd, isPause, if_false, ctrlMessage]
      apply arrival_inputSide
      · exact off.of_settings fun _ => pushTokens_settings ..
      · simp
      · exact fun e => pushTokens_inputSide d e _
      · exact pushTokens_buf d _

lemma RouteResult.inputSide {res : System × Bool} (route : RouteResult via sys s res) :
    (res.1.chanends e).inputSide = (sys.chanends e).inputSide :=
  congrArg (·.2.1) (route.unrouted e)

lemma RouteResult.buf {res : System × Bool} (route : RouteResult via sys s res) :
    (res.1.chanends e).buf = (sys.chanends e).buf :=
  congrArg (·.2.2.2) (route.unrouted e)

/-- The tokens the completed output `result` of `s` brings to `d`. -/
def arrivals {Value : Type} (via : Routing) (sys : System) (s d : Nat) (msg : Message Token)
    (res : ResOpResult Value) : List Token :=
  match res with
  | .continued _ => if sys.packetDest via s = some d then msg.tokens else []
  | _ => []

lemma afterArrival_nil (ch : Chanend) : ch.afterArrival [] = ch.inputSide := by
  simp [Chanend.afterArrival]

lemma afterArrival_congr {ch other : Chanend} (side : ch.inputSide = other.inputSide) (buf : ch.buf = other.buf)
    (toks : List Token) : ch.afterArrival toks = other.afterArrival toks := by
  have word : ch.waitForWord = other.waitForWord := congrArg Prod.snd side
  simp only [Chanend.afterArrival, side, buf, word]

lemma SendResult.inputSide {junk : System → System} {deliver : System → Nat → System}
    {res : System × ResOpResult Unit} (send : SendResult via sys s t room junk deliver res)
    (off : sys.Disabled) {msg : Message Token}
    (drops : ∀ sys : System, ((junk sys).chanends d).inputSide = (sys.chanends d).inputSide)
    (sends : ∀ (sys : System) (e : Nat), sys.Disabled → ((deliver sys e).chanends d).inputSide =
      if d = e then (sys.chanends e).afterArrival msg.tokens else (sys.chanends d).inputSide) :
    (res.1.chanends d).inputSide = (sys.chanends d).afterArrival (arrivals via sys s d msg res.2) := by
  have held (post : System) : ((post.updateChanend s fun ch => { ch with pausedOut := some t }).chanends d).inputSide =
      (post.chanends d).inputSide := updateChanend_field s d fun _ _ => rfl
  have dest {post : System} {success : Bool} (route : sys.openRoute via s = (post, success)) :
      sys.packetDest via s = if (post.chanends s).junkPacket then none else (post.chanends s).dest := by
    rw [packetDest, route]
  cases send with
  | queued post route => simpa [held, arrivals, afterArrival_nil] using (RouteResult.of_eq route).inputSide d
  | full post _ route => simpa [held, arrivals, afterArrival_nil] using (RouteResult.of_eq route).inputSide d
  | junked post route drop =>
    have nowhere : sys.packetDest via s = none := by simp [dest route, drop]
    rw [drops, (RouteResult.of_eq route).inputSide]
    simp [arrivals, nowhere, afterArrival_nil]
  | adrift post route kept unset =>
    have nowhere : sys.packetDest via s = none := by simp [dest route, unset]
    rw [(RouteResult.of_eq route).inputSide]
    simp [arrivals, nowhere, afterArrival_nil]
  | delivered post e route kept toward =>
    have there : sys.packetDest via s = some e := by simp [dest route, kept, toward]
    have still : post.Disabled := off.of_settings fun c => (RouteResult.of_eq route).settings c
    have side := (RouteResult.of_eq route).inputSide d
    rw [sends post e still]
    by_cases here : d = e
    · subst here
      simp [arrivals, there, afterArrival_congr side ((RouteResult.of_eq route).buf d)]
    · simp [arrivals, there, here, Ne.symm here, afterArrival_nil, side]

lemma outct_inputSide (off : sys.Disabled) (val : BitVec 8) :
    ((sys.outct via t s time val).1.chanends d).inputSide = (sys.chanends d).afterArrival
      (arrivals via sys s d (ctrlMessage val) (sys.outct via t s time val).2) := by
  apply (sendTokens_result ..).inputSide d off
  · intro sys
    split
    · exact updateChanend_field s d fun _ _ => rfl
    · rfl
  · intro sys e off
    have got : ((sys.receiveCtrlToken e time val).chanends d).inputSide = _ :=
      receiveCtrlToken_inputSide e d time off val
    split
    · refine Eq.trans (updateChanend_field s d ?_) got
      exact fun _ _ => rfl
    · exact got

lemma arrivals_ofUnit (msg : Message Token) (res : System × ResOpResult Unit) :
    arrivals via sys s d msg (ofUnit res).2 = arrivals via sys s d msg res.2 := by
  obtain ⟨post, res⟩ := res
  cases res <;> rfl

variable (via) in
/-- An instruction on another channel end wakes the thread waiting here as the tokens it brings do. -/
lemma perform_inputSide (off : sys.Disabled) (call : ChanCall) (apart : d ≠ call.chanend) :
    ((sys.perform via call).1.chanends d).inputSide = (sys.chanends d).afterArrival
      (match call.op.message with
      | some msg => arrivals via sys call.chanend d msg (sys.perform via call).2
      | none => []) := by
  by_cases unsent : canEvent call.op = false ∨ (sys.chanends call.chanend).inUse = false
  · have away (post : System) (upd : Chanend → Chanend) :
        ((post.updateChanend call.chanend upd).chanends d).inputSide = (post.chanends d).inputSide :=
      updateChanend_field _ d fun here => absurd here apart
    have kept : ((sys.perform via call).1.chanends d).inputSide = (sys.chanends d).inputSide :=
      perform_keeps (fun post => (post.chanends d).inputSide = (sys.chanends d).inputSide) unsent rfl
        (fun _ _ => away ..) (fun _ => away ..) (fun _ _ => away ..) (fun _ => away ..)
        (fun _ _ => (away ..).trans (away ..))
        fun _ num same => Eq.trans (popTokens_field _ d _ num fun _ _ _ => rfl) same
    rw [kept, ← afterArrival_nil]
    congr 1
    obtain ⟨t, c, op⟩ := call
    cases op with
    | outt | out | outct =>
      have unused : (sys.chanends c).inUse = false := by simpa [canEvent] using unsent
      simp [perform, unused, arrivals, ChanOp.message]
    | _ => rfl
  · obtain ⟨t, c, op⟩ := call
    simp only [not_or, Bool.not_eq_false] at unsent
    rw [perform, if_pos unsent.2]
    cases op with
    | outt val | out val =>
      simp only [ChanOp.message, arrivals_ofUnit]
      exact (sendTokens_result ..).inputSide d off (fun _ => rfl) fun sys e off =>
        receiveDataTokens_inputSide e d _ off (by simp [wordBytes])
    | outct val =>
      simp only [ChanOp.message, arrivals_ofUnit]
      exact outct_inputSide d _ off val
    | _ => cases unsent.1

variable (via) in
lemma execute_inputSide (off : sys.Disabled) (call : ChanCall) (apart : d ≠ call.chanend) :
    ((sys.execute via call).chanends d).inputSide = (sys.chanends d).afterArrival (sys.deliveredTo via d call) := by
  have still : { sys with currentRunnable := some call.thread }.Disabled := off
  have side := perform_inputSide via d still call apart
  have same : { sys with currentRunnable := some call.thread }.packetDest via call.chanend =
      sys.packetDest via call.chanend := by
    rw [packetDest_network, packetDest_network]
    rfl
  rw [execute, finish_chanends]
  refine side.trans (congrArg _ ?_)
  unfold deliveredTo arrivals
  rw [same]
  cases call.op.message with
  | none => rfl
  | some msg =>
    unfold attempt
    cases (perform via { sys with currentRunnable := some call.thread } call).2 <;> rfl

end

section

def isInput : ChanOp → Bool
  | .intoken | .inct | .chkct _ | .inWord | .testct | .testwct => true
  | .alloc | .free | .setd _ | .outt _ | .out _ | .outct _ => false

def waitsForWord : ChanOp → Bool
  | .inWord | .testwct => true
  | .intoken | .inct | .chkct _ | .testct | .alloc | .free | .setd _ | .outt _ | .out _ | .outct _ => false

/-- An input has to wait: for any token, or for four of them unless one of those there is a control token. -/
def MustWait (op : ChanOp) (buf : List Token) : Prop :=
  if waitsForWord op then controlPosition buf = 0 ∧ buf.length < 4 else buf = []

variable (via : Routing) (sys : System) (t c time : Nat)

def Pauses (op : ChanOp) (res : System × ResOpResult (BitVec 32)) : Prop :=
  (res.2 = .deschedule ↔ MustWait op (sys.chanends c).buf) ∧
    (res.2 = .deschedule → (res.1.chanends c).inputSide = (some t, waitsForWord op))

lemma testct_none : (sys.testct t c).2 = none ↔ (sys.chanends c).buf = [] := by
  rw [(sys.testct_spec t c).2]
  simp

lemma testct_paused (empty : (sys.chanends c).buf = []) :
    ((sys.testct t c).1.chanends c).inputSide = (some t, false) := by
  have same : ((sys.setOwner t c).chanends c).buf = [] := by simpa [setOwner, updateChanend] using empty
  unfold testct
  dsimp only
  rw [same]
  simp [setPausedIn, updateChanend, Chanend.inputSide]

lemma testwct_none : (sys.testwct t c).2 = none ↔
    controlPosition (sys.chanends c).buf = 0 ∧ (sys.chanends c).buf.length < 4 := by
  rw [(sys.testwct_spec t c).2]
  split <;> simp_all

lemma testwct_paused (wait : controlPosition (sys.chanends c).buf = 0 ∧ (sys.chanends c).buf.length < 4) :
    ((sys.testwct t c).1.chanends c).inputSide = (some t, true) := by
  have same : ((sys.setOwner t c).chanends c).buf = (sys.chanends c).buf := by simp [setOwner, updateChanend]
  unfold testwct
  dsimp only
  rw [same]
  simp [wait, setPausedIn, updateChanend, Chanend.inputSide]

lemma inputToken_pauses (op : ChanOp) (one : waitsForWord op = false) (acc : Token → Bool) :
    Pauses sys t c op (sys.inputToken t c time acc) := by
  have test := sys.testct_none t c
  have held := sys.testct_paused t c
  have buf : ((sys.testct t c).1.chanends c).buf = (sys.chanends c).buf :=
    congrArg (fun net => (net c).buf) (sys.testct_spec t c).1
  unfold Pauses MustWait
  simp only [one, Bool.false_eq_true, if_false]
  unfold inputToken
  generalize sys.testct t c = res at test held buf ⊢
  obtain ⟨post, isCt⟩ := res
  cases isCt with
  | none =>
    have empty := test.mp rfl
    exact ⟨by simp [empty], fun _ => held empty⟩
  | some isCt =>
    simp only [reduceCtorEq, false_iff] at test
    dsimp only at buf ⊢
    rw [buf]
    cases toks : (sys.chanends c).buf with
    | nil => exact absurd toks test
    | cons token rest =>
      dsimp only
      split <;> simp

lemma inWord_pauses : Pauses sys t c .inWord (sys.inWord t c time) := by
  have test := sys.testwct_none t c
  have held := sys.testwct_paused t c
  unfold Pauses MustWait
  simp only [waitsForWord, if_true]
  unfold inWord
  generalize sys.testwct t c = res at test held ⊢
  obtain ⟨post, pos⟩ := res
  match pos with
  | none =>
    have wait := test.mp rfl
    exact ⟨by simp [wait], fun _ => held wait⟩
  | some 0 =>
    simp only [reduceCtorEq, false_iff] at test
    exact ⟨by simp [test], by simp⟩
  | some (_ + 1) =>
    simp only [reduceCtorEq, false_iff] at test
    exact ⟨by simp [test], by simp⟩

lemma perform_pauses (op : ChanOp) (input : isInput op = true) (inUse : (sys.chanends c).inUse = true) :
    Pauses sys t c op (sys.perform via ⟨t, c, op⟩) := by
  unfold perform
  simp only [inUse, if_true]
  cases op with
  | intoken | inct | chkct => exact sys.inputToken_pauses t c _ _ rfl _
  | inWord => exact sys.inWord_pauses t c _
  | testct =>
    have test := sys.testct_none t c
    have held := sys.testct_paused t c
    unfold Pauses MustWait ofTest
    simp only [waitsForWord, Bool.false_eq_true, if_false]
    cases found : (sys.testct t c).2 with
    | none =>
      have empty := test.mp found
      exact ⟨by simp [empty], fun _ => held empty⟩
    | some isCt =>
      simp only [found, reduceCtorEq, false_iff] at test
      exact ⟨by simp [test], by simp⟩
  | testwct =>
    have test := sys.testwct_none t c
    have held := sys.testwct_paused t c
    unfold Pauses MustWait ofTest
    simp only [waitsForWord, if_true]
    cases found : (sys.testwct t c).2 with
    | none =>
      have wait := test.mp found
      exact ⟨by simp [wait], fun _ => held wait⟩
    | some pos =>
      simp only [found, reduceCtorEq, false_iff] at test
      exact ⟨by simp [test], by simp⟩
  | alloc | free | setd | outt | out | outct => simp [isInput] at input

lemma attempt_waits (op : ChanOp) (input : isInput op = true) (inUse : (sys.chanends c).inUse = true) :
    Pauses sys t c op (sys.attempt via ⟨t, c, op⟩) :=
  perform_pauses via { sys with currentRunnable := some t } t c op input inUse

lemma attempt_inUse {call : ChanCall} (held : (sys.attempt via call).2 = .deschedule) :
    (sys.chanends call.chanend).inUse = true ∧ call.op ≠ .alloc := by
  obtain ⟨t, c, op⟩ := call
  unfold attempt perform at held
  cases inUse : (sys.chanends c).inUse with
  | true =>
    refine ⟨rfl, ?_⟩
    rintro rfl
    simp [inUse] at held
  | false => cases op <;> simp [inUse] at held

lemma delivered_control (valid : sys.Valid) (d : Nat) (call : ChanCall) :
    (∃ token ∈ sys.deliveredTo via d call, token.control = true) ↔ (sys.chanends call.chanend).inUse = true ∧
      PacketNetwork.Reaches sys.network call.chanend (sys.target via call.chanend) d ∧
      (sys.chanends d).buf.length + 1 ≤ chanendBufferSize ∧ ∃ val, call.op = .outct val ∧ val ≠ ctPause := by
  constructor
  · rintro ⟨token, mem, control⟩
    obtain ⟨msg, output, inUse, hits, room, mem⟩ := (mem_deliveredTo valid).mp mem
    obtain ⟨t, s, op⟩ := call
    cases op with
    | outt | out =>
      obtain rfl := Option.some.inj output
      obtain ⟨val, -, rfl⟩ := List.mem_map.mp mem
      simp at control
    | outct val =>
      obtain rfl := Option.some.inj output
      refine ⟨inUse, hits, room, val, rfl, ?_⟩
      rintro rfl
      simp [ctrlMessage] at mem
    | alloc | free | setd | intoken | inct | chkct | inWord | testct | testwct => cases output
  · rintro ⟨inUse, hits, room, val, op, notPause⟩
    refine ⟨⟨val, true⟩, (mem_deliveredTo valid).mpr ?_, rfl⟩
    refine ⟨ctrlMessage val, by rw [op]; rfl, inUse, hits, room, ?_⟩
    simp [ctrlMessage, notPause]

end

end System

end Axe
