import Axe.Channel.Operations

/-! What opening a route can do, and what the operations on channel ends leave alone. -/

namespace Axe

/-- The part of a channel end that only `alloc`, `free` and `setd` change, but for the
owner, which is the thread of the last input. -/
def Chanend.settings (ch : Chanend) : Bool × Bool × BitVec 32 × Eventable :=
  (ch.inUse, ch.junkIncoming, ch.destID, ch.events)

/-- The part that opening a route leaves alone. -/
def Chanend.unrouted (ch : Chanend) :
    (Bool × Bool × BitVec 32 × Eventable) × (Option Nat × Bool) × Option Nat × List Token :=
  (ch.settings, (ch.pausedIn, ch.waitForWord), ch.pausedOut, ch.buf)

namespace System

section

variable (via : Routing) (sys : System) (s : Nat)

def target : Option Nat := via (sys.chanends s).events.owner (sys.chanends s).destID

inductive RouteResult : System × Bool → Prop where
  | already (packet : (sys.chanends s).inPacket = true) : RouteResult (sys, true)
  | junked (dest : Option Nat) (packet : (sys.chanends s).inPacket = false)
      (named : sys.target via s = dest)
      (refused : ∀ d, dest = some d → (sys.chanends d).junkIncoming = true) :
      RouteResult (sys.updateChanend s fun ch =>
        { ch with dest := dest, junkPacket := true, inPacket := true }, true)
  | opened (d : Nat) (packet : (sys.chanends s).inPacket = false) (named : sys.target via s = some d)
      (accepts : (sys.chanends d).junkIncoming = false)
      (claimed : (sys.chanends d).source = none ∨ (sys.chanends d).source = some s) :
      RouteResult ((sys.updateChanend d fun ch => { ch with source := some s }).updateChanend s fun ch =>
        { ch with dest := some d, inPacket := true }, true)
  | queued (d current : Nat) (packet : (sys.chanends s).inPacket = false)
      (named : sys.target via s = some d) (accepts : (sys.chanends d).junkIncoming = false)
      (claimed : (sys.chanends d).source = some current) (other : current ≠ s) :
      RouteResult ((sys.updateChanend d fun ch => { ch with queue := ch.queue ++ [s] }).updateChanend s fun ch =>
        { ch with dest := some d }, false)

lemma updateChanend_updateChanend (c : Nat) (first snd : Chanend → Chanend) :
    (sys.updateChanend c first).updateChanend c snd = sys.updateChanend c fun ch => snd (first ch) := by
  simp [updateChanend]

lemma updateChanend_self {c : Nat} {upd : Chanend → Chanend} (same : upd (sys.chanends c) = sys.chanends c) :
    sys.updateChanend c upd = sys := by
  simp [updateChanend, same]

/-- Changes of different fields commute, whether or not the channel end is the same. -/
lemma updateChanend_comm (c e : Nat) {first snd : Chanend → Chanend}
    (same : ∀ ch, snd (first ch) = first (snd ch)) :
    (sys.updateChanend c first).updateChanend e snd = (sys.updateChanend e snd).updateChanend c first := by
  by_cases own : c = e
  · subst own
    simp [updateChanend, same]
  · simp [updateChanend, own, Ne.symm own, Function.update_comm own]

lemma claim_noted (d : Nat) : ((sys.updateChanend s fun ch => { ch with dest := some d }).chanends d).junkIncoming =
        (sys.chanends d).junkIncoming ∧
      ((sys.updateChanend s fun ch => { ch with dest := some d }).chanends d).source = (sys.chanends d).source := by
  by_cases own : d = s <;> simp [updateChanend, own]

lemma openRoute_result : RouteResult via sys s (sys.openRoute via s) := by
  unfold openRoute
  dsimp only
  cases pkt : (sys.chanends s).inPacket with
  | true => exact .already pkt
  | false =>
    generalize named : via (sys.chanends s).events.owner (sys.chanends s).destID = dest
    simp only [Bool.false_eq_true, if_false]
    cases dest with
    | none =>
      rw [updateChanend_updateChanend]
      exact .junked none pkt named (by simp)
    | some d =>
      obtain ⟨sameJunk, sameSource⟩ := sys.claim_noted s d
      simp only [claim, sameJunk, sameSource]
      cases junk : (sys.chanends d).junkIncoming with
      | true =>
        simp only [if_true, updateChanend_updateChanend]
        exact .junked (some d) pkt named (by simpa using junk)
      | false =>
        -- The source changes this way also where the channel end was handed over before.
        have opened (own : (sys.chanends d).source = none ∨ (sys.chanends d).source = some s) :
            RouteResult via sys s (((sys.updateChanend s fun ch => { ch with dest := some d }).updateChanend d
              fun ch => { ch with source := some s }).updateChanend s fun ch => { ch with inPacket := true },
              true) := by
          rw [sys.updateChanend_comm s d, updateChanend_updateChanend]
          · exact .opened d pkt named junk own
          · exact fun _ => rfl
        cases source : (sys.chanends d).source with
        | none => simpa using opened (.inl source)
        | some current =>
          by_cases mine : current = s
          · subst mine
            have opened := opened (.inr source)
            rw [updateChanend_self _ (c := d)] at opened
            · simpa using opened
            · rw [← source, ← sameSource]
          · have inQ := RouteResult.queued d current pkt named junk source mine
            rw [sys.updateChanend_comm d s] at inQ
            · simpa [mine] using inQ
            · exact fun _ => rfl

variable (t room : Nat) (junk : System → System) (deliver : System → Nat → System)

/-- The ways an output can end, after the attempt to open its route. -/
inductive SendResult : System × ResOpResult Unit → Prop where
  | queued (post : System) (route : sys.openRoute via s = (post, false)) :
      SendResult (post.updateChanend s fun ch => { ch with pausedOut := some t }, .deschedule)
  | full (post : System) (d : Nat) (route : sys.openRoute via s = (post, true))
      (kept : (post.chanends s).junkPacket = false) (dest : (post.chanends s).dest = some d)
      (noRoom : chanendBufferSize < (post.chanends d).buf.length + room) :
      SendResult (post.updateChanend s fun ch => { ch with pausedOut := some t }, .deschedule)
  | junked (post : System) (route : sys.openRoute via s = (post, true))
      (dropped : (post.chanends s).junkPacket = true) : SendResult (junk post, .continued ())
  | adrift (post : System) (route : sys.openRoute via s = (post, true))
      (kept : (post.chanends s).junkPacket = false) (dest : (post.chanends s).dest = none) :
      SendResult (post, .continued ())
  | delivered (post : System) (d : Nat) (route : sys.openRoute via s = (post, true))
      (kept : (post.chanends s).junkPacket = false) (dest : (post.chanends s).dest = some d)
      (fits : (post.chanends d).buf.length + room ≤ chanendBufferSize) :
      SendResult (deliver post d, .continued ())

lemma sendTokens_result : SendResult via sys s t room junk deliver
    (sys.sendTokens via t s room junk deliver) := by
  unfold sendTokens
  cases route : sys.openRoute via s with | mk post success =>
  cases success with
  | false => exact .queued post route
  | true =>
    simp only [Bool.not_true, Bool.false_eq_true, if_false]
    split
    · exact .junked post route ‹_›
    · rename_i kept
      simp only [Bool.not_eq_true] at kept
      split
      · exact .adrift post route kept ‹_›
      · rename_i d dest
        split
        · exact .full post d route kept dest ‹_›
        · exact .delivered post d route kept dest (by omega)

variable {via sys s} in
lemma RouteResult.of_eq {res : System × Bool} (route : sys.openRoute via s = res) :
    RouteResult via sys s res :=
  route ▸ sys.openRoute_result via s

end

@[simp] lemma finish_chanends (sys : System) (t : Nat) (res : ResourceRef) (canEvent : Bool)
    (result : ResOpResult (BitVec 32)) : (sys.finish t res canEvent result).chanends = sys.chanends := by
  cases result with
  | continued val =>
    unfold finish
    dsimp only
    split <;> simp
  | deschedule =>
    unfold finish
    dsimp only
    split <;> simp
  | illegal => rfl

section

variable {via : Routing} {sys : System}

section

variable {keeps : System → Prop} {t c time : Nat} (owned : keeps (sys.setOwner t c))
  (pauses : ∀ word, keeps ((sys.setOwner t c).setPausedIn t c word))
  (pops : ∀ (post : System) num, keeps post → keeps (post.popTokens c time num))
include owned pauses

lemma testct_keeps : keeps (sys.testct t c).1 := by
  unfold testct
  dsimp only
  split
  · exact pauses false
  · exact owned

lemma testwct_keeps : keeps (sys.testwct t c).1 := by
  unfold testwct
  dsimp only
  split
  · exact owned
  · split
    · exact pauses true
    · exact owned

include pops

lemma inputToken_keeps (acc : Token → Bool) : keeps (sys.inputToken t c time acc).1 := by
  have test := testct_keeps owned pauses
  unfold inputToken
  generalize sys.testct t c = result at test ⊢
  obtain ⟨post, isCt⟩ := result
  cases isCt with
  | none => exact test
  | some isCt =>
    dsimp only at test ⊢
    split
    · exact test
    · split
      · exact pops post 1 test
      · exact test

lemma inWord_keeps : keeps (sys.inWord t c time).1 := by
  have test := testwct_keeps owned pauses
  unfold inWord
  generalize sys.testwct t c = result at test ⊢
  obtain ⟨post, pos⟩ := result
  match pos with
  | none => exact test
  | some 0 => exact pops post 4 test
  | some (_ + 1) => exact test

end

lemma perform_keeps (keeps : System → Prop) {call : ChanCall}
    (unsent : canEvent call.op = false ∨ (sys.chanends call.chanend).inUse = false) (same : keeps sys)
    (allocates : call.op = .alloc → (sys.chanends call.chanend).inUse = false →
      keeps (sys.alloc call.thread call.chanend))
    (frees : call.op = .free → keeps (sys.updateChanend call.chanend fun ch =>
      { ch with events := { ch.events with owner := none }, inUse := false, junkIncoming := true }))
    (sets : ∀ val, call.op = .setd val → keeps (sys.updateChanend call.chanend fun ch => { ch with destID := val }))
    (owned : canEvent call.op = false → keeps (sys.setOwner call.thread call.chanend))
    (pauses : canEvent call.op = false → ∀ word,
      keeps ((sys.setOwner call.thread call.chanend).setPausedIn call.thread call.chanend word))
    (pops : ∀ (post : System) num, keeps post →
      keeps (post.popTokens call.chanend (sys.threads call.thread).time num)) :
    keeps (sys.perform via call).1 := by
  obtain ⟨t, c, op⟩ := call
  unfold perform
  dsimp only at *
  cases inUse : (sys.chanends c).inUse with
  | true =>
    have input : canEvent op = false := by simpa [inUse] using unsent
    cases op with
    | alloc => exact same
    | free =>
      simp only [ofBool, free, if_true]
      split
      · exact same
      · exact frees rfl
    | setd val =>
      simp only [ofBool, setData, if_true]
      split
      · exact same
      · split
        · exact same
        · exact sets val rfl
    | outt | out | outct => simp [canEvent] at input
    | intoken | inct | chkct => exact inputToken_keeps (owned rfl) (pauses rfl) pops _
    | inWord => exact inWord_keeps (owned rfl) (pauses rfl) pops
    | testct => exact testct_keeps (owned rfl) (pauses rfl)
    | testwct => exact testwct_keeps (owned rfl) (pauses rfl)
  | false =>
    cases op with
    | alloc => exact allocates rfl inUse
    | _ => exact same

end

section

variable {Field : Type} {field : Chanend → Field} {sys : System} (c d e time : Nat)

lemma updateChanend_field {upd : Chanend → Chanend} (same : e = c → ∀ ch, field (upd ch) = field ch) :
    field ((sys.updateChanend c upd).chanends e) = field (sys.chanends e) := by
  by_cases here : e = c
  · simp [updateChanend, here, same here]
  · simp [updateChanend, here]

lemma notifySource_field (same : e = c → ∀ ch : Chanend, field { ch with pausedOut := none } = field ch) :
    field ((sys.notifySource c time).chanends e) = field (sys.chanends e) := by
  unfold notifySource
  split
  · rfl
  · exact updateChanend_field c e same

lemma release_field (same : ∀ (ch : Chanend) source queue paused,
      field { ch with source := source, queue := queue, pausedOut := paused } = field ch) :
    field ((sys.release d time).chanends e) = field (sys.chanends e) := by
  unfold release
  split
  · exact updateChanend_field d e fun _ ch => same ch _ ch.queue ch.pausedOut
  · exact (notifySource_field _ e time fun _ ch => same ch ch.source ch.queue _).trans
      (updateChanend_field d e fun _ ch => same ch _ _ ch.pausedOut)

lemma updateAfterToken_field (same : ∀ ch : Chanend, field { ch with pausedIn := none } = field ch) :
    field ((sys.updateAfterToken d time).chanends e) = field (sys.chanends e) := by
  unfold updateAfterToken
  dsimp only
  split
  · rw [event_chanends]
  · split
    · rfl
    · split
      · rfl
      · exact updateChanend_field d e fun _ => same

lemma popTokens_field (num : Nat)
    (same : ∀ (ch : Chanend) buf paused, field { ch with buf := buf, pausedOut := paused } = field ch) :
    field ((sys.popTokens c time num).chanends e) = field (sys.chanends e) := by
  have drop : field ((sys.updateChanend c fun ch => { ch with buf := ch.buf.drop num }).chanends e) =
      field (sys.chanends e) := updateChanend_field c e fun _ ch => same ch _ ch.pausedOut
  unfold popTokens
  dsimp only
  split
  · exact drop
  · exact (notifySource_field _ e time fun _ ch => same ch ch.buf _).trans drop

lemma RouteResult.unrouted {via : Routing} {s : Nat} {res : System × Bool}
    (route : RouteResult via sys s res) : (res.1.chanends e).unrouted = (sys.chanends e).unrouted := by
  cases route with
  | already => rfl
  | junked =>
    dsimp only
    exact updateChanend_field s e fun _ _ => rfl
  | opened d | queued d =>
    dsimp only
    refine Eq.trans (updateChanend_field s e ?_) (updateChanend_field d e ?_) <;> exact fun _ _ => rfl

end

section

variable {via : Routing} {sys : System} {s t room : Nat} (c d e time : Nat)

@[simp] lemma release_settings : ((sys.release d time).chanends e).settings = (sys.chanends e).settings :=
  release_field d e time fun _ _ _ _ => rfl

@[simp] lemma updateAfterToken_settings :
    ((sys.updateAfterToken d time).chanends e).settings = (sys.chanends e).settings :=
  updateAfterToken_field d e time fun _ => rfl

@[simp] lemma pushTokens_settings (tokens : List Token) :
    ((sys.pushTokens d tokens).chanends e).settings = (sys.chanends e).settings :=
  updateChanend_field d e fun _ _ => rfl

@[simp] lemma receiveDataTokens_settings (values : List (BitVec 8)) :
    ((sys.receiveDataTokens d time values).chanends e).settings = (sys.chanends e).settings := by
  simp [receiveDataTokens]

@[simp] lemma receiveCtrlToken_settings (val : BitVec 8) :
    ((sys.receiveCtrlToken d time val).chanends e).settings = (sys.chanends e).settings := by
  unfold receiveCtrlToken
  split
  · simp
  · split <;> simp

lemma RouteResult.settings {res : System × Bool} (route : RouteResult via sys s res) :
    (res.1.chanends e).settings = (sys.chanends e).settings :=
  congrArg Prod.fst (route.unrouted e)

lemma SendResult.settings {junk : System → System} {deliver : System → Nat → System}
    {res : System × ResOpResult Unit} (send : SendResult via sys s t room junk deliver res)
    (drops : ∀ sys : System, ((junk sys).chanends e).settings = (sys.chanends e).settings)
    (sends : ∀ (sys : System) d, ((deliver sys d).chanends e).settings = (sys.chanends e).settings) :
    (res.1.chanends e).settings = (sys.chanends e).settings := by
  have held (post : System) :
      ((post.updateChanend s fun ch => { ch with pausedOut := some t }).chanends e).settings =
        (post.chanends e).settings := updateChanend_field _ _ fun _ _ => rfl
  cases send with
  | queued post route => exact (held post).trans ((RouteResult.of_eq route).settings e)
  | full post d route => exact (held post).trans ((RouteResult.of_eq route).settings e)
  | junked post route => exact (drops post).trans ((RouteResult.of_eq route).settings e)
  | adrift post route => exact (RouteResult.of_eq route).settings e
  | delivered post d route => exact (sends post d).trans ((RouteResult.of_eq route).settings e)

inductive SettingsChange (sys : System) (call : ChanCall) (e : Nat) : Bool × Bool × BitVec 32 × Eventable → Prop where
  | same : SettingsChange sys call e (sys.chanends e).settings
  | alloc (here : e = call.chanend) (op : call.op = .alloc) (fresh : (sys.chanends e).inUse = false) :
      SettingsChange sys call e (true, false, (sys.chanends e).destID, { owner := some call.thread })
  | free (here : e = call.chanend) (op : call.op = .free) :
      SettingsChange sys call e
        (false, true, (sys.chanends e).destID, { (sys.chanends e).events with owner := none })
  | setd (val : BitVec 32) (here : e = call.chanend) (op : call.op = .setd val) :
      SettingsChange sys call e ((sys.chanends e).inUse, (sys.chanends e).junkIncoming, val, (sys.chanends e).events)
  | input (here : e = call.chanend) (input : canEvent call.op = false) :
      SettingsChange sys call e ((sys.chanends e).inUse, (sys.chanends e).junkIncoming, (sys.chanends e).destID,
        { (sys.chanends e).events with owner := some call.thread })

lemma SettingsChange.of_same {call : ChanCall} {post : System}
    (same : (post.chanends e).settings = (sys.chanends e).settings) :
    SettingsChange sys call e (post.chanends e).settings := same ▸ .same

lemma SettingsChange.of_input {call : ChanCall} {post : System} (input : canEvent call.op = false)
    (same : (post.chanends e).settings = ((sys.setOwner call.thread call.chanend).chanends e).settings) :
    SettingsChange sys call e (post.chanends e).settings := by
  rw [same]
  by_cases here : e = call.chanend
  · rw [← here]
    simpa [setOwner, updateChanend, Chanend.settings] using SettingsChange.input here input
  · exact .of_same e (by simp [setOwner, updateChanend, here])

lemma outct_settings (via : Routing) (val : BitVec 8) :
    ((sys.outct via t c time val).1.chanends e).settings = (sys.chanends e).settings := by
  apply (sendTokens_result ..).settings
  · intro sys
    split
    · exact updateChanend_field _ _ fun _ _ => rfl
    · rfl
  · intro sys d
    split
    · refine Eq.trans (updateChanend_field c e ?_) (receiveCtrlToken_settings ..)
      exact fun _ _ => rfl
    · rw [receiveCtrlToken_settings]

lemma perform_settings (via : Routing) (call : ChanCall) :
    SettingsChange sys call e ((sys.perform via call).1.chanends e).settings := by
  have chg {upd : Chanend → Chanend} (changes : e = call.chanend →
      SettingsChange sys call e (upd (sys.chanends e)).settings) :
      SettingsChange sys call e ((sys.updateChanend call.chanend upd).chanends e).settings := by
    by_cases own : e = call.chanend
    · have here : (sys.updateChanend call.chanend upd).chanends e = upd (sys.chanends e) := by
        simp [updateChanend, own]
      exact here ▸ changes own
    · exact .of_same e (updateChanend_field _ e fun here => absurd here own)
  by_cases unsent : canEvent call.op = false ∨ (sys.chanends call.chanend).inUse = false
  · refine perform_keeps (fun post => SettingsChange sys call e (post.chanends e).settings) unsent .same
      (fun op fresh => ?_) (fun op => ?_) (fun val op => ?_) (fun input => ?_) (fun input word => ?_)
      fun post num kept => ?_
    · exact chg fun here => .alloc here op (here ▸ fresh)
    · exact chg fun here => .free here op
    · exact chg fun here => .setd val here op
    · exact .of_input e input rfl
    · exact .of_input e input (updateChanend_field _ e fun _ _ => rfl)
    · rwa [show _ = (post.chanends e).settings from popTokens_field _ e _ num fun _ _ _ => rfl]
  · obtain ⟨t, c, op⟩ := call
    simp only [not_or, Bool.not_eq_false] at unsent
    rw [perform, if_pos unsent.2]
    cases op with
    | outt | out =>
      exact .of_same e ((sendTokens_result ..).settings e (fun _ => rfl) fun _ _ => receiveDataTokens_settings ..)
    | outct val => exact .of_same e (outct_settings ..)
    | _ => cases unsent.1

variable (sys) in
lemma execute_settings (via : Routing) (call : ChanCall) :
    SettingsChange sys call e ((sys.execute via call).chanends e).settings := by
  rw [execute, finish_chanends]
  -- Which thread runs is not part of the settings.
  have upd : SettingsChange { sys with currentRunnable := some call.thread } call e
      ((sys.attempt via call).1.chanends e).settings := perform_settings e via call
  generalize ((sys.attempt via call).1.chanends e).settings = post at upd
  cases upd with
  | same => exact .same
  | alloc here op fresh => exact .alloc here op fresh
  | free here op => exact .free here op
  | setd val here op => exact .setd val here op
  | input here input => exact .input here input

end

end System

end Axe
