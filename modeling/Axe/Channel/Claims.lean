import Axe.Channel.InputWaits
import Axe.Library.PacketClaims

/-! Who has claimed a channel end. A channel end stays in a claim queue while its thread
is paused on the output that made the claim; the claim and the pause are kept in
different objects and have to agree over whole runs. -/

namespace Axe

open PacketNetwork (Orderly Fair Label)

namespace System

section

variable {via : Routing} {sys : System} {s t room : Nat} (c d e time : Nat)

def IsSource (sys : System) (e : Nat) : Prop := ∃ d, (sys.chanends d).source = some e

/-- The thread that waits for output on `e` is the one that did before, or `e` has a route of its own. -/
def KeepsPausedOut (pre sys : System) (e : Nat) : Prop :=
  (sys.chanends e).pausedOut = (pre.chanends e).pausedOut ∨ pre.IsSource e ∨ sys.IsSource e

lemma updateAfterToken_pausedOut :
    ((sys.updateAfterToken d time).chanends e).pausedOut = (sys.chanends e).pausedOut :=
  updateAfterToken_field d e time fun _ => rfl

lemma release_pausedOut : ((sys.release d time).chanends e).pausedOut = (sys.chanends e).pausedOut ∨
      ((sys.release d time).network d).source = some e := by
  rw [release_network]
  unfold release
  cases wait : (sys.chanends d).queue with
  | nil => exact .inl (updateChanend_field _ _ fun _ _ => rfl)
  | cons next rest =>
    by_cases handed : e = next
    · right
      simp [PacketNetwork.Network.release, PacketNetwork.Network.change, network_apply, Chanend.endpoint, wait, handed]
    · left
      refine Eq.trans (notifySource_field next e time ?_) (updateChanend_field d e ?_)
      · exact fun here => absurd here handed
      · exact fun _ _ => rfl

lemma receiveDataTokens_pausedOut (values : List (BitVec 8)) :
    ((sys.receiveDataTokens d time values).chanends e).pausedOut = (sys.chanends e).pausedOut := by
  rw [receiveDataTokens, updateAfterToken_pausedOut]
  exact updateChanend_field _ _ fun _ _ => rfl

variable (sys) in
lemma receiveCtrlToken_pausedOut (val : BitVec 8) :
    ((sys.receiveCtrlToken d time val).chanends e).pausedOut = (sys.chanends e).pausedOut ∨
      ((sys.receiveCtrlToken d time val).network d).source = some e := by
  have push (tokens : List Token) :
      ((sys.pushTokens d tokens).chanends e).pausedOut = (sys.chanends e).pausedOut :=
    updateChanend_field _ _ fun _ _ => rfl
  unfold receiveCtrlToken
  split
  · rw [updateAfterToken_pausedOut, updateAfterToken_network, ← push]
    exact release_pausedOut d e time
  · split
    · exact release_pausedOut d e time
    · left
      rw [updateAfterToken_pausedOut, push]

lemma RouteResult.pausedOut {res : System × Bool} (route : RouteResult via sys s res) :
    (res.1.chanends e).pausedOut = (sys.chanends e).pausedOut :=
  congrArg (·.2.2.1) (route.unrouted e)

lemma SendResult.pausedOut {junk : System → System} {deliver : System → Nat → System}
    {res : System × ResOpResult Unit} (send : SendResult via sys s t room junk deliver res)
    (other : e ≠ s) (drops : ∀ sys : System, ((junk sys).chanends e).pausedOut = (sys.chanends e).pausedOut)
    (sends : ∀ (sys : System) d, ((deliver sys d).chanends e).pausedOut = (sys.chanends e).pausedOut ∨
      (deliver sys d).IsSource e) :
    (res.1.chanends e).pausedOut = (sys.chanends e).pausedOut ∨ res.1.IsSource e := by
  have routed {post : System} {success : Bool} (route : sys.openRoute via s = (post, success)) :
      (post.chanends e).pausedOut = (sys.chanends e).pausedOut := (RouteResult.of_eq route).pausedOut e
  have held (post : System) :
      ((post.updateChanend s fun ch => { ch with pausedOut := some t }).chanends e).pausedOut =
        (post.chanends e).pausedOut := updateChanend_field _ _ fun here => absurd here other
  cases send with
  | queued post route => exact .inl ((held post).trans (routed route))
  | full post d route => exact .inl ((held post).trans (routed route))
  | junked post route => exact .inl ((drops post).trans (routed route))
  | adrift post route => exact .inl (routed route)
  | delivered post d route => exact (sends post d).imp_left fun same => same.trans (routed route)

variable (sys) in
lemma popTokens_pausedOut (num : Nat) :
    ((sys.popTokens c time num).chanends e).pausedOut = (sys.chanends e).pausedOut ∨
      (sys.chanends c).source = some e := by
  have drop : ((sys.updateChanend c fun ch => { ch with buf := ch.buf.drop num }).chanends e).pausedOut =
      (sys.chanends e).pausedOut := updateChanend_field _ _ fun _ _ => rfl
  have same : ((sys.updateChanend c fun ch => { ch with buf := ch.buf.drop num }).chanends c).source =
      (sys.chanends c).source := by simp [updateChanend]
  unfold popTokens
  dsimp only
  rw [same]
  cases (sys.chanends c).source with
  | none => exact .inl drop
  | some src =>
    by_cases own : e = src
    · exact .inr (by rw [own])
    · left
      exact Eq.trans (notifySource_field src e time fun here => absurd here own) drop

def InputKeeps (pre : System) (e : Nat) (sys : System) : Prop :=
  (∀ d, (sys.chanends d).source = (pre.chanends d).source) ∧
    ((sys.chanends e).pausedOut = (pre.chanends e).pausedOut ∨ pre.IsSource e)

variable {pre : System}

lemma InputKeeps.popTokens (keeps : pre.InputKeeps e sys) (num : Nat) :
    pre.InputKeeps e (sys.popTokens c time num) := by
  refine ⟨fun d => Eq.trans (popTokens_field c d time num fun _ _ _ => rfl) (keeps.1 d), ?_⟩
  rcases sys.popTokens_pausedOut c e time num with same | src
  · rw [same]
    exact keeps.2
  · exact .inr ⟨c, (keeps.1 c).symm.trans src⟩

lemma InputKeeps.updateChanend (keeps : pre.InputKeeps e sys) {upd : Chanend → Chanend}
    (src : ∀ ch, (upd ch).source = ch.source) (held : e = c → ∀ ch, (upd ch).pausedOut = ch.pausedOut) :
    pre.InputKeeps e (sys.updateChanend c upd) := by
  refine ⟨fun d => Eq.trans (updateChanend_field c d fun _ => src) (keeps.1 d), ?_⟩
  rw [show _ = (sys.chanends e).pausedOut from updateChanend_field c e held]
  exact keeps.2

lemma outct_pausedOut (via : Routing) (other : e ≠ c) (val : BitVec 8) :
    ((sys.outct via t c time val).1.chanends e).pausedOut = (sys.chanends e).pausedOut ∨
      (sys.outct via t c time val).1.IsSource e := by
  apply (sendTokens_result ..).pausedOut e other
  · intro sys
    split
    · exact updateChanend_field _ _ fun _ _ => rfl
    · rfl
  · intro sys d
    have got := sys.receiveCtrlToken_pausedOut d e time val
    split
    · have closed (sys : System) :
          ((sys.updateChanend c fun ch => { ch with inPacket := false, dest := none }).chanends e).pausedOut =
            (sys.chanends e).pausedOut := updateChanend_field _ _ fun _ _ => rfl
      rw [closed]
      refine got.imp_right fun src => ⟨d, ?_⟩
      by_cases own : d = c
      · simpa [System.updateChanend, own, network_apply, Chanend.endpoint] using src
      · simpa [System.updateChanend, own, network_apply, Chanend.endpoint] using src
    · exact got.imp_right fun src => ⟨d, src⟩

variable (via sys) in
/-- Only outputs on the channel end and its allocation put another thread in place of the one that waits. -/
lemma perform_pausedOut (call : ChanCall) (keeps : e = call.chanend →
      canEvent call.op = false ∧ (sys.chanends call.chanend).inUse = true) :
    sys.KeepsPausedOut (sys.perform via call).1 e := by
  by_cases unsent : canEvent call.op = false ∨ (sys.chanends call.chanend).inUse = false
  · have start : sys.InputKeeps e sys := ⟨fun _ => rfl, .inl rfl⟩
    have owned : sys.InputKeeps e (sys.setOwner call.thread call.chanend) :=
      start.updateChanend _ e (fun _ => rfl) fun _ _ => rfl
    have kept : sys.InputKeeps e (sys.perform via call).1 := by
      refine perform_keeps (sys.InputKeeps e) unsent start (fun _ free => ?_) (fun _ => ?_) (fun _ _ => ?_)
        (fun _ => owned) (fun _ _ => ?_) fun _ num kept => kept.popTokens _ e _ num
      · exact start.updateChanend _ e (fun _ => rfl) fun here => by simp [(keeps here).2] at free
      · exact start.updateChanend _ e (fun _ => rfl) fun _ _ => rfl
      · exact start.updateChanend _ e (fun _ => rfl) fun _ _ => rfl
      · exact owned.updateChanend _ e (fun _ => rfl) fun _ _ => rfl
    exact kept.2.imp_right .inl
  · obtain ⟨t, c, op⟩ := call
    simp only [not_or, Bool.not_eq_false] at unsent
    have other : e ≠ c := by
      rintro rfl
      cases (keeps rfl).1.symm.trans unsent.1
    rw [perform, if_pos unsent.2]
    cases op with
    | outt val | out val =>
      refine ((sendTokens_result ..).pausedOut e other (fun _ => rfl) fun _ _ => ?_).imp_right .inr
      exact .inl (receiveDataTokens_pausedOut ..)
    | outct val => exact (outct_pausedOut c e _ via other val).imp_right .inr
    | _ => cases unsent.1

variable (via sys) in
lemma execute_pausedOut (call : ChanCall) (keeps : e = call.chanend →
      canEvent call.op = false ∧ (sys.chanends call.chanend).inUse = true) :
    sys.KeepsPausedOut (sys.execute via call) e := by
  have kept := perform_pausedOut via { sys with currentRunnable := some call.thread } e call keeps
  unfold KeepsPausedOut IsSource at kept ⊢
  rw [execute, finish_chanends]
  exact kept

variable (via sys) in
lemma execute_target (call : ChanCall) (out : canEvent call.op = true) :
    (sys.execute via call).target via e = sys.target via e := by
  have upd := sys.execute_settings e via call
  generalize same : ((sys.execute via call).chanends e).settings = settings at upd
  cases upd with
  | same =>
    simp only [Chanend.settings, Prod.mk.injEq] at same
    rw [target, target, same.2.2.1, same.2.2.2]
  | alloc here op | free here op | setd val here op => simp [op, canEvent] at out
  | input here input => simp [input] at out

end

/-- The channel ends that have claimed `d`: the source of its packet and those in its queue. -/
def claims (sys : System) (d : Nat) : List Nat := (sys.chanends d).source.toList ++ (sys.chanends d).queue

lemma claims_network (sys : System) (d : Nat) : (sys.network d).claims = sys.claims d := rfl

end System

/-- Channel ends and threads, with the thread whose output on a channel end has paused
and was not executed again since. -/
structure ClaimRun where
  sys : System
  begun : Nat → Option Nat

inductive ClaimStep where
  | call (call : ChanCall)
  /-- A thread takes an event or an interrupt of some resource. -/
  | event (t : Nat) (res : ResourceRef) (intr : Bool)

namespace ClaimRun

open Axe.System

variable (via : Routing)

def step (run : ClaimRun) : ClaimStep → ClaimRun
  | .call call =>
    { sys := run.sys.execute via call
      begun :=
        if canEvent call.op then
          Function.update run.begun call.chanend
            (if (run.sys.attempt via call).2 = .deschedule then some call.thread else none)
        else run.begun }
  | .event t res intr => { run with sys := run.sys.takeEvent t res intr }

/-- A channel end that has a claim and no open packet is not freed, not led elsewhere and
does not make its claim again from the queue. -/
def KeepsClaim (sys : System) (call : ChanCall) : Prop :=
  (sys.chanends call.chanend).inPacket = false → ∀ d, call.chanend ∈ sys.claims d →
    match call.op with
    | .free => False
    | .setd val => via (sys.chanends call.chanend).events.owner val = some d
    | .outt _ | .out _ | .outct _ => (sys.chanends d).source = some call.chanend
    | .alloc | .intoken | .inct | .chkct _ | .inWord | .testct | .testwct => True

/-- A thread that runs executes instructions on channel ends of its own core, and no
resource that records a thread as waiting loses it to an event. -/
def Admissible (run : ClaimRun) : ClaimStep → Prop
  | .call call =>
    (run.sys.threads call.thread).waiting = false ∧
    ((run.sys.chanends call.chanend).inUse = true → ∀ id, via (some call.thread) id =
      via (run.sys.chanends call.chanend).events.owner id) ∧
    KeepsClaim via run.sys call
  | .event t _ _ => ∀ slot, t ∉ run.sys.table.recorded slot

def PausedToward (sys : System) (s d : Nat) : Prop :=
  sys.target via s = some d ∧ ∃ t, (sys.chanends s).pausedOut = some t ∧
    (sys.threads t).waiting = true ∧ (sys.threads t).pausedOn = some (.chanend s)

/-- `s` was handed `d`, and the output it paused on has not been executed again. -/
def HandedOver (run : ClaimRun) (s d : Nat) : Prop :=
  (run.sys.chanends d).source = some s ∧ run.sys.target via s = some d ∧ (run.begun s).isSome

variable {via}

structure Inv (via : Routing) (run : ClaimRun) : Prop where
  valid : run.sys.Valid
  disabled : run.sys.Disabled
  sound : run.sys.WaitsSound
  pending : run.sys.pendingEvent = none
  orderly : Orderly run.sys.network
  waits : ∀ d s, s ∈ run.sys.claims d → (run.sys.chanends s).inPacket = false →
    run.sys.target via s = some d ∧
      ∃ t, run.begun s = some t ∧ (s ∈ (run.sys.chanends d).queue → (run.sys.chanends s).pausedOut = some t)

variable {run : ClaimRun} {call : ChanCall}

lemma canEvent_iff_message (op : ChanOp) : canEvent op = true ↔ ∃ msg, op.message = some msg := by
  cases op <;> simp [canEvent, ChanOp.message]

lemma KeepsClaim.output (keeps : KeepsClaim via run.sys call) (output : canEvent call.op = true)
    (idle : (run.sys.chanends call.chanend).inPacket = false) {d : Nat} (mem : call.chanend ∈ run.sys.claims d) :
    (run.sys.chanends d).source = some call.chanend := by
  have kept := keeps idle d mem
  obtain ⟨t, c, op⟩ := call
  cases op with
  | outt | out | outct => exact kept
  | _ => simp [canEvent] at output

section

variable (inv : run.Inv via)
include inv

lemma Inv.fair (keeps : KeepsClaim via run.sys call)
    {label : Label Nat Token} (stands : run.sys.StandsFor via call label)
    (guard : PacketNetwork.Guard run.sys.network label) : Fair run.sys.network label := by
  cases stands with
  | send msg out inUse res =>
    intro idle d
    constructor
    · intro inQ
      have src := keeps.output ((canEvent_iff_message _).mpr ⟨msg, out⟩) idle
        (PacketNetwork.mem_claims.mpr (.inr inQ))
      exact inv.orderly.source_not_queued src inQ
    · intro src
      exact (inv.waits d call.chanend (PacketNetwork.mem_claims.mpr (.inl src)) idle).1
  | allocate op => trivial
  | retire op =>
    intro d mem
    have kept := keeps guard.2.2 d mem
    rw [op] at kept
    exact kept
  | take count unsent => trivial

lemma Inv.unsent {label : Label Nat Token}
    (stands : run.sys.StandsFor via call label) {d : Nat} (mem : call.chanend ∈ run.sys.claims d)
    (unsent : ∀ target msg, label ≠ .send call.chanend target msg) : canEvent call.op = false := by
  have inUse : (run.sys.chanends call.chanend).inUse = true :=
    (inv.valid.accepting call.chanend).symm.trans (inv.orderly.member d call.chanend mem).1
  cases stands with
  | send msg => exact absurd rfl (unsent _ msg)
  | allocate op | retire op => rw [op]; rfl
  | take count input =>
    rcases input with input | free
    · apply Bool.eq_false_iff.mpr
      intro out
      obtain ⟨msg, some⟩ := (canEvent_iff_message _).mp out
      simp [input] at some
    · simp [inUse] at free

lemma Inv.target_kept (legal : run.Admissible via (.call call))
    {s d : Nat} (mem : s ∈ run.sys.claims d) (idle : (run.sys.chanends s).inPacket = false) :
    (run.sys.execute via call).target via s = some d := by
  obtain ⟨-, home, keeps⟩ := legal
  have target := (inv.waits d s mem idle).1
  have inUse : (run.sys.chanends s).inUse = true :=
    (inv.valid.accepting s).symm.trans (inv.orderly.member d s mem).1
  have upd := run.sys.execute_settings s via call
  generalize same : ((run.sys.execute via call).chanends s).settings = settings at upd
  simp only [Chanend.settings] at same
  unfold System.target at target ⊢
  cases upd with
  | same =>
    simp only [Chanend.settings, Prod.mk.injEq] at same
    rw [same.2.2.1, same.2.2.2, target]
  | alloc here op fresh => simp [inUse] at fresh
  | free here op =>
    subst here
    have kept := keeps idle d mem
    rw [op] at kept
    exact kept.elim
  | setd val here op =>
    subst here
    simp only [Prod.mk.injEq] at same
    have kept := keeps idle d mem
    rw [op] at kept
    rw [same.2.2.1, same.2.2.2]
    exact kept
  | input here input =>
    subst here
    simp only [Prod.mk.injEq] at same
    rw [same.2.2.1, same.2.2.2]
    rw [home inUse, target]

lemma Inv.waits_kept {s d : Nat} (mem : s ∈ run.sys.claims d) (idle : (run.sys.chanends s).inPacket = false)
    (other : call.chanend = s → canEvent call.op = false) (tidy : Orderly (run.sys.execute via call).network)
    (inQ : s ∈ ((run.sys.execute via call).chanends d).queue → s ∈ (run.sys.chanends d).queue) :
    ∃ t, (run.step via (.call call)).begun s = some t ∧ (s ∈ ((run.sys.execute via call).chanends d).queue →
        ((run.sys.execute via call).chanends s).pausedOut = some t) := by
  obtain ⟨-, t, begun, held⟩ := inv.waits d s mem idle
  have inUse : (run.sys.chanends s).inUse = true :=
    (inv.valid.accepting s).symm.trans (inv.orderly.member d s mem).1
  refine ⟨t, ?_, fun still => ?_⟩
  · unfold step
    dsimp only
    split
    · rename_i out
      have apart : s ≠ call.chanend := by
        rintro rfl
        simp [other rfl] at out
      rw [Function.update_of_ne apart, begun]
    · exact begun
  · have keeps : run.sys.KeepsPausedOut (run.sys.execute via call) s :=
      run.sys.execute_pausedOut via s call fun here => ⟨other here.symm, here ▸ inUse⟩
    rcases keeps with same | ⟨e, src⟩ | ⟨e, src⟩
    · rw [same, held (inQ still)]
    · exact absurd (inQ still) (inv.orderly.source_not_queued src)
    · exact absurd still (tidy.source_not_queued src)

end

lemma blocked_paused (ran : run.sys.Executed via call) (out : canEvent call.op = true)
    (held : (run.sys.attempt via call).2 = .deschedule) :
    (run.step via (.call call)).begun call.chanend = some call.thread ∧
      ((run.sys.execute via call).chanends call.chanend).pausedOut = some call.thread := by
  constructor
  · simp [step, out, held]
  · have noted := congrArg (fun table => table.recorded (.chanOut call.chanend)) (ran.paused held)
    simpa [ChanCall.slot, out, WaitSlots.Table.pause, WaitSlots.Table.record, table,
      Option.toList_eq_singleton_iff] using noted

lemma Inv.instruction (inv : run.Inv via) (legal : run.Admissible via (.call call)) :
    (run.step via (.call call)).Inv via := by
  obtain ⟨label, ref⟩ := execute_refines via call inv.valid
  have fair := inv.fair legal.2.2 ref.stands ref.guard
  have ran := execute_executed via inv.sound inv.pending inv.disabled.undisturbed call legal.1
  have tidy : Orderly (run.sys.execute via call).network := by
    rw [ref.network]
    exact inv.orderly.step inv.valid.network ref.guard fair
  refine ⟨inv.valid.execute call, inv.disabled.execute call, ran.sound, ran.pending, tidy, ?_⟩
  intro d s mem idle
  have waited := PacketNetwork.step_waits inv.orderly inv.valid.network ref.guard fair (s := s) (d := d)
  rw [← ref.network] at waited
  rcases waited mem idle with ⟨pre, idle, inQ, unsent⟩ | ⟨msg, sent, blocked⟩
  · have other : call.chanend = s → canEvent call.op = false := by
      rintro rfl
      exact inv.unsent ref.stands pre unsent
    exact ⟨inv.target_kept legal pre idle, inv.waits_kept pre idle other tidy inQ⟩
  · -- The instruction is the out that has just been blocked.
    have stands := ref.stands
    rw [sent] at stands
    generalize toward : some d = target at stands blocked
    cases stands with
    | send _ out inUse res =>
      have out : canEvent call.op = true := (canEvent_iff_message _).mpr ⟨msg, out⟩
      have held : (run.sys.attempt via call).2 = .deschedule := by
        rw [res, blocked]
        rfl
      obtain ⟨begun, noted⟩ := blocked_paused ran out held
      exact ⟨run.sys.execute_target via call.chanend call out, call.thread, begun, fun _ => noted⟩

lemma Inv.event (inv : run.Inv via) {t : Nat} {res : ResourceRef} {intr : Bool}
    (legal : run.Admissible via (.event t res intr)) : (run.step via (.event t res intr)).Inv via := by
  have same : (run.sys.takeEvent t res intr).chanends = run.sys.chanends := run.sys.takeEvent_chanends t res intr
  have net : (run.sys.takeEvent t res intr).network = run.sys.network := network_of_chanends same
  constructor
  · exact ⟨net ▸ inv.valid.network, fun c => by rw [step, same]; exact inv.valid.agrees c⟩
  · intro c
    rw [step, same]
    exact inv.disabled c
  · exact inv.sound.takeEvent legal res intr
  · exact (SameEvents.takeEvent run.sys t res intr).pendingEvent.trans inv.pending
  · rw [step, net]
    exact inv.orderly
  · have waits := inv.waits
    unfold claims target at waits ⊢
    unfold step
    rw [same]
    exact waits

lemma Inv.step (run : ClaimRun) (label : ClaimStep) (inv : run.Inv via)
    (legal : run.Admissible via label) : (run.step via label).Inv via := by
  cases label with
  | call call => exact inv.instruction legal
  | event t res intr => exact inv.event legal

/-- What the claims on `d` are at any time. -/
structure ClaimsStand (via : Routing) (run : ClaimRun) (d : Nat) : Prop where
  nodup : (run.sys.claims d).Nodup
  led : (run.sys.chanends d).source = none → (run.sys.chanends d).queue = []
  held : ∀ s ∈ run.sys.claims d, (run.sys.chanends s).inUse = true ∧
    (run.sys.HasRoute s d ∨ PausedToward via run.sys s d ∨ run.HandedOver via s d)

lemma Inv.claimsStand (inv : run.Inv via) (d : Nat) : run.ClaimsStand via d := by
  refine ⟨inv.orderly.nodup d, inv.orderly.led d, fun s mem => ?_⟩
  obtain ⟨acc, kept, dest⟩ := inv.orderly.member d s mem
  refine ⟨(inv.valid.accepting s).symm.trans acc, ?_⟩
  cases pkt : (run.sys.chanends s).inPacket with
  | true => exact .inl ⟨pkt, kept, dest⟩
  | false =>
    obtain ⟨toward, t, begun, held⟩ := inv.waits d s mem pkt
    rw [← claims_network, PacketNetwork.mem_claims] at mem
    rcases mem with src | inQ
    · exact .inr (.inr ⟨src, toward, by simp [begun]⟩)
    · have noted := held inQ
      have waits := inv.sound.waits (.chanOut s) t (by simp [table, noted])
      simp only [table, Thread.waitsFor, WaitSlot.resource] at waits
      split at waits
      · exact .inr (.inl ⟨toward, t, noted, ‹_›, waits⟩)
      · simp at waits

structure Initial (run : ClaimRun) : Prop where
  unallocated : run.sys.Unallocated
  unrecorded : ∀ slot, run.sys.table.recorded slot = []
  pending : run.sys.pendingEvent = none

lemma Initial.inv (init : run.Initial) : run.Inv via where
  valid := init.unallocated.valid
  disabled c := by rw [init.unallocated c]
  sound := by constructor <;> simp [init.unrecorded]
  pending := init.pending
  orderly := by
    have view (c : Nat) : run.sys.network c = Chanend.endpoint {} := by
      rw [network_apply, init.unallocated c]
    constructor <;> simp [view, Chanend.endpoint, PacketNetwork.Endpoint.claims]
  waits d s mem := by simp [claims, init.unallocated d] at mem

theorem claims_stand (run : ClaimRun) (init : run.Initial) (steps : List ClaimStep)
    (legal : Runs.Meets (step via) (Admissible via) run steps) (d : Nat) :
    (steps.foldl (step via) run).ClaimsStand via d :=
  (legal.invariant Inv.step init.inv).claimsStand d

def atStart : ClaimRun := ⟨.initial, fun _ => none⟩

def twoSenders : List ClaimStep :=
  [.call ⟨0, 0, .alloc⟩, .call ⟨1, 1, .alloc⟩, .call ⟨2, 2, .alloc⟩, .call ⟨1, 1, .setd 0x002⟩,
    .call ⟨2, 2, .setd 0x002⟩, .call ⟨1, 1, .outt 5⟩, .call ⟨2, 2, .outt 6⟩, .call ⟨1, 1, .outct ctEnd⟩]

lemma not_claimed {sys : System} {c : Nat} (few : ∀ n, sys.claims (n + 3) = [])
    (first : c ∉ sys.claims 0 ∧ c ∉ sys.claims 1 ∧ c ∉ sys.claims 2) : ∀ d, c ∉ sys.claims d
  | 0 => first.1
  | 1 => first.2.1
  | 2 => first.2.2
  | n + 3 => by simp [few n]

theorem claims_stand_twoSenders : (twoSenders.foldl (step routeByNumber) atStart).ClaimsStand routeByNumber 0 := by
  have init : atStart.Initial := ⟨fun _ => rfl, fun slot => by cases slot <;> rfl, rfl⟩
  apply claims_stand atStart init twoSenders
  refine ⟨⟨rfl, fun _ _ => rfl, fun _ _ _ => trivial⟩, ⟨rfl, fun _ _ => rfl, fun _ _ _ => trivial⟩,
    ⟨rfl, fun _ _ => rfl, fun _ _ _ => trivial⟩, ⟨rfl, fun _ _ => rfl, fun _ d mem => ?_⟩,
    ⟨rfl, fun _ _ => rfl, fun _ d mem => ?_⟩, ⟨rfl, fun _ _ => rfl, fun _ d mem => ?_⟩,
    ⟨rfl, fun _ _ => rfl, fun _ d mem => ?_⟩, ⟨rfl, fun _ _ => rfl, fun idle => ?_⟩, trivial⟩
  · exact absurd mem (not_claimed (fun _ => rfl) (by decide) d)
  · exact absurd mem (not_claimed (fun _ => rfl) (by decide) d)
  · exact absurd mem (not_claimed (fun _ => rfl) (by decide) d)
  · exact absurd mem (not_claimed (fun _ => rfl) (by decide) d)
  · exact absurd idle (by decide)

/-- The channel end that was handed its destination has no packet yet, and its thread no longer waits. -/
theorem handed_over_not_paused : ¬ ∀ s ∈ (twoSenders.foldl (step routeByNumber) atStart).sys.claims 0,
      ((twoSenders.foldl (step routeByNumber) atStart).sys.chanends s).inUse = true ∧
        ((twoSenders.foldl (step routeByNumber) atStart).sys.HasRoute s 0 ∨
          PausedToward routeByNumber (twoSenders.foldl (step routeByNumber) atStart).sys s 0) := by
  intro all
  obtain ⟨-, route | ⟨-, t, paused, -⟩⟩ := all 2 (by decide)
  · exact absurd route.1 (by decide)
  · have none : ((twoSenders.foldl (step routeByNumber) atStart).sys.chanends 2).pausedOut = none := by decide
    simp [none] at paused

end ClaimRun

end Axe
