import Axe.Channel.Waits
import Axe.System.WakeEffects

/-! At which times the operations on channel ends wake threads. Every wake-up is at the
time of the operation, and so is the event of the channel end that the tokens reach. -/

namespace Axe

namespace System

variable {via : Routing} {pre sys : System} {due c d s t : Nat}

lemma SameClocks.updateChanend {upd : Chanend → Chanend} (same : ∀ ch, (upd ch).records = ch.records) :
    SameClocks due sys (sys.updateChanend c upd) :=
  .of_threads rfl rfl (fun _ _ _ => by rw [table_updateChanend _ _ same]; exact id) fun _ _ => .inl

variable {paused : Option Nat}

section

variable (own : ∀ t, paused = some t → sys.currentRunnable = some t)
include own

lemma recorded_update {slot other : WaitSlot} {u : Nat} (rests : sys.currentRunnable ≠ some u)
    (mem : u ∈ Function.update sys.table.recorded slot paused.toList other) : u ∈ sys.table.recorded other := by
  by_cases same : other = slot
  · subst same
    have noted : paused = some u := by simpa using mem
    exact absurd (own u noted) rests
  · simpa [same] using mem

lemma SameClocks.pausedOut : SameClocks due sys (sys.updateChanend c fun ch => { ch with pausedOut := paused }) := by
  refine .of_threads rfl rfl (fun u slot rests mem => ?_) fun _ _ => .inl
  rw [recorded_chanOut] at mem
  exact recorded_update own rests mem

lemma SameClocks.pausedIn {word : Chanend → Bool} :
    SameClocks due sys (sys.updateChanend c fun ch => { ch with pausedIn := paused, waitForWord := word ch }) := by
  refine .of_threads rfl rfl (fun u slot rests mem => ?_) fun _ _ => .inl
  rw [recorded_chanIn] at mem
  exact recorded_update own rests mem

end

section

section

variable (eff : ClockEffects due pre sys)
include eff

lemma ClockEffects.notifySource : ClockEffects due pre (sys.notifySource c due) := by
  unfold System.notifySource
  split
  · exact eff
  · rename_i t paused
    have noted : t ∈ sys.table.recorded (.chanOut c) := by simp [table, paused]
    exact (eff.wake (.of_recorded noted)).same (.pausedOut (by simp))

lemma ClockEffects.release : ClockEffects due pre (sys.release d due) := by
  unfold System.release
  split
  · exact eff.same (.updateChanend fun _ => rfl)
  · apply ClockEffects.notifySource
    exact eff.same (.updateChanend fun _ => rfl)

lemma ClockEffects.updateAfterToken
    (ahead : sys.NoneAhead (.chanend d) due) : ClockEffects due pre (sys.updateAfterToken d due) := by
  unfold System.updateAfterToken
  dsimp only
  split
  · rename_i legal
    have legal : sys.eventsPermitted (sys.eventable (.chanend d)) = true := legal
    have raised := eff.raiseEvent ahead
    rwa [System.raiseEvent, if_pos legal] at raised
  · split
    · exact eff
    · rename_i t paused
      split
      · exact eff
      · have noted : t ∈ sys.table.recorded (.chanIn d) := by simp [table, paused]
        exact (eff.wake (.of_recorded noted)).same (.pausedIn (by simp))

end

lemma permits_notifySource (res : ResourceRef) : (sys.notifySource c due).permits res = sys.permits res := by
  unfold notifySource
  split
  · rfl
  · rw [permits_updateChanend, permits_wake]
    exact fun _ => rfl

lemma permits_release (res : ResourceRef) : (sys.release d due).permits res = sys.permits res := by
  unfold release
  split
  · apply permits_updateChanend
    exact fun _ => rfl
  · rw [permits_notifySource, permits_updateChanend]
    exact fun _ => rfl

lemma permits_pushTokens (tokens : List Token) (res : ResourceRef) :
    (sys.pushTokens d tokens).permits res = sys.permits res := by
  apply permits_updateChanend
  exact fun _ => rfl

lemma ClockEffects.receiveDataTokens (eff : ClockEffects due pre sys)
    (ahead : sys.NoneAhead (.chanend d) due) (vals : List (BitVec 8)) :
    ClockEffects due pre (sys.receiveDataTokens d due vals) := by
  have push : SameClocks due sys (sys.pushTokens d (vals.map (⟨·, false⟩))) := .updateChanend fun _ => rfl
  have ahead := ahead.effects (push.effects eff.reached) (permits_pushTokens _ _)
  exact (eff.same push).updateAfterToken ahead

lemma ClockEffects.receiveCtrlToken (eff : ClockEffects due pre sys)
    (ahead : sys.NoneAhead (.chanend d) due) (value : BitVec 8) :
    ClockEffects due pre (sys.receiveCtrlToken d due value) := by
  have push : SameClocks due sys (sys.pushTokens d [⟨value, true⟩]) := .updateChanend fun _ => rfl
  have came := push.effects eff.reached
  unfold System.receiveCtrlToken
  split
  · refine (eff.same push).release.updateAfterToken (ahead.effects came.release ?_)
    rw [permits_release, permits_pushTokens]
  · split
    · exact eff.release
    · exact (eff.same push).updateAfterToken (ahead.effects came (permits_pushTokens _ _))

end

section

variable (via)

def destination (sys : System) (s : Nat) : Option Nat :=
  if (sys.chanends s).inPacket then (sys.chanends s).dest else sys.target via s

variable {via}

lemma RouteResult.destination {res : System × Bool} (route : RouteResult via sys s res)
    (success : res.2 = true) (kept : (res.1.chanends s).junkPacket = false)
    (dest : (res.1.chanends s).dest = some d) : sys.destination via s = some d := by
  cases route with
  | already pkt => simpa [System.destination, pkt] using dest
  | junked => simp [System.updateChanend] at kept
  | opened e pkt named =>
    obtain rfl : e = d := by simpa [System.updateChanend] using dest
    simp [System.destination, pkt, named]
  | queued => simp at success

lemma RouteResult.same {res : System × Bool} (route : RouteResult via sys s res) :
    SameClocks due sys res.1 := by
  cases route with
  | already => exact .of_threads rfl rfl (fun _ _ _ => id) fun _ _ => .inl
  | junked =>
    dsimp only
    exact .updateChanend fun _ => rfl
  | opened | queued =>
    dsimp only
    refine SameClocks.trans (.updateChanend ?_) (.updateChanend ?_) <;> exact fun _ => rfl

lemma SendResult.effects {room : Nat} {junk : System → System} {deliver : System → Nat → System}
    {res : System × ResOpResult Unit} (send : SendResult via sys s t room junk deliver res)
    (eff : ClockEffects due sys sys) (exec : sys.currentRunnable = some t)
    (ahead : ∀ d, sys.destination via s = some d → sys.NoneAhead (.chanend d) due)
    (drops : ∀ post : System, SameClocks due post (junk post))
    (sends : ∀ (post : System) d, ClockEffects due sys post → post.NoneAhead (.chanend d) due →
      ClockEffects due sys (deliver post d)) : ClockEffects due sys res.1 := by
  have routed {post : System} {success : Bool} (route : sys.openRoute via s = (post, success)) :
      SameClocks due sys post := (RouteResult.of_eq route).same
  have own {post : System} {success : Bool} (route : sys.openRoute via s = (post, success)) :
      ∀ u, some t = some u → post.currentRunnable = some u := by
    rintro u ⟨⟩
    exact (routed route).currentRunnable.trans exec
  cases send with
  | queued post route => exact (eff.same (routed route)).same (.pausedOut (own route))
  | full post d route => exact (eff.same (routed route)).same (.pausedOut (own route))
  | junked post route => exact (eff.same (routed route)).same (drops post)
  | adrift post route => exact eff.same (routed route)
  | delivered post d route kept dest =>
    have hits := (RouteResult.of_eq route).destination rfl kept dest
    have opened := eff.same (routed route)
    exact sends post d opened ((ahead d hits).effects opened ((RouteResult.of_eq route).permits _))

end

section

lemma ClockEffects.popTokens (eff : ClockEffects due pre sys) (num : Nat) :
    ClockEffects due pre (sys.popTokens c due num) := by
  have popped : ClockEffects due pre (sys.updateChanend c fun ch => { ch with buf := ch.buf.drop num }) :=
    eff.same (.updateChanend fun _ => rfl)
  unfold System.popTokens
  dsimp only
  split
  · exact popped
  · exact popped.notifySource

lemma SameClocks.alloc : SameClocks due sys (sys.alloc t c) := by
  refine .of_threads rfl rfl (fun u slot _ mem => ?_) fun _ _ => .inl
  cases slot with
  | chanIn e => by_cases here : e = c <;> simp_all [table, System.alloc, System.updateChanend]
  | chanOut e => by_cases here : e = c <;> simp_all [table, System.alloc, System.updateChanend]
  | portOut | portIn | portSync | timer | lock => exact mem

end

lemma perform_effects (call : ChanCall) (exec : sys.currentRunnable = some call.thread)
    (ahead : ∀ d, canEvent call.op = true → sys.destination via call.chanend = some d →
      sys.NoneAhead (.chanend d) (sys.threads call.thread).time) :
    ClockEffects (sys.threads call.thread).time sys (sys.perform via call).1 := by
  have same : SameClocks (sys.threads call.thread).time sys sys :=
    .of_threads rfl rfl (fun _ _ _ => id) fun _ _ => .inl
  have eff : ClockEffects (sys.threads call.thread).time sys sys := by
    apply same.effects
    intro u runs
    obtain rfl : call.thread = u := Option.some.inj (exec.symm.trans runs)
    exact le_rfl
  by_cases unsent : canEvent call.op = false ∨ (sys.chanends call.chanend).inUse = false
  · have owned : ClockEffects (sys.threads call.thread).time sys (sys.setOwner call.thread call.chanend) :=
      eff.same (.updateChanend fun _ => rfl)
    refine perform_keeps _ unsent eff (fun _ _ => eff.same .alloc) (fun _ => ?_) (fun _ _ => ?_)
      (fun _ => owned) (fun _ _ => owned.same (.pausedIn ?_)) fun _ num kept => kept.popTokens num
    · exact eff.same (.updateChanend fun _ => rfl)
    · exact eff.same (.updateChanend fun _ => rfl)
    · rintro u ⟨⟩
      exact exec
  · obtain ⟨t, c, op⟩ := call
    simp only [not_or, Bool.not_eq_false] at unsent
    have sends (d : Nat) := ahead d unsent.1
    rw [perform, if_pos unsent.2]
    cases op with
    | outt | out =>
      exact (sendTokens_result ..).effects eff exec sends
        (fun _ => .of_threads rfl rfl (fun _ _ _ => id) fun _ _ => .inl)
        fun post d reach ahead => reach.receiveDataTokens ahead _
    | outct value =>
      refine (sendTokens_result ..).effects eff exec sends (fun post => ?_) fun post d reach ahead => ?_
      · split
        · exact .updateChanend fun _ => rfl
        · exact .of_threads rfl rfl (fun _ _ _ => id) fun _ _ => .inl
      · have sent := reach.receiveCtrlToken ahead value
        split
        · exact sent.same (.updateChanend fun _ => rfl)
        · exact sent
    | _ => cases unsent.1

end System

end Axe
