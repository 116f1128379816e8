import Axe.Channel.Frames
import Axe.System.Waits

/-! How the operations on channel ends pause and wake threads. -/

namespace Axe

open Function

def Chanend.records (ch : Chanend) : Option Nat × Option Nat := (ch.pausedIn, ch.pausedOut)

def ChanCall.slot (call : ChanCall) : WaitSlot :=
  if System.canEvent call.op then .chanOut call.chanend else .chanIn call.chanend

lemma ChanCall.slot_resource (call : ChanCall) : call.slot.resource = .chanend call.chanend := by
  unfold slot
  split <;> rfl

namespace System

open WaitSlots (Table Sound)

section

variable (sys : System) (c d t time : Nat)

lemma recorded_updateChanend (upd : Chanend → Chanend) : (sys.updateChanend c upd).table.recorded =
    update (update sys.table.recorded (.chanIn c) (upd (sys.chanends c)).pausedIn.toList) (.chanOut c)
      (upd (sys.chanends c)).pausedOut.toList := by
  funext slot
  cases slot with
  | chanIn e => by_cases here : e = c <;> simp [table, updateChanend, here]
  | chanOut e => by_cases here : e = c <;> simp [table, updateChanend, here]
  | portOut | portIn | portSync | timer | lock => rfl

lemma recorded_chanOut (held : Option Nat) :
    (sys.updateChanend c fun ch => { ch with pausedOut := held }).table.recorded =
      update sys.table.recorded (.chanOut c) held.toList := by
  rw [recorded_updateChanend]
  exact congrArg (update · _ _) (update_eq_self _ _)

lemma recorded_chanIn (held : Option Nat) (word : Chanend → Bool) :
    (sys.updateChanend c fun ch => { ch with pausedIn := held, waitForWord := word ch }).table.recorded =
      update sys.table.recorded (.chanIn c) held.toList := by
  rw [recorded_updateChanend, update_comm (by nofun)]
  exact congrArg (update · _ _) (update_eq_self _ _)

lemma table_updateChanend {upd : Chanend → Chanend} (same : ∀ ch, (upd ch).records = ch.records) :
    (sys.updateChanend c upd).table = sys.table := by
  have pausedIn : (upd (sys.chanends c)).pausedIn = (sys.chanends c).pausedIn := congrArg Prod.fst (same _)
  have pausedOut : (upd (sys.chanends c)).pausedOut = (sys.chanends c).pausedOut := congrArg Prod.snd (same _)
  have rs : (sys.updateChanend c upd).table.recorded = sys.table.recorded := by
    rw [recorded_updateChanend, pausedIn, pausedOut]
    exact (congrArg (update · _ _) (update_eq_self _ _)).trans (update_eq_self _ _)
  exact congrArg (fun noted => Table.mk noted _) rs

lemma notifySource_table : (sys.notifySource c time).table = sys.table.wake (.chanOut c) := by
  unfold notifySource
  split
  · rename_i none
    exact (Table.wake_empty (by simp [table, none])).symm
  · rename_i t held
    apply Table.eq_wake (t := t)
    · simp [table, held]
    · exact (sys.wake t time).recorded_chanOut c none
    · exact sys.wake_waitsFor t time

lemma release_table : (sys.release d time).table = match (sys.chanends d).queue with
    | [] => sys.table
    | next :: _ => sys.table.wake (.chanOut next) := by
  unfold release
  cases (sys.chanends d).queue with
  | nil =>
    apply table_updateChanend
    exact fun _ => rfl
  | cons next rest =>
    rw [notifySource_table, table_updateChanend]
    exact fun _ => rfl

/-- No thread that waits for a resource can be made to take an event of a channel end. -/
def Undisturbed (sys : System) : Prop :=
  ∀ c t, sys.permits (.chanend c) = some t → sys.table.waitsFor t = none

variable {sys} in
lemma Undisturbed.mono {post : System} (quiet : sys.Undisturbed)
    (permits : ∀ res, post.permits res = sys.permits res)
    (wakes : ∀ t, post.table.waitsFor t = none ∨ post.table.waitsFor t = sys.table.waitsFor t) :
    post.Undisturbed := by
  intro c t legal
  rcases wakes t with woken | same
  · exact woken
  · rw [same]
    exact quiet c t (permits _ ▸ legal)

/-- The thread waiting for input is woken unless an event is raised in its place, or it
waits for a word that is not complete. -/
lemma updateAfterToken_table (quiet : sys.Undisturbed) : (sys.updateAfterToken d time).table =
    if sys.eventsPermitted (sys.chanends d).events ||
        (sys.chanends d).waitForWord && decide ((sys.chanends d).buf.length < 4) then sys.table
    else sys.table.wake (.chanIn d) := by
  unfold updateAfterToken
  dsimp only
  cases legal : sys.eventsPermitted (sys.chanends d).events with
  | true => exact sys.event_table (.chanend d) time (quiet d) legal
  | false =>
    simp only [Bool.false_eq_true, if_false, Bool.false_or]
    split
    · rename_i none
      rw [Table.wake_empty (by simp [table, none])]
      simp
    · rename_i t held
      split
      · rfl
      · apply Table.eq_wake (t := t)
        · simp [table, held]
        · exact (sys.wake t time).recorded_chanIn d none (·.waitForWord)
        · exact sys.wake_waitsFor t time

lemma permits_updateChanend {upd : Chanend → Chanend} (same : ∀ ch, (upd ch).events = ch.events)
    (res : ResourceRef) : (sys.updateChanend c upd).permits res = sys.permits res := by
  have eventable : (sys.updateChanend c upd).eventable res = sys.eventable res := by
    cases res with
    | chanend e => by_cases here : e = c <;> simp [eventable, updateChanend, here, same]
    | _ => rfl
  have legal (evs : Eventable) :
      (sys.updateChanend c upd).eventsPermitted evs = sys.eventsPermitted evs := rfl
  simp only [permits, eventable, legal]

end

/-- The records are sound, and of the threads that waited at first some may have been
woken; only a channel end that is operated on itself can lose a record without that. -/
structure Calm (pre : Table Nat WaitSlot ResourceRef) (operated : Nat) (sys : System) : Prop where
  sound : sys.WaitsSound
  wakes : ∀ t, sys.table.waitsFor t = none ∨ sys.table.waitsFor t = pre.waitsFor t
  kept : ∀ slot t, slot.resource ≠ .chanend operated → t ∈ pre.recorded slot →
    t ∈ sys.table.recorded slot ∨ sys.table.waitsFor t = none

section

variable {via : Routing} {pre : Table Nat WaitSlot ResourceRef} {operated : Nat} {sys : System}
  {s t room : Nat} (c d time : Nat)

section

variable (calm : sys.Calm pre operated)
include calm

lemma Calm.of_table {post : System} (same : post.table = sys.table) : post.Calm pre operated := by
  constructor
  · rw [WaitsSound, same]
    exact calm.sound
  · rw [same]
    exact calm.wakes
  · rw [same]
    exact calm.kept

lemma Calm.of_wake {post : System} {slot : WaitSlot}
    (wakes : post.table = sys.table.wake slot) : post.Calm pre operated := by
  constructor
  · rw [WaitsSound, wakes]
    exact calm.sound.wake slot
  · intro t
    rw [wakes]
    dsimp only [Table.wake]
    split
    · exact .inl rfl
    · exact calm.wakes t
  · intro other t away mem
    rw [wakes]
    rcases calm.kept other t away mem with stays | woken
    · by_cases here : other = slot
      · exact .inr (by simp [Table.wake, here ▸ stays])
      · exact .inl (by simpa [Table.wake, here] using stays)
    · exact .inr (by simp [Table.wake, woken])

lemma Calm.updateChanend {upd : Chanend → Chanend}
    (rs : ∀ ch, (upd ch).records = ch.records) : (sys.updateChanend c upd).Calm pre operated :=
  calm.of_table (table_updateChanend _ _ rs)

lemma Calm.notifySource : (sys.notifySource c time).Calm pre operated :=
  calm.of_wake (sys.notifySource_table c time)

lemma Calm.release : (sys.release d time).Calm pre operated := by
  have table := sys.release_table d time
  split at table
  · exact calm.of_table table
  · exact calm.of_wake table

lemma Calm.updateAfterToken (quiet : sys.Undisturbed) : (sys.updateAfterToken d time).Calm pre operated := by
  have table := sys.updateAfterToken_table d time quiet
  split at table
  · exact calm.of_table table
  · exact calm.of_wake table

end

lemma Undisturbed.updateChanend (quiet : sys.Undisturbed) {upd : Chanend → Chanend}
    (evs : ∀ ch, (upd ch).events = ch.events) (rs : ∀ ch, (upd ch).records = ch.records) :
    (sys.updateChanend c upd).Undisturbed :=
  quiet.mono (sys.permits_updateChanend c evs) fun _ => .inr (by rw [table_updateChanend _ _ rs])

lemma Undisturbed.notifySource (quiet : sys.Undisturbed) : (sys.notifySource c time).Undisturbed := by
  apply quiet.mono
  · intro res
    unfold System.notifySource
    split
    · rfl
    · rw [permits_updateChanend, permits_wake]
      exact fun _ => rfl
  · intro t
    rw [notifySource_table]
    dsimp only [Table.wake]
    split
    · exact .inl rfl
    · exact .inr rfl

lemma Undisturbed.release (quiet : sys.Undisturbed) : (sys.release d time).Undisturbed := by
  unfold System.release
  split
  · exact quiet.updateChanend d (fun _ => rfl) fun _ => rfl
  · apply Undisturbed.notifySource
    exact quiet.updateChanend d (fun _ => rfl) fun _ => rfl

section

variable (calm : sys.Calm pre operated)
include calm

lemma Calm.receiveDataTokens (quiet : sys.Undisturbed)
    (values : List (BitVec 8)) : (sys.receiveDataTokens d time values).Calm pre operated := by
  apply Calm.updateAfterToken
  · exact calm.updateChanend d fun _ => rfl
  · exact quiet.updateChanend d (fun _ => rfl) fun _ => rfl

lemma Calm.receiveCtrlToken (quiet : sys.Undisturbed) (val : BitVec 8) :
    (sys.receiveCtrlToken d time val).Calm pre operated := by
  have push (toks : List Token) : (sys.pushTokens d toks).Calm pre operated := calm.updateChanend d fun _ => rfl
  have still (toks : List Token) : (sys.pushTokens d toks).Undisturbed :=
    quiet.updateChanend d (fun _ => rfl) fun _ => rfl
  unfold System.receiveCtrlToken
  split
  · exact ((push _).release d time).updateAfterToken d time ((still _).release d time)
  · split
    · exact calm.release d time
    · exact (push _).updateAfterToken d time (still _)

lemma Calm.popTokens
    (num : Nat) : (sys.popTokens c time num).Calm pre operated := by
  have drop : (sys.updateChanend c fun ch => { ch with buf := ch.buf.drop num }).Calm pre operated :=
    calm.updateChanend c fun _ => rfl
  unfold System.popTokens
  dsimp only
  split
  · exact drop
  · exact drop.notifySource _ _

end

/-- An operation either pauses its thread in the slot and wakes no one, or goes on with all records sound. -/
def PausesIn {Value : Type} (pre : Table Nat WaitSlot ResourceRef) (operated : Nat) (sys : System) (slot : WaitSlot)
    (t : Nat) (result : System × ResOpResult Value) : Prop :=
  match result.2 with
  | .deschedule => result.1.table = sys.table.record slot t ∧ result.1.pendingEvent = sys.pendingEvent
  | _ => result.1.Calm pre operated

variable {result : System × Bool}

section

variable (route : RouteResult via sys s result)
include route

lemma RouteResult.table : result.1.table = sys.table := by
  cases route with
  | already => rfl
  | junked =>
    rw [table_updateChanend]
    exact fun _ => rfl
  | opened | queued =>
    rw [table_updateChanend, table_updateChanend] <;> exact fun _ => rfl

lemma RouteResult.permits (res : ResourceRef) : result.1.permits res = sys.permits res := by
  cases route with
  | already => rfl
  | junked =>
    rw [permits_updateChanend]
    exact fun _ => rfl
  | opened | queued =>
    rw [permits_updateChanend, permits_updateChanend] <;> exact fun _ => rfl

lemma RouteResult.pendingEvent : result.1.pendingEvent = sys.pendingEvent := by
  cases route <;> rfl

end

variable {junk : System → System} {deliver : System → Nat → System} {slot : WaitSlot}

lemma SendResult.pausesIn {result : System × ResOpResult Unit}
    (send : SendResult via sys s t room junk deliver result) (calm : sys.Calm pre operated)
    (quiet : sys.Undisturbed) (drops : ∀ sys : System, sys.Calm pre operated → (junk sys).Calm pre operated)
    (sends : ∀ (sys : System) d, sys.Calm pre operated → sys.Undisturbed → (deliver sys d).Calm pre operated) :
    sys.PausesIn pre operated (.chanOut s) t result := by
  have routed {post : System} {success : Bool} (route : sys.openRoute via s = (post, success)) :
      post.Calm pre operated ∧ post.Undisturbed := by
    have same : post.table = sys.table := (RouteResult.of_eq route).table
    exact ⟨calm.of_table same, quiet.mono (RouteResult.of_eq route).permits fun _ => .inr (by rw [same])⟩
  have held {post : System} {success : Bool} (route : sys.openRoute via s = (post, success)) :
      sys.PausesIn pre operated (.chanOut s) t
        (post.updateChanend s fun ch => { ch with pausedOut := some t }, (.deschedule : ResOpResult Unit)) := by
    constructor
    · have rs := post.recorded_chanOut s (some t)
      have same : post.table = sys.table := (RouteResult.of_eq route).table
      rw [same] at rs
      exact congrArg₂ Table.mk rs (congrArg Table.waitsFor same)
    · exact (RouteResult.of_eq route).pendingEvent
  cases send with
  | queued post route => exact held route
  | full post d route => exact held route
  | junked post route => exact drops post (routed route).1
  | adrift post route => exact (routed route).1
  | delivered post d route => exact sends post d (routed route).1 (routed route).2

section

variable (calm : sys.Calm pre operated)
include calm

lemma outt_pausesIn (quiet : sys.Undisturbed) (val : BitVec 8) :
    sys.PausesIn pre operated (.chanOut c) t (sys.outt via t c time val) :=
  (sendTokens_result ..).pausesIn calm quiet (fun _ calm => calm)
    fun _ d calm quiet => calm.receiveDataTokens d time quiet _

lemma out_pausesIn (quiet : sys.Undisturbed) (val : BitVec 32) :
    sys.PausesIn pre operated (.chanOut c) t (sys.out via t c time val) :=
  (sendTokens_result ..).pausesIn calm quiet (fun _ calm => calm)
    fun _ d calm quiet => calm.receiveDataTokens d time quiet _

lemma outct_pausesIn (quiet : sys.Undisturbed) (val : BitVec 8) :
    sys.PausesIn pre operated (.chanOut c) t (sys.outct via t c time val) := by
  apply (sendTokens_result ..).pausesIn calm quiet
  · intro sys calm
    split
    · exact calm.updateChanend c fun _ => rfl
    · exact calm
  · intro sys d calm quiet
    split
    · exact (calm.receiveCtrlToken d time quiet val).updateChanend c fun _ => rfl
    · exact calm.receiveCtrlToken d time quiet val

end

lemma setPausedIn_table (word : Bool) : (sys.setPausedIn t c word).table = sys.table.record (.chanIn c) t :=
  congrArg (Table.mk · _) (sys.recorded_chanIn c (some t) fun _ => word)

lemma setOwner_table : (sys.setOwner t c).table = sys.table :=
  table_updateChanend _ _ fun _ => rfl

variable (t) in
lemma testct_pausesIn (calm : sys.Calm pre operated) : match (sys.testct t c).2 with
    | none => (sys.testct t c).1.table = sys.table.record (.chanIn c) t ∧
        (sys.testct t c).1.pendingEvent = sys.pendingEvent
    | some _ => (sys.testct t c).1.Calm pre operated ∧ ((sys.testct t c).1.chanends c).buf ≠ [] := by
  unfold testct
  dsimp only
  cases toks : ((sys.setOwner t c).chanends c).buf with
  | nil =>
    dsimp only
    exact ⟨by rw [setPausedIn_table, setOwner_table], rfl⟩
  | cons token rest =>
    dsimp only
    exact ⟨calm.of_table (setOwner_table c), by simp [toks]⟩

section

variable (calm : sys.Calm pre operated)
include calm

variable (t) in
lemma testwct_pausesIn : match (sys.testwct t c).2 with
    | none => (sys.testwct t c).1.table = sys.table.record (.chanIn c) t ∧
        (sys.testwct t c).1.pendingEvent = sys.pendingEvent
    | some _ => (sys.testwct t c).1.Calm pre operated := by
  have owned : (sys.setOwner t c).Calm pre operated := calm.of_table (setOwner_table c)
  unfold testwct
  by_cases control : controlPosition ((sys.setOwner t c).chanends c).buf = 0
  · by_cases short : ((sys.setOwner t c).chanends c).buf.length < 4
    · simp only [control, short, ne_eq, not_true, if_false, if_true]
      exact ⟨by rw [setPausedIn_table, setOwner_table], rfl⟩
    · simpa [control, short] using owned
  · simpa [control] using owned

lemma inputToken_pausesIn (acc : Token → Bool) :
    sys.PausesIn pre operated (.chanIn c) t (sys.inputToken t c time acc) := by
  have test := testct_pausesIn t c calm
  unfold inputToken
  generalize sys.testct t c = result at test ⊢
  obtain ⟨post, isCt⟩ := result
  cases isCt with
  | none => exact test
  | some isCt =>
    obtain ⟨calm, ne⟩ := test
    dsimp only at calm ne ⊢
    split
    · exact absurd ‹_› ne
    · split
      · exact calm.popTokens c time 1
      · exact calm

lemma inWord_pausesIn : sys.PausesIn pre operated (.chanIn c) t (sys.inWord t c time) := by
  have test := testwct_pausesIn t c calm
  unfold inWord
  generalize sys.testwct t c = result at test ⊢
  obtain ⟨post, pos⟩ := result
  match pos with
  | none => exact test
  | some 0 => exact Calm.popTokens c time test 4
  | some (_ + 1) => exact test

end

lemma Calm.alloc (calm : sys.Calm pre c) : (sys.alloc t c).Calm pre c := by
  have rs : (sys.alloc t c).table.recorded =
      ((sys.table.forget (.chanIn c)).forget (.chanOut c)).recorded := by
    funext slot
    cases slot with
    | chanIn e | chanOut e =>
      by_cases here : e = c <;> simp [table, System.alloc, System.updateChanend, Table.forget, here]
    | portOut | portIn | portSync | timer | lock => rfl
  have same : (sys.alloc t c).table = (sys.table.forget (.chanIn c)).forget (.chanOut c) :=
    congrArg (Table.mk · _) rs
  constructor
  · rw [WaitsSound, same]
    exact (calm.sound.forget _).forget _
  · rw [same]
    exact calm.wakes
  · intro slot u elsewhere mem
    rw [same]
    have away : slot ≠ .chanIn c ∧ slot ≠ .chanOut c := by
      constructor <;> rintro rfl <;> exact elsewhere rfl
    rcases calm.kept slot u elsewhere mem with stays | woken
    · exact .inl (Table.mem_cleared.mpr ⟨away.2, Table.mem_cleared.mpr ⟨away.1, stays⟩⟩)
    · exact .inr woken

lemma Calm.free (calm : sys.Calm pre operated) : (sys.free c).1.Calm pre operated := by
  unfold System.free
  dsimp only
  split
  · exact calm
  · apply calm.of_table
    dsimp only
    apply table_updateChanend
    exact fun _ => rfl

lemma Calm.setData (calm : sys.Calm pre operated)
    (val : BitVec 32) : (sys.setData c val).1.Calm pre operated := by
  unfold System.setData
  dsimp only
  split
  · exact calm
  · split
    · exact calm
    · apply calm.of_table
      dsimp only
      apply table_updateChanend
      exact fun _ => rfl

lemma PausesIn.ofUnit {result : System × ResOpResult Unit}
    (pauses : sys.PausesIn pre operated slot t result) : sys.PausesIn pre operated slot t (ofUnit result) := by
  obtain ⟨post, result⟩ := result
  cases result <;> exact pauses

lemma Calm.ofBool (calm : result.1.Calm pre operated) : sys.PausesIn pre operated slot t (ofBool result) := by
  obtain ⟨post, success⟩ := result
  cases success <;> exact calm

lemma perform_pausesIn (call : ChanCall) (calm : sys.Calm pre call.chanend) (quiet : sys.Undisturbed) :
    sys.PausesIn pre call.chanend call.slot call.thread (sys.perform via call) := by
  obtain ⟨t, c, op⟩ := call
  unfold perform
  dsimp only
  cases inUse : (sys.chanends c).inUse with
  | true =>
    cases op with
    | alloc => exact calm
    | free => exact (calm.free c).ofBool
    | setd val => exact (calm.setData c val).ofBool
    | outt val => exact (outt_pausesIn c _ calm quiet val).ofUnit
    | out val => exact (out_pausesIn c _ calm quiet val).ofUnit
    | outct val => exact (outct_pausesIn c _ calm quiet val).ofUnit
    | intoken => exact inputToken_pausesIn c _ calm _
    | inct => exact inputToken_pausesIn c _ calm _
    | chkct val => exact inputToken_pausesIn c _ calm _
    | inWord => exact inWord_pausesIn c _ calm
    | testct =>
      have test := testct_pausesIn t c calm
      dsimp only [ofTest]
      generalize sys.testct t c = result at test ⊢
      obtain ⟨post, isCt⟩ := result
      cases isCt with
      | none => exact test
      | some isCt => exact test.1
    | testwct =>
      have test := testwct_pausesIn t c calm
      dsimp only [ofTest]
      generalize sys.testwct t c = result at test ⊢
      obtain ⟨post, pos⟩ := result
      cases pos with
      | none => exact test
      | some pos => exact test
  | false =>
    cases op with
    | alloc => exact calm.alloc c
    | _ => exact calm

lemma notifySource_pendingEvent : (sys.notifySource c time).pendingEvent = sys.pendingEvent := by
  unfold notifySource
  split <;> rfl

lemma popTokens_pendingEvent (num : Nat) : (sys.popTokens c time num).pendingEvent = sys.pendingEvent := by
  unfold popTokens
  dsimp only
  split
  · rfl
  · rw [notifySource_pendingEvent]
    rfl

variable (via sys) in
lemma perform_pendingEvent (call : ChanCall)
    (unsent : canEvent call.op = false ∨ (sys.chanends call.chanend).inUse = false) :
    (sys.perform via call).1.pendingEvent = sys.pendingEvent :=
  perform_keeps (·.pendingEvent = sys.pendingEvent) unsent rfl (fun _ _ => rfl) (fun _ => rfl) (fun _ _ => rfl)
    (fun _ => rfl) (fun _ _ => rfl) fun _ _ same => (popTokens_pendingEvent ..).trans same

section

variable (res : ResourceRef) (canEvent : Bool)

lemma finish_table (free : sys.table.waitsFor t = none) {result : ResOpResult (BitVec 32)}
    (goesOn : result ≠ .deschedule) : (sys.finish t res canEvent result).table = sys.table := by
  cases result with
  | continued val =>
    have next : (sys.updateThread t fun th => { th with pc := th.pc + 1 }).table = sys.table :=
      sys.table_updateThread t _ rfl
    unfold finish
    dsimp only
    split
    · have taken := takePendingEvent_table _ t (by rw [next]; exact free)
      rw [schedule_table _ t (by rw [taken, next]; exact free), taken, next]
    · exact next
  | deschedule => exact absurd rfl goesOn
  | illegal =>
    unfold finish
    exact sys.table_updateThread t _ rfl

lemma finish_deschedule (pend : sys.pendingEvent = none) : (sys.finish t res canEvent .deschedule).table =
      { sys.table with waitsFor := update sys.table.waitsFor t (some res) } := by
  have ts : (sys.updateThread t fun th =>
      { th with waiting := true, pausedOn := some res }).table.waitsFor =
        update sys.table.waitsFor t (some res) := by
    funext u
    by_cases here : u = t <;> simp [table, updateThread, Thread.waitsFor, here]
  unfold finish
  simp only [pend, Option.isSome_none, Bool.and_false, Bool.false_eq_true, if_false]
  exact congrArg (Table.mk _) ts

end

variable (via sys) in
/-- What an instruction on a channel end does to those that wait. -/
structure Executed (call : ChanCall) : Prop where
  sound : (sys.execute via call).WaitsSound
  pending : (sys.execute via call).pendingEvent = none
  own : (sys.execute via call).table.waitsFor call.thread =
    if (sys.attempt via call).2 = .deschedule then some (.chanend call.chanend) else none
  others : ∀ u, u ≠ call.thread → (sys.execute via call).table.waitsFor u = none ∨
    (sys.execute via call).table.waitsFor u = sys.table.waitsFor u
  paused : (sys.attempt via call).2 = .deschedule →
    (sys.execute via call).table = sys.table.pause WaitSlot.resource call.slot call.thread
  kept : ∀ slot u, slot.resource ≠ .chanend call.chanend → u ∈ sys.table.recorded slot →
    u ∈ (sys.execute via call).table.recorded slot ∨
      (sys.execute via call).table.waitsFor u = none

lemma SendResult.not_illegal {result : System × ResOpResult Unit}
    (send : SendResult via sys s t room junk deliver result) : (ofUnit result).2 ≠ .illegal := by
  cases send <;> simp [ofUnit, ResOpResult.map]

variable (via sys) in
lemma perform_output (call : ChanCall) (output : canEvent call.op = true)
    (inUse : (sys.chanends call.chanend).inUse = true) : (sys.perform via call).2 ≠ .illegal := by
  obtain ⟨t, c, op⟩ := call
  unfold perform
  simp only at inUse
  simp only [inUse, if_true]
  cases op with
  | outt | out | outct => exact (sendTokens_result ..).not_illegal
  | _ => simp [canEvent] at output

variable (via) in
lemma attempt_trap (call : ChanCall) (trap : (sys.attempt via call).2 = .illegal) :
    canEvent call.op = false ∨ (sys.chanends call.chanend).inUse = false := by
  by_contra sends
  simp only [not_or, Bool.not_eq_false] at sends
  exact perform_output via { sys with currentRunnable := some call.thread } call sends.1 sends.2 trap

lemma finish_pendingEvent (res : ResourceRef) (canEvent : Bool) {result : ResOpResult (BitVec 32)}
    (pend : (canEvent = false ∨ result = .deschedule ∨ result = .illegal) → sys.pendingEvent = none) :
    (sys.finish t res canEvent result).pendingEvent = none := by
  cases result with
  | continued val =>
    unfold finish
    dsimp only
    split
    · exact takePendingEvent_pendingEvent _ t
    · rename_i none
      cases canEvent with
      | false => exact pend (.inl rfl)
      | true => simpa using none
  | deschedule => simp [finish, pend (.inr (.inl rfl))]
  | illegal => exact pend (.inr (.inr rfl))

variable (via) in
lemma execute_executed (sound : sys.WaitsSound) (pend : sys.pendingEvent = none)
    (undisturbed : sys.Undisturbed) (call : ChanCall) (runs : (sys.threads call.thread).waiting = false) :
    sys.Executed via call := by
  have free : sys.table.waitsFor call.thread = none := by simp [table, Thread.waitsFor, runs]
  have starts : { sys with currentRunnable := some call.thread }.Calm sys.table call.chanend :=
    ⟨sound, fun _ => .inr rfl, fun _ _ _ mem => .inl mem⟩
  have pauses : sys.PausesIn sys.table call.chanend call.slot call.thread (sys.attempt via call) :=
    perform_pausesIn call starts undisturbed
  have quiet (unsent : canEvent call.op = false ∨ (sys.chanends call.chanend).inUse = false) :
      (sys.attempt via call).1.pendingEvent = none :=
    (perform_pendingEvent via { sys with currentRunnable := some call.thread } call unsent).trans pend
  have none_pending : (sys.execute via call).pendingEvent = none := by
    apply finish_pendingEvent
    rintro (input | held | trap)
    · exact quiet (.inl input)
    · rw [PausesIn, held] at pauses
      exact pauses.2.trans pend
    · exact quiet (attempt_trap via call trap)
  by_cases held : (sys.attempt via call).2 = .deschedule
  · rw [PausesIn, held] at pauses
    have table : (sys.execute via call).table = sys.table.pause WaitSlot.resource call.slot call.thread := by
      rw [execute, held, finish_deschedule _ _ (pauses.2.trans pend), pauses.1, Table.pause, call.slot_resource]
      rfl
    refine ⟨?_, none_pending, ?_, ?_, fun _ => table, ?_⟩
    · rw [WaitsSound, table]
      exact sound.pause free call.slot
    · simp [table, Table.pause, held, call.slot_resource]
    · intro u apart
      simp [table, Table.pause, Table.record, apart]
    · intro slot u elsewhere mem
      have away : slot ≠ call.slot := fun same => elsewhere (same ▸ call.slot_resource)
      exact .inl (by simpa [table, Table.pause, Table.record, away] using mem)
  · have calm : (sys.attempt via call).1.Calm sys.table call.chanend := by
      unfold PausesIn at pauses
      split at pauses
      · exact absurd ‹_› held
      · exact pauses
    have runs_on : (sys.attempt via call).1.table.waitsFor call.thread = none := by
      rcases calm.wakes call.thread with woken | same
      · exact woken
      · exact same.trans free
    have table : (sys.execute via call).table = (sys.attempt via call).1.table :=
      finish_table _ _ runs_on held
    refine ⟨?_, none_pending, ?_, ?_, fun stops => absurd stops held, ?_⟩
    · rw [WaitsSound, table]
      exact calm.sound
    · rw [table, runs_on, if_neg held]
    · intro u apart
      rw [table]
      exact calm.wakes u
    · rw [table]
      exact calm.kept

end

end System

end Axe
