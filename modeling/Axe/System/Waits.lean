import Axe.System.State
import Axe.Library.WaitSlots

/-! Which resources record which threads as waiting. -/

namespace Axe

open WaitSlots (Table Sound)

inductive WaitSlot where
  | portOut (num : Nat)
  | portIn (num : Nat)
  | portSync (num : Nat)
  | chanIn (num : Nat)
  | chanOut (num : Nat)
  | timer (num : Nat)
  | lock (num : Nat)
  deriving DecidableEq, Repr

def WaitSlot.resource : WaitSlot → ResourceRef
  | .portOut p => .port p
  | .portIn p => .port p
  | .portSync p => .port p
  | .chanIn c => .chanend c
  | .chanOut c => .chanend c
  | .timer n => .timer n
  | .lock n => .lock n

def Thread.waitsFor (th : Thread) : Option ResourceRef :=
  if th.waiting then th.pausedOn else none

namespace System

def table (sys : System) : Table Nat WaitSlot ResourceRef where
  recorded
    | .portOut p => (sys.ports p).pausedOut.toList
    | .portIn p => (sys.ports p).pausedIn.toList
    | .portSync p => (sys.ports p).pausedSync.toList
    | .chanIn c => (sys.chanends c).pausedIn.toList
    | .chanOut c => (sys.chanends c).pausedOut.toList
    | .timer n => (sys.timers n).pausedIn.toList
    | .lock n => (sys.locks n).threads
  waitsFor t := (sys.threads t).waitsFor

/-- No record outlives the wait it was made for. -/
def WaitsSound (sys : System) : Prop := Sound WaitSlot.resource sys.table

variable (sys : System)

lemma table_updateThread (t : Nat) (upd : Thread → Thread)
    (same : (upd (sys.threads t)).waitsFor = (sys.threads t).waitsFor) :
    (sys.updateThread t upd).table = sys.table := by
  have ts : (sys.updateThread t upd).table.waitsFor = sys.table.waitsFor := by
    funext u
    by_cases here : u = t
    · simp [table, updateThread, here, same]
    · simp [table, updateThread, here]
  exact congrArg (Table.mk _) ts

lemma wake_waitsFor (t time u : Nat) :
    (sys.wake t time).table.waitsFor u = if u = t then none else sys.table.waitsFor u := by
  by_cases here : u = t
  · simp [table, wake, schedule, updateThread, Thread.waitsFor, here]
  · simp [table, wake, schedule, updateThread, here]

def permits (res : ResourceRef) : Option Nat :=
  if sys.eventsPermitted (sys.eventable res) then (sys.eventable res).owner else none

lemma permits_wake (t time : Nat) (res : ResourceRef) : (sys.wake t time).permits res = sys.permits res := by
  have eventable : (sys.wake t time).eventable res = sys.eventable res := by cases res <;> rfl
  have flags (u : Nat) : ((sys.wake t time).threads u).ieble = (sys.threads u).ieble ∧
      ((sys.wake t time).threads u).eeble = (sys.threads u).eeble := by
    by_cases here : u = t <;> simp [wake, schedule, updateThread, here]
  have legal (evs : Eventable) : (sys.wake t time).eventsPermitted evs = sys.eventsPermitted evs := by
    unfold eventsPermitted
    split
    · rfl
    · simp only [flags]
  simp only [permits, eventable, legal]

lemma completeEvent_table (t : Nat) (res : ResourceRef) (intr : Bool) :
    (sys.completeEvent t res intr).table = sys.table := by
  unfold completeEvent
  dsimp only
  split
  · exact sys.table_updateThread t _ rfl
  · rw [table_updateThread _ _ _ rfl, table_updateThread _ _ _ rfl]

lemma takeEvent_table (t : Nat) (res : ResourceRef) (intr : Bool) (free : sys.table.waitsFor t = none) :
    (sys.takeEvent t res intr).table = sys.table := by
  unfold takeEvent
  rw [completeEvent_table]
  split
  · rename_i wait
    have unpaused : (sys.threads t).pausedOn = none := by
      simpa [table, Thread.waitsFor, wait] using free
    rw [unpaused]
    exact sys.table_updateThread t _ (by simp [Thread.waitsFor, unpaused])
  · rfl

lemma cancel_table (res : ResourceRef) : (sys.cancel res).table = sys.table := by
  cases res <;> rfl

lemma takeEvent_others (t : Nat) (res : ResourceRef) (intr : Bool) :
    (sys.takeEvent t res intr).table.recorded = sys.table.recorded ∧
      ∀ u, u ≠ t → (sys.takeEvent t res intr).table.waitsFor u = sys.table.waitsFor u := by
  have due (sys : System) : (sys.schedule t).table.recorded = sys.table.recorded ∧
      ∀ u, u ≠ t → (sys.schedule t).table.waitsFor u = sys.table.waitsFor u :=
    ⟨rfl, fun u other => by simp [table, schedule, updateThread, other]⟩
  unfold takeEvent
  rw [completeEvent_table]
  split
  · split
    · rename_i paused _
      rw [← sys.cancel_table paused]
      exact due _
    · exact due sys
  · exact ⟨rfl, fun _ _ => rfl⟩

lemma WaitsSound.takeEvent {sys : System} (sound : sys.WaitsSound) {t : Nat}
    (unrecorded : ∀ slot, t ∉ sys.table.recorded slot) (res : ResourceRef) (intr : Bool) :
    (sys.takeEvent t res intr).WaitsSound := by
  obtain ⟨noted, others⟩ := sys.takeEvent_others t res intr
  constructor
  · intro slot u mem
    rw [noted] at mem
    have other : u ≠ t := by
      rintro rfl
      exact unrecorded slot mem
    rw [others u other]
    exact sound.waits slot u mem
  · rw [noted]
    exact sound.once
  · rw [noted]
    exact sound.nodup

lemma event_table (res : ResourceRef) (time : Nat)
    (quiet : ∀ t, sys.permits res = some t → sys.table.waitsFor t = none)
    (legal : sys.eventsPermitted (sys.eventable res) = true) : (sys.event res time).table = sys.table := by
  unfold event
  dsimp only
  split
  · rfl
  · rename_i owner owned
    have free : sys.table.waitsFor owner = none := quiet owner (by simp [permits, legal, owned])
    split
    · unfold setPendingEvent
      split
      · split <;> rfl
      · rfl
    · have same := sys.table_updateThread owner (fun th => { th with time := time }) rfl
      rw [takeEvent_table _ _ _ _ (by rw [same]; exact free), same]

lemma takePendingEvent_table (t : Nat) (free : sys.table.waitsFor t = none) :
    (sys.takePendingEvent t).table = sys.table := by
  unfold takePendingEvent
  split
  · rfl
  · rename_i event pending
    have same := sys.table_updateThread t
      (fun th => { th with time := max th.time event.time, waiting := false })
      (by simpa [Thread.waitsFor, table] using free.symm)
    exact (completeEvent_table _ _ _ _).trans same

lemma schedule_table (t : Nat) (free : sys.table.waitsFor t = none) : (sys.schedule t).table = sys.table :=
  sys.table_updateThread t _ (by simpa [Thread.waitsFor, table] using free.symm)

end System

end Axe
