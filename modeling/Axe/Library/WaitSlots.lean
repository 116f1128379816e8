import Mathlib.Data.List.Basic

/-! Threads that wait and the slots that record them. A resource wakes a thread
through the slot that records it, so a record must not outlive the wait it was made
for. Threads, slots and resources are arbitrary. -/

namespace WaitSlots

variable {Thread Slot Res : Type}

structure Table (Thread Slot Res : Type) where
  recorded : Slot → List Thread
  waitsFor : Thread → Option Res

structure Sound (resource : Slot → Res) (table : Table Thread Slot Res) : Prop where
  waits : ∀ slot t, t ∈ table.recorded slot → table.waitsFor t = some (resource slot)
  once : ∀ slot other t, t ∈ table.recorded slot → t ∈ table.recorded other → slot = other
  nodup : ∀ slot, (table.recorded slot).Nodup

variable {resource : Slot → Res} {table : Table Thread Slot Res}

lemma Sound.not_recorded (sound : Sound resource table) {t : Thread} (runs : table.waitsFor t = none)
    (slot : Slot) : t ∉ table.recorded slot := by
  intro mem
  simp [sound.waits slot t mem] at runs

variable [DecidableEq Slot]

namespace Table

def record (table : Table Thread Slot Res) (slot : Slot) (t : Thread) : Table Thread Slot Res :=
  { table with recorded := Function.update table.recorded slot [t] }

def forget (table : Table Thread Slot Res) (slot : Slot) : Table Thread Slot Res :=
  { table with recorded := Function.update table.recorded slot [] }

lemma mem_cleared {slot other : Slot} {t : Thread} :
    t ∈ (table.forget slot).recorded other ↔ other ≠ slot ∧ t ∈ table.recorded other := by
  by_cases here : other = slot
  · subst here
    simp [forget]
  · simp [forget, here]

lemma forget_empty {slot : Slot} (empty : table.recorded slot = []) : table.forget slot = table := by
  rw [forget, ← empty, Function.update_eq_self]

variable [DecidableEq Thread]

def wake (table : Table Thread Slot Res) (slot : Slot) : Table Thread Slot Res where
  recorded := Function.update table.recorded slot []
  waitsFor t := if t ∈ table.recorded slot then none else table.waitsFor t

def pause (table : Table Thread Slot Res) (resource : Slot → Res) (slot : Slot) (t : Thread) :
    Table Thread Slot Res :=
  { table.record slot t with waitsFor := Function.update table.waitsFor t (some (resource slot)) }

lemma wake_empty {slot : Slot} (empty : table.recorded slot = []) : table.wake slot = table := by
  have same := congrArg recorded (forget_empty empty)
  simp only [forget] at same
  simp [wake, empty, same]

lemma eq_wake {after : Table Thread Slot Res} {slot : Slot} {t : Thread} (one : table.recorded slot = [t])
    (clr : after.recorded = Function.update table.recorded slot [])
    (woken : ∀ u, after.waitsFor u = if u = t then none else table.waitsFor u) : after = table.wake slot := by
  obtain ⟨recorded, waitsFor⟩ := after
  simp only [wake, one, List.mem_singleton, mk.injEq]
  exact ⟨clr, funext woken⟩

end Table

lemma Sound.forget (sound : Sound resource table) (slot : Slot) : Sound resource (table.forget slot) := by
  constructor
  · intro other t mem
    exact sound.waits other t (Table.mem_cleared.mp mem).2
  · intro other third t mem again
    exact sound.once other third t (Table.mem_cleared.mp mem).2 (Table.mem_cleared.mp again).2
  · intro other
    by_cases here : other = slot
    · simp [Table.forget, here]
    · simpa [Table.forget, here] using sound.nodup other

variable [DecidableEq Thread] in
lemma Sound.wake (sound : Sound resource table) (slot : Slot) : Sound resource (table.wake slot) := by
  have clr := sound.forget slot
  constructor
  · intro other t mem
    obtain ⟨apart, stays⟩ := Table.mem_cleared.mp mem
    -- A thread recorded elsewhere is not one of those that go on.
    have kept : t ∉ table.recorded slot := fun here => apart (sound.once other slot t stays here)
    simpa [Table.wake, kept] using sound.waits other t stays
  · exact clr.once
  · exact clr.nodup

variable [DecidableEq Thread]

lemma Sound.pause (sound : Sound resource table) {t : Thread} (runs : table.waitsFor t = none) (slot : Slot) :
    Sound resource (table.pause resource slot t) := by
  have absent := sound.not_recorded runs
  constructor
  · intro other u mem
    by_cases here : other = slot
    · subst here
      obtain rfl : u = t := by simpa [Table.pause, Table.record] using mem
      simp [Table.pause, Table.record]
    · have stays : u ∈ table.recorded other := by simpa [Table.pause, Table.record, here] using mem
      have apart : u ≠ t := fun same => absent other (same ▸ stays)
      simpa [Table.pause, Table.record, apart] using sound.waits other u stays
  · intro other third u mem again
    by_cases here : other = slot <;> by_cases there : third = slot
    · exact here.trans there.symm
    · simp_all [Table.pause, Table.record]
    · simp_all [Table.pause, Table.record]
    · exact sound.once other third u (by simpa [Table.pause, Table.record, here] using mem)
        (by simpa [Table.pause, Table.record, there] using again)
  · intro other
    by_cases here : other = slot
    · simp [Table.pause, Table.record, here]
    · simpa [Table.pause, Table.record, here] using sound.nodup other

end WaitSlots
