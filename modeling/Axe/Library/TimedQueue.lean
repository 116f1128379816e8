import Axe.Library.Runs
import Mathlib.Data.List.Nodup
import Mathlib.Order.Lattice

/-! A queue of items that are due at times from a linear order. Items due at the
same time leave in the order in which they came: each insertion is stamped with
its number, and the queue is strictly ordered by time and then by stamp. -/

namespace TimedQueue

open List

/-- An item that waits until it is due; `stamp` is the number of its insertion. -/
structure Entry (Item Time : Type) where
  item : Item
  due : Time
  stamp : Nat
  deriving DecidableEq, Repr

variable {Item Time : Type}

def Entry.Before [LT Time] (fst snd : Entry Item Time) : Prop :=
  fst.due < snd.due ∨ fst.due = snd.due ∧ fst.stamp < snd.stamp

instance [LT Time] [DecidableLT Time] [DecidableEq Time] (fst snd : Entry Item Time) :
    Decidable (fst.Before snd) :=
  inferInstanceAs (Decidable (fst.due < snd.due ∨ fst.due = snd.due ∧ fst.stamp < snd.stamp))

/-- Insert an entry behind every entry that is not due later. -/
def insertEntry [LE Time] [DecidableLE Time] (entry : Entry Item Time) : List (Entry Item Time) → List (Entry Item Time)
  | [] => [entry]
  | fst :: rest => if fst.due ≤ entry.due then fst :: insertEntry entry rest else entry :: fst :: rest

section

variable [DecidableEq Item]

def without (item : Item) (entries : List (Entry Item Time)) : List (Entry Item Time) :=
  entries.filter (·.item ≠ item)

lemma without_sublist (item : Item) (entries : List (Entry Item Time)) :
    List.Sublist (without item entries) entries :=
  filter_sublist

lemma mem_without {item : Item} {entry : Entry Item Time} {entries : List (Entry Item Time)} :
    entry ∈ without item entries ↔ entry ∈ entries ∧ entry.item ≠ item := by
  simp [without]

lemma not_mem_without (item : Item) (entries : List (Entry Item Time)) :
    item ∉ (without item entries).map Entry.item := by
  intro mem
  obtain ⟨entry, isIn, same⟩ := mem_map.mp mem
  exact (mem_without.mp isIn).2 same

end

section

variable [LinearOrder Time] {entry : Entry Item Time} {entries : List (Entry Item Time)}

lemma insertEntry_perm (entry : Entry Item Time) (entries : List (Entry Item Time)) :
    (insertEntry entry entries).Perm (entry :: entries) := by
  induction entries with
  | nil => exact .refl _
  | cons fst rest ih =>
    rw [insertEntry]
    split
    · exact (ih.cons fst).trans (.swap entry fst rest)
    · exact .refl _

@[simp] lemma mem_insertEntry {other : Entry Item Time} :
    other ∈ insertEntry entry entries ↔ other = entry ∨ other ∈ entries := by
  rw [(insertEntry_perm entry entries).mem_iff, mem_cons]

lemma Entry.Before.due_le {fst snd : Entry Item Time} (pre : fst.Before snd) :
    fst.due ≤ snd.due := by
  obtain prior | ⟨same, -⟩ := pre
  · exact prior.le
  · exact same.le

lemma Entry.Before.trans {fst snd third : Entry Item Time} (left : fst.Before snd)
    (right : snd.Before third) : fst.Before third := by
  obtain left | ⟨left, stamps⟩ := left
  · exact .inl (left.trans_le right.due_le)
  · obtain right | ⟨right, later⟩ := right
    · exact .inl (left ▸ right)
    · exact .inr ⟨left.trans right, Nat.lt_trans stamps later⟩

/-- A new entry with the last stamp of all goes behind those of its time. -/
lemma insertEntry_ordered (ordered : entries.Pairwise Entry.Before)
    (newest : ∀ other ∈ entries, other.stamp < entry.stamp) : (insertEntry entry entries).Pairwise Entry.Before := by
  induction entries with
  | nil => exact pairwise_singleton _ _
  | cons fst rest ih =>
    obtain ⟨head, tail⟩ := pairwise_cons.mp ordered
    rw [insertEntry]
    split
    next reached =>
      have later : fst.Before entry :=
        reached.lt_or_eq.imp_right fun same => ⟨same, newest fst mem_cons_self⟩
      refine pairwise_cons.mpr ⟨fun other mem => ?_, ih tail fun other mem => ?_⟩
      · obtain rfl | mem := mem_insertEntry.mp mem
        · exact later
        · exact head other mem
      · exact newest other (mem_cons_of_mem _ mem)
    next ahead =>
      have prior : entry.Before fst := .inl (lt_of_not_ge ahead)
      refine pairwise_cons.mpr ⟨fun other mem => ?_, ordered⟩
      obtain rfl | mem := mem_cons.mp mem
      · exact prior
      · exact prior.trans (head other mem)

end

end TimedQueue

/-- The entries of a queue, first to leave first, and the number of insertions made so far. -/
structure TimedQueue (Item Time : Type) [LinearOrder Time] where
  entries : List (TimedQueue.Entry Item Time)
  inserted : Nat
  nodup : (entries.map TimedQueue.Entry.item).Nodup
  ordered : entries.Pairwise TimedQueue.Entry.Before
  stamped : ∀ entry ∈ entries, entry.stamp < inserted

namespace TimedQueue

section

variable {Item Time : Type} [LinearOrder Time]

def items (q : TimedQueue Item Time) : List Item :=
  q.entries.map Entry.item

def empty : TimedQueue Item Time where
  entries := []
  inserted := 0
  nodup := List.nodup_nil
  ordered := List.Pairwise.nil
  stamped := by simp

def pop (q : TimedQueue Item Time) : TimedQueue Item Time where
  entries := q.entries.tail
  inserted := q.inserted
  nodup := q.nodup.sublist (q.entries.tail_sublist.map _)
  ordered := q.ordered.sublist q.entries.tail_sublist
  stamped entry mem := q.stamped entry (List.mem_of_mem_tail mem)

variable [DecidableEq Item]

def remove (q : TimedQueue Item Time) (item : Item) : TimedQueue Item Time where
  entries := without item q.entries
  inserted := q.inserted
  nodup := q.nodup.sublist ((without_sublist item _).map _)
  ordered := q.ordered.sublist (without_sublist item _)
  stamped entry mem := q.stamped entry (mem_without.mp mem).1

/-- The item is due at the time from now on, whether or not it was in the queue. -/
def push (q : TimedQueue Item Time) (item : Item) (time : Time) : TimedQueue Item Time where
  entries := insertEntry ⟨item, time, q.inserted⟩ (without item q.entries)
  inserted := q.inserted + 1
  nodup := by
    rw [((insertEntry_perm _ _).map Entry.item).nodup_iff]
    exact List.nodup_cons.mpr ⟨not_mem_without item _, q.nodup.sublist ((without_sublist item _).map _)⟩
  ordered := by
    refine insertEntry_ordered (q.ordered.sublist (without_sublist item _)) fun other mem => ?_
    exact q.stamped other (mem_without.mp mem).1
  stamped entry mem := by
    obtain rfl | mem := mem_insertEntry.mp mem
    · exact Nat.lt_succ_self _
    · exact Nat.lt_succ_of_lt (q.stamped entry (mem_without.mp mem).1)

lemma mem_push {q : TimedQueue Item Time} {item : Item} {time : Time} {entry : Entry Item Time} :
    entry ∈ (q.push item time).entries ↔
      entry = ⟨item, time, q.inserted⟩ ∨ entry ∈ q.entries ∧ entry.item ≠ item := by
  simp only [push, mem_insertEntry, mem_without]

end

inductive Step (Item Time : Type) where
  | push (item : Item) (time : Time)
  | pop
  | remove (item : Item)
  deriving DecidableEq, Repr

structure History (Item Time : Type) [LinearOrder Time] where
  queue : TimedQueue Item Time
  popped : List Time

namespace History

variable {Item Time : Type} [LinearOrder Time] [DecidableEq Item] {history : History Item Time}

def initial : History Item Time := ⟨empty, []⟩

def step (history : History Item Time) : Step Item Time → History Item Time
  | .push item time => { history with queue := history.queue.push item time }
  | .pop =>
    { queue := history.queue.pop
      popped := history.popped ++ (history.queue.entries.head?.map Entry.due).toList }
  | .remove item => { history with queue := history.queue.remove item }

def Timely (history : History Item Time) : Step Item Time → Prop
  | .push _ time => ∀ last ∈ history.popped.getLast?, last ≤ time
  | _ => True

structure Monotone (history : History Item Time) : Prop where
  popped : history.popped.Pairwise (· ≤ ·)
  waiting : ∀ time ∈ history.popped, ∀ entry ∈ history.queue.entries, time ≤ entry.due

lemma le_getLast {times : List Time} (ordered : times.Pairwise (· ≤ ·)) {time last : Time}
    (mem : time ∈ times) (isLast : last ∈ times.getLast?) : time ≤ last := by
  obtain ⟨prior, rfl⟩ := List.getLast?_eq_some_iff.mp isLast
  obtain isIn | here := List.mem_append.mp mem
  · exact (List.pairwise_append.mp ordered).2.2 time isIn last List.mem_cons_self
  · exact (List.mem_singleton.mp here).le

lemma Monotone.step (mono : history.Monotone) (step : Step Item Time) (timed : history.Timely step) :
    (history.step step).Monotone := by
  cases step with
  | push item time =>
    refine ⟨mono.popped, fun prior (isIn : prior ∈ history.popped) entry mem => ?_⟩
    obtain rfl | ⟨mem, -⟩ := mem_push.mp mem
    · -- the new entry is not before the last pop, so it is not before any
      cases last : history.popped.getLast? with
      | none => simp [List.getLast?_eq_none_iff.mp last] at isIn
      | some latest => exact (le_getLast mono.popped isIn last).trans (timed latest last)
    · exact mono.waiting prior isIn entry mem
  | remove item =>
    exact ⟨mono.popped, fun time isIn entry mem =>
      mono.waiting time isIn entry (mem_without.mp mem).1⟩
  | pop =>
    cases entries : history.queue.entries with
    | nil =>
      refine ⟨?_, fun time isIn entry mem => ?_⟩
      · simpa [History.step, entries] using mono.popped
      · simp [History.step, pop, entries] at mem
    | cons fst rest =>
      have ordered := List.pairwise_cons.mp (entries ▸ history.queue.ordered)
      have earliest (time : Time) (isIn : time ∈ history.popped) : time ≤ fst.due :=
        mono.waiting time isIn fst (by simp [entries])
      refine ⟨?_, fun time isIn entry mem => ?_⟩
      · simpa [History.step, entries, List.pairwise_append, mono.popped] using earliest
      · have mem : entry ∈ rest := by simpa [History.step, pop, entries] using mem
        have later := (ordered.1 entry mem).due_le
        simp only [History.step, entries, List.head?_cons, Option.map_some, Option.toList_some, List.mem_append,
          List.mem_singleton] at isIn
        obtain isIn | rfl := isIn
        · exact (earliest time isIn).trans later
        · exact later

/-- Without a push into the past, items leave in the order of their times. -/
lemma popped_ordered (steps : List (Step Item Time)) (timed : Runs.Meets step Timely initial steps) :
    (steps.foldl step initial).popped.Pairwise (· ≤ ·) :=
  (timed.invariant (fun _ step mono timed => mono.step step timed)
    (⟨List.Pairwise.nil, by simp [initial]⟩ : (initial : History Item Time).Monotone)).popped

end History

end TimedQueue
