import Axe.Library.LinkedList
import Axe.Library.TimedQueue
import Mathlib.Data.Nat.Basic

/-! The queue of runnables: a doubly linked list threaded through the runnables
themselves. A runnable that leaves keeps its `next` pointer, and whether it is in
the queue is read off `prev` and `head`. -/

namespace Axe

open Function

structure Runnable (Id : Type) where
  prev : Option Id
  next : Option Id
  wakeUpTime : Nat

structure RunnableQueue (Id : Type) where
  head : Option Id
  runnables : Id → Runnable Id

namespace RunnableQueue

variable {Id : Type}

/-- An empty queue and runnables as constructed, whose wake-up times are not set. -/
def initial (wakeUpTime : Id → Nat) : RunnableQueue Id where
  head := none
  runnables r := { prev := none, next := none, wakeUpTime := wakeUpTime r }

def prev (q : RunnableQueue Id) (r : Id) : Option Id := (q.runnables r).prev

def next (q : RunnableQueue Id) (r : Id) : Option Id := (q.runnables r).next

def wakeUpTime (q : RunnableQueue Id) (r : Id) : Nat := (q.runnables r).wakeUpTime

def front (q : RunnableQueue Id) : Option Id := q.head

def empty (q : RunnableQueue Id) : Bool := q.head.isNone

def setHead (q : RunnableQueue Id) (val : Option Id) : RunnableQueue Id :=
  { q with head := val }

variable [DecidableEq Id]

def setPrev (q : RunnableQueue Id) (r : Id) (val : Option Id) : RunnableQueue Id :=
  { q with runnables := update q.runnables r { q.runnables r with prev := val } }

def setNext (q : RunnableQueue Id) (r : Id) (val : Option Id) : RunnableQueue Id :=
  { q with runnables := update q.runnables r { q.runnables r with next := val } }

def setWakeUpTime (q : RunnableQueue Id) (r : Id) (time : Nat) : RunnableQueue Id :=
  { q with runnables := update q.runnables r { q.runnables r with wakeUpTime := time } }

def contains (q : RunnableQueue Id) (th : Id) : Bool :=
  (q.prev th).isSome || q.head == some th

def setPrevOf (q : RunnableQueue Id) (pointer val : Option Id) : RunnableQueue Id :=
  match pointer with
  | some r => q.setPrev r val
  | none => q

/-- Link what points to the thread to the runnable behind it; a null pointer that is followed gives no result. -/
def bypass (q : RunnableQueue Id) (th : Id) : Option (RunnableQueue Id) :=
  if q.head = some th then
    some (q.setHead (q.next th))
  else do
    let pre ← q.prev th
    some (q.setNext pre (q.next th))

/-- A failed assertion gives no result. -/
def remove (q : RunnableQueue Id) (th : Id) : Option (RunnableQueue Id) :=
  if q.contains th then do
    let q ← q.bypass th
    let q := q.setPrevOf (q.next th) (q.prev th)
    some (q.setPrev th none)
  else none

def pop (q : RunnableQueue Id) : Option (RunnableQueue Id) := do
  let head ← q.head
  let q := q.setPrevOf (q.next head) none
  some (q.setHead (q.next head))

/-- The loop of `push`: the last runnable from `p` on that is not due later. -/
def walk (q : RunnableQueue Id) (time : Nat) : Nat → Id → Option Id
  | 0, _ => none
  | fuel + 1, p =>
    match q.next p with
    | some following => if time ≥ q.wakeUpTime following then q.walk time fuel following else some p
    | none => some p

def place (fuel : Nat) (q : RunnableQueue Id) (th : Id) (time : Nat) : Option (RunnableQueue Id) :=
  let q := q.setWakeUpTime th time
  match q.head with
  | none => some ((q.setNext th none).setHead (some th))
  | some head =>
    if time < q.wakeUpTime head then
      some (((q.setPrev head (some th)).setNext th (some head)).setHead (some th))
    else do
      let p ← q.walk time fuel head
      let q := q.setPrev th (some p)
      let q := q.setNext th (q.next p)
      let q := q.setPrevOf (q.next p) (some th)
      some (q.setNext p (some th))

def push (fuel : Nat) (q : RunnableQueue Id) (th : Id) (time : Nat) : Option (RunnableQueue Id) :=
  (if q.contains th then q.remove th else some q).bind (·.place fuel th time)

def act (fuel : Nat) (q : RunnableQueue Id) : TimedQueue.Step Id Nat → Option (RunnableQueue Id)
  | .push th time => q.push fuel th time
  | .pop => q.pop
  | .remove th => q.remove th

def step (fuel : Nat) (state : Option (RunnableQueue Id)) (label : TimedQueue.Step Id Nat) :
    Option (RunnableQueue Id) :=
  state.bind (·.act fuel label)

section

omit [DecidableEq Id]

variable (q : RunnableQueue Id) (val : Option Id)

@[simp] lemma head_setHead : (q.setHead val).head = val := rfl

@[simp] lemma prev_setHead : (q.setHead val).prev = q.prev := rfl

@[simp] lemma next_setHead : (q.setHead val).next = q.next := rfl

@[simp] lemma wakeUpTime_setHead : (q.setHead val).wakeUpTime = q.wakeUpTime := rfl

end

section

variable (q : RunnableQueue Id) (r : Id) (val : Option Id) (time : Nat)

lemma field_update {Field : Type} (field : Runnable Id → Field) (chg : Runnable Id) :
    (fun other => field (update q.runnables r chg other)) =
      update (fun other => field (q.runnables other)) r (field chg) :=
  funext fun other => apply_update (fun _ => field) q.runnables r chg other

@[simp] lemma prev_setPrev : (q.setPrev r val).prev = update q.prev r val :=
  q.field_update r Runnable.prev _

@[simp] lemma next_setPrev : (q.setPrev r val).next = q.next :=
  (q.field_update r Runnable.next _).trans (update_eq_self r _)

@[simp] lemma wakeUpTime_setPrev : (q.setPrev r val).wakeUpTime = q.wakeUpTime :=
  (q.field_update r Runnable.wakeUpTime _).trans (update_eq_self r _)

@[simp] lemma prev_setNext : (q.setNext r val).prev = q.prev :=
  (q.field_update r Runnable.prev _).trans (update_eq_self r _)

@[simp] lemma next_setNext : (q.setNext r val).next = update q.next r val :=
  q.field_update r Runnable.next _

@[simp] lemma wakeUpTime_setNext : (q.setNext r val).wakeUpTime = q.wakeUpTime :=
  (q.field_update r Runnable.wakeUpTime _).trans (update_eq_self r _)

@[simp] lemma prev_setWakeUpTime : (q.setWakeUpTime r time).prev = q.prev :=
  (q.field_update r Runnable.prev _).trans (update_eq_self r _)

@[simp] lemma next_setWakeUpTime : (q.setWakeUpTime r time).next = q.next :=
  (q.field_update r Runnable.next _).trans (update_eq_self r _)

@[simp] lemma wakeUpTime_setWakeUpTime : (q.setWakeUpTime r time).wakeUpTime = update q.wakeUpTime r time :=
  q.field_update r Runnable.wakeUpTime _

@[simp] lemma head_setPrev : (q.setPrev r val).head = q.head := rfl

@[simp] lemma head_setNext : (q.setNext r val).head = q.head := rfl

@[simp] lemma head_setWakeUpTime : (q.setWakeUpTime r time).head = q.head := rfl

@[simp] lemma prev_setPrevOf (ptr : Option Id) :
    (q.setPrevOf ptr val).prev = LinkedList.relink q.prev ptr val := by
  cases ptr with
  | none => rfl
  | some r => exact q.prev_setPrev r val

@[simp] lemma next_setPrevOf (ptr : Option Id) : (q.setPrevOf ptr val).next = q.next := by
  cases ptr with
  | none => rfl
  | some r => exact q.next_setPrev r val

@[simp] lemma wakeUpTime_setPrevOf (ptr : Option Id) :
    (q.setPrevOf ptr val).wakeUpTime = q.wakeUpTime := by
  cases ptr with
  | none => rfl
  | some r => exact q.wakeUpTime_setPrev r val

@[simp] lemma head_setPrevOf (ptr : Option Id) : (q.setPrevOf ptr val).head = q.head := by
  cases ptr <;> rfl

end

end RunnableQueue

end Axe
