import Axe.Library.Runs
import Mathlib.Data.Nat.ModEq

/-! The bounded FIFO of `ring_buffer.h`: an array, two indices modulo the
capacity and a count, all `unsigned`. -/

namespace Axe

open List

/-- `ring_buffer<Kind, BufSize>`; an index is stored only after `% BufSize`. -/
structure RingBuffer (α : Type) (n : Nat) where
  buf : Fin n → α
  writeIdx : Fin n
  readIdx : Fin n
  numEntries : Nat

namespace RingBuffer

open Runs

variable {α : Type} {n : Nat} [NeZero n]

/-- `(idx + num) % BufSize`, where the `unsigned` sum wraps first. -/
def slot (idx : Fin n) (num : Nat) : Fin n :=
  Fin.ofNat n ((idx + num) % 2 ^ 32)

def new (buf : Fin n → α) : RingBuffer α n :=
  ⟨buf, 0, 0, 0⟩

variable (r : RingBuffer α n)

def empty : Bool := r.numEntries == 0

def full : Bool := r.numEntries == n

def pushBack (t : α) : RingBuffer α n :=
  { r with
    buf := Function.update r.buf r.writeIdx t
    writeIdx := slot r.writeIdx 1
    numEntries := (r.numEntries + 1) % 2 ^ 32 }

/-- `pop_front(unsigned)`. -/
def popFrontNum (num : Nat) : RingBuffer α n :=
  { r with
    readIdx := slot r.readIdx num
    numEntries := (r.numEntries + 2 ^ 32 - num) % 2 ^ 32 }

def popFront : RingBuffer α n := r.popFrontNum 1

def size : Nat := r.numEntries

def remaining : Nat := (n + 2 ^ 32 - r.size) % 2 ^ 32

def front : α := r.buf r.readIdx

/-- `operator[]`. -/
def get (idx : Nat) : α := r.buf (slot r.readIdx idx)

def clear : RingBuffer α n :=
  { r with readIdx := r.writeIdx, numEntries := 0 }

inductive Op (α : Type) where
  | pushBack (t : α)
  | popFront
  | popFrontNum (num : Nat)
  | clear

def step : Op α → RingBuffer α n
  | .pushBack t => r.pushBack t
  | .popFront => r.popFront
  | .popFrontNum num => r.popFrontNum num
  | .clear => r.clear

/-- The same operation on a FIFO queue. -/
def Op.onList (q : List α) : Op α → List α
  | .pushBack t => q ++ [t]
  | .popFront => q.tail
  | .popFrontNum num => q.drop num
  | .clear => []

/-- No push on a full queue, and no more taken than there is. -/
def Op.Allowed (n : Nat) (q : List α) : Op α → Prop
  | .pushBack _ => q.length < n
  | .popFront => q ≠ []
  | .popFrontNum num => num ≤ q.length
  | .clear => True

/-- Every observer of the buffer answers as the queue would. -/
structure Agrees (q : List α) : Prop where
  bounded : r.size ≤ n
  size : r.size = q.length
  empty : r.empty = q.isEmpty
  full : r.full = decide (q.length = n)
  remaining : r.remaining = n - q.length
  front : ∀ t, q.head? = some t → r.front = t
  get : ∀ idx t, q[idx]? = some t → r.get idx = t

/-- Every permitted run of a buffer of this capacity is that of a FIFO queue. -/
def Refines (n : Nat) [NeZero n] : Prop :=
  ∀ (α : Type) (buf : Fin n → α) (ops : List (Op α)), Meets Op.onList (Op.Allowed n) [] ops →
    (ops.foldl step (new buf)).Agrees (ops.foldl Op.onList [])

/-- The queue lies in the array from `readIdx` on, and `writeIdx` is the slot after it. -/
structure Holds (q : List α) : Prop where
  count : r.numEntries = q.length
  bounded : q.length ≤ n
  last : r.writeIdx = Fin.ofNat n (r.readIdx + q.length)
  cells : ∀ i t, q[i]? = some t → r.buf (Fin.ofNat n (r.readIdx + i)) = t

variable {r} {q : List α}

lemma slot_eq (small : n ≤ 2 ^ 31) (idx : Fin n) {num : Nat} (within : num ≤ n) :
    slot idx num = Fin.ofNat n (idx + num) := by
  rw [slot, Nat.mod_eq_of_lt (by omega)]

lemma ofNat_ofNat_add (x k : Nat) : Fin.ofNat n ((Fin.ofNat n x : Fin n) + k) = Fin.ofNat n (x + k) := by
  apply Fin.ext
  simp only [Fin.ofNat, Nat.mod_add_mod]

/-- Two offsets less than one turn apart are two cells. -/
lemma ofNat_add_ne (idx : Fin n) {i j : Nat} (before : i < j) (within : j < n) :
    Fin.ofNat n (idx + i) ≠ Fin.ofNat n (idx + j) := by
  intro same
  have equal : (idx + i) % n = (idx + j) % n := congrArg Fin.val same
  have cancelled : i % n = j % n := Nat.ModEq.add_left_cancel' _ equal
  rw [Nat.mod_eq_of_lt (by omega), Nat.mod_eq_of_lt within] at cancelled
  omega

lemma Holds.popFrontNum (small : n ≤ 2 ^ 31) (holds : r.Holds q) {num : Nat}
    (may : num ≤ q.length) : (r.popFrontNum num).Holds (q.drop num) := by
  have le := holds.bounded
  have first : slot r.readIdx num = Fin.ofNat n (r.readIdx + num) := slot_eq small _ (by omega)
  refine ⟨?_, by rw [length_drop]; omega, ?_, fun i t at_ => ?_⟩
  · simp only [RingBuffer.popFrontNum, holds.count, length_drop]
    omega
  · simp only [RingBuffer.popFrontNum, first, holds.last, ofNat_ofNat_add, length_drop]
    congr 1
    omega
  · simp only [RingBuffer.popFrontNum, first, ofNat_ofNat_add, Nat.add_assoc]
    exact holds.cells (num + i) t (by rwa [getElem?_drop] at at_)

lemma Holds.pushBack (small : n ≤ 2 ^ 31) (holds : r.Holds q) (t : α)
    (may : q.length < n) : (r.pushBack t).Holds (q ++ [t]) := by
  refine ⟨?_, by simp; omega, ?_, fun i t' at_ => ?_⟩
  · simp only [RingBuffer.pushBack, holds.count, length_append, length_singleton]
    omega
  · simp only [RingBuffer.pushBack, slot_eq small _ (show 1 ≤ n by omega), holds.last, ofNat_ofNat_add,
      length_append, length_singleton, Nat.add_assoc]
  · simp only [RingBuffer.pushBack, holds.last]
    rcases Nat.lt_trichotomy i q.length with within | rfl | beyond
    · rw [getElem?_append_left within] at at_
      rw [Function.update_of_ne (ofNat_add_ne _ within may)]
      exact holds.cells i t' at_
    · simpa using at_
    · rw [getElem?_append_right beyond.le, getElem?_eq_none (by simp; omega)] at at_
      cases at_

lemma Holds.step (small : n ≤ 2 ^ 31) (holds : r.Holds q) {op : Op α} (may : op.Allowed n q) :
    (r.step op).Holds (op.onList q) := by
  cases op with
  | pushBack t => exact holds.pushBack small t may
  | popFront =>
    rw [Op.onList, ← drop_one]
    exact holds.popFrontNum small (length_pos_iff.mpr may)
  | popFrontNum num => exact holds.popFrontNum small may
  | clear => exact ⟨rfl, Nat.zero_le n, by simp [RingBuffer.step, RingBuffer.clear, Op.onList], by simp [Op.onList]⟩

lemma Holds.run (small : n ≤ 2 ^ 31) (holds : r.Holds q) {ops : List (Op α)}
    (meets : Meets Op.onList (Op.Allowed n) q ops) :
    (ops.foldl RingBuffer.step r).Holds (ops.foldl Op.onList q) := by
  induction ops generalizing r q with
  | nil => exact holds
  | cons op ops ih => exact ih (holds.step small meets.1) meets.2

lemma Holds.agrees (small : n ≤ 2 ^ 31) (holds : r.Holds q) : r.Agrees q := by
  have le := holds.bounded
  have count := holds.count
  have cells : ∀ idx t, q[idx]? = some t → r.get idx = t := by
    intro idx t at_
    have within : idx < q.length := (List.getElem?_eq_some_iff.mp at_).1
    rw [RingBuffer.get, slot_eq small _ (by omega)]
    exact holds.cells idx t at_
  refine ⟨count.trans_le le, count, ?_, ?_, ?_, fun t first => ?_, cells⟩
  · cases q <;> simp_all [RingBuffer.empty]
  · rw [RingBuffer.full, count]
    rfl
  · rw [RingBuffer.remaining, RingBuffer.size, count]
    omega
  · have := holds.cells 0 t (by rwa [← head?_eq_getElem?])
    simpa [RingBuffer.front] using this

/-- Equal values pushed into an array of that value move only the write index and the count. -/
lemma run_push_same (fits : n < 2 ^ 32) (t : α) (first : Fin n) (k : Nat) :
    ∀ (idx : Fin n) (count : Nat), count + k < 2 ^ 32 →
      (replicate k (Op.pushBack t)).foldl step ⟨fun _ => t, idx, first, count⟩ =
        ⟨fun _ => t, Fin.ofNat n (idx + k), first, count + k⟩ := by
  induction k with
  | zero => simp
  | succ k ih =>
    intro idx count le
    have next : (⟨fun _ => t, idx, first, count⟩ : RingBuffer α n).step (.pushBack t) =
        ⟨fun _ => t, Fin.ofNat n (idx + 1), first, count + 1⟩ := by
      rw [step, pushBack, slot, Nat.mod_eq_of_lt (by omega), Nat.mod_eq_of_lt (by dsimp only; omega),
        Function.update_eq_self_iff.mpr rfl]
    rw [replicate_succ, foldl_cons, next, ih _ _ (by omega)]
    simp only [ofNat_ofNat_add, Nat.add_assoc, Nat.add_comm 1 k]

omit [NeZero n] in
lemma queue_push_same (t : α) (k : Nat) (q : List α) (room : q.length + k ≤ n) :
    (replicate k (Op.pushBack t)).foldl Op.onList q = q ++ replicate k t ∧
      Meets Op.onList (Op.Allowed n) q (replicate k (Op.pushBack t)) := by
  induction k generalizing q with
  | zero => simp
  | succ k ih =>
    obtain ⟨run, meets⟩ := ih (q ++ [t]) (by simp; omega)
    refine ⟨?_, ?_, meets⟩
    · simpa [replicate_succ, Op.onList] using run
    · change q.length < n
      omega

/-- Once round the array: `readIdx` in the last slot, and enough entries to look past `2 ^ 32`. -/
def onceRound (n : Nat) : List (Op Bool) :=
  List.replicate (n - 1) (.pushBack false) ++ .clear ::
    (List.replicate (2 ^ 32 - n + 1) (.pushBack false) ++ [.pushBack true])

/-- Beyond `2 ^ 31` entries an index past the end of the array wraps at `2 ^ 32` before it is
reduced, so the last entry of this run is looked up in slot 0. -/
lemma not_refines (wide : 2 ^ 31 < n) (fits : n < 2 ^ 32) : ¬ Refines n := by
  intro ref
  have early := queue_push_same (n := n) false (n - 1) [] (by simp)
  have late := queue_push_same (n := n) false (2 ^ 32 - n + 1) [] (by simp; omega)
  have room : 2 ^ 32 - n + 1 < n := by omega
  have agrees := ref Bool (fun _ => false) (onceRound n) (by
    simp only [onceRound, meets_append, meets_cons, meets_nil, Op.onList, late.1, Op.Allowed, nil_append,
      length_replicate]
    exact ⟨early.2, trivial, late.2, room, trivial⟩)
  simp only [onceRound, foldl_append, foldl_cons, foldl_nil, Op.onList, late.1, nil_append,
    new, run_push_same fits _ _ _ _ _ (show 0 + (n - 1) < 2 ^ 32 by omega), step, clear,
    run_push_same fits _ _ _ _ _ (show 0 + (2 ^ 32 - n + 1) < 2 ^ 32 by omega)] at agrees
  have looked := agrees.get (2 ^ 32 - n + 1) true (by simp)
  have sum : (n - 1) % n + (2 ^ 32 - n + 1) = 2 ^ 32 := by rw [Nat.mod_eq_of_lt (by omega)]; omega
  have turned : 2 ^ 32 % n = 2 ^ 32 - n := by rw [Nat.mod_eq_sub_mod fits.le, Nat.mod_eq_of_lt (by omega)]
  dsimp only [get, pushBack] at looked
  rw [Function.update_of_ne] at looked
  · cases looked
  · simp only [slot, ne_eq, Fin.ext_iff, Fin.ofNat, Fin.val_zero, Nat.zero_add, sum, turned, Nat.mod_self, Nat.zero_mod]
    omega

/-- Such a buffer is a FIFO queue of `n` entries exactly if two indices cannot sum past 32 bits. -/
theorem refines_iff (fits : n < 2 ^ 32) : Refines n ↔ n ≤ 2 ^ 31 := by
  refine ⟨fun refines => Nat.le_of_not_lt fun wide => not_refines wide fits refines, fun small α buf ops meets => ?_⟩
  have start : (new buf).Holds [] := ⟨rfl, Nat.zero_le n, by simp [new], by simp⟩
  exact (start.run small meets).agrees small

theorem refines_chanend : Refines 8 := (refines_iff (by decide)).mpr (by decide)

theorem largest_not_fifo : ¬ Refines 4294967295 := not_refines (by decide) (by decide)

end RingBuffer
end Axe
