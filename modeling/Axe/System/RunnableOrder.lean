import Axe.System.RunnableQueue

/-! The intrusive list refines a queue ordered by time and, among equal times, by
the order of the pushes. -/

namespace Axe.RunnableQueue

open List

open Function

open TimedQueue LinkedList

variable {Id : Type}

/-- The pointers spell out the abstract queue. Nothing is asked of the `next` of a runnable outside. -/
structure Represents (q : RunnableQueue Id) (spec : TimedQueue Id Nat) : Prop where
  head : q.head = spec.items.head?
  linked : Linked q.prev q.next none spec.items none
  wakeUpTime : ∀ entry ∈ spec.entries, q.wakeUpTime entry.item = entry.due
  others : ∀ r, r ∉ spec.items → q.prev r = none

variable {q : RunnableQueue Id} {spec : TimedQueue Id Nat} {th : Id} {time fuel : Nat}

lemma initial_represents (time : Id → Nat) : (initial time).Represents TimedQueue.empty where
  head := rfl
  linked := trivial
  wakeUpTime := by simp [TimedQueue.empty]
  others _ _ := rfl

variable {fst snd : List Id}

lemma Represents.neighbours (rep : q.Represents spec) (items : spec.items = fst ++ th :: snd) :
    q.prev th = fst.getLast? ∧ q.next th = snd.head? := by
  obtain ⟨-, back, forth, -⟩ := linked_append.mp (items ▸ rep.linked)
  simpa using And.intro back forth

variable [DecidableEq Id]

lemma Represents.contains_iff (rep : q.Represents spec) (th : Id) :
    q.contains th = true ↔ th ∈ spec.items := by
  have shape : q.contains th = true ↔ q.prev th ≠ none ∨ q.head = some th := by
    simp [contains, Option.isSome_iff_ne_none]
  rw [shape, rep.head]
  constructor
  · rintro (link | fst)
    · exact not_imp_comm.mp (rep.others th) link
    · exact mem_of_mem_head? fst
  · intro mem
    cases items : spec.items with
    | nil => simp [items] at mem
    | cons fst rest =>
      obtain rfl | isIn := mem_cons.mp (items ▸ mem)
      · exact .inr rfl
      · exact .inl ((items ▸ rep.linked).prev_ne_none isIn)

lemma items_remove (spec : TimedQueue Id Nat) (th : Id) :
    (spec.remove th).items = spec.items.filter (· ≠ th) := by
  simp [TimedQueue.items, TimedQueue.remove, without, filter_map, comp_def]

lemma items_remove_of_split (items : spec.items = fst ++ th :: snd) :
    (spec.remove th).items = fst ++ snd := by
  have nodup : (fst ++ th :: snd).Nodup := items ▸ spec.nodup
  obtain ⟨-, inner, apart⟩ := nodup_append.mp nodup
  have keepFirst : fst.filter (· ≠ th) = fst :=
    filter_eq_self.mpr fun r mem => by simpa using apart r mem th mem_cons_self
  have keepSecond : snd.filter (· ≠ th) = snd :=
    filter_eq_self.mpr fun r mem => by
      simpa using ne_of_mem_of_not_mem mem (nodup_cons.mp inner).1
  rw [items_remove, items, filter_append, filter_cons_of_neg (by simp), keepFirst, keepSecond]

section

variable (rep : q.Represents spec)
include rep

lemma Represents.bypass_eq (items : spec.items = fst ++ th :: snd) :
    ∃ now, q.bypass th = some now ∧ now.head = (fst ++ snd).head? ∧ now.prev = q.prev ∧
      now.next = relink q.next fst.getLast? snd.head? ∧ now.wakeUpTime = q.wakeUpTime := by
  obtain ⟨back, forth⟩ := rep.neighbours items
  have headEq : q.head = (fst ++ th :: snd).head? := items ▸ rep.head
  cases fst with
  | nil => exact ⟨_, if_pos headEq, forth, rfl, rfl, rfl⟩
  | cons head rest =>
    have nodup : (head :: rest ++ th :: snd).Nodup := items ▸ spec.nodup
    have apart : head ≠ th := by
      rintro rfl
      simp at nodup
    have away : q.head ≠ some th := by simpa [headEq] using apart
    obtain ⟨last, isLast⟩ : ∃ last, (head :: rest).getLast? = some last :=
      ⟨_, getLast?_eq_some_getLast (cons_ne_nil _ _)⟩
    refine ⟨q.setNext last snd.head?, ?_, headEq, by simp, by simp [isLast, relink], by simp⟩
    rw [bypass, if_neg away, back, isLast, forth]
    rfl

lemma Represents.remove_eq (items : spec.items = fst ++ th :: snd) :
    ∃ now, q.remove th = some now ∧ now.head = (fst ++ snd).head? ∧
      now.prev = update (relink q.prev snd.head? fst.getLast?) th none ∧
      now.next = relink q.next fst.getLast? snd.head? ∧ now.wakeUpTime = q.wakeUpTime := by
  have nodup : (fst ++ th :: snd).Nodup := items ▸ spec.nodup
  have sub : q.contains th = true := (rep.contains_iff th).mpr (by simp [items])
  obtain ⟨back, forth⟩ := rep.neighbours items
  obtain ⟨mid, bypassed, midHead, midPrev, midNext, midTime⟩ := rep.bypass_eq items
  have midForth : mid.next th = snd.head? := by
    rw [midNext, relink_of_ne, forth]
    intro same
    exact (nodup_append.mp nodup).2.2 _ (mem_of_mem_getLast? same.symm) _ mem_cons_self rfl
  refine ⟨(mid.setPrevOf (mid.next th) (mid.prev th)).setPrev th none, ?_, ?_, ?_, ?_, ?_⟩
  · simp [remove, sub, bypassed]
  · simpa using midHead
  · simp only [prev_setPrev, prev_setPrevOf, midForth, midPrev, back]
  · simpa using midNext
  · simpa using midTime

lemma Represents.remove (mem : th ∈ spec.items) :
    ∃ now, q.remove th = some now ∧ now.Represents (spec.remove th) := by
  obtain ⟨fst, snd, items⟩ := append_of_mem mem
  have lt := items_remove_of_split items
  have out : ∀ r ∈ some th, r ∉ fst ++ snd := by
    rintro r ⟨⟩
    rw [← lt]
    exact not_mem_without th spec.entries
  obtain ⟨now, removed, head, prev, next, time⟩ := rep.remove_eq items
  refine ⟨now, removed, ?_, ?_, fun entry mem => ?_, fun r other => ?_⟩
  · rw [head, lt]
  · have link := (items ▸ rep.linked).unlink (items ▸ spec.nodup)
    rw [prev, next, lt]
    exact link.relink_prev out
  · rw [time]
    exact rep.wakeUpTime entry (mem_without.mp mem).1
  · rw [prev]
    by_cases same : r = th
    · rw [same, update_self]
    · rw [lt] at other
      have notHead : some r ≠ snd.head? := fun isHead =>
        other (mem_append_right _ (mem_of_mem_head? isHead.symm))
      rw [update_of_ne same, relink_of_ne notHead]
      refine rep.others r fun isIn => ?_
      simp only [items, mem_append, mem_cons, same, false_or] at isIn
      exact other (mem_append.mpr isIn)

lemma Represents.pop (ne : q.empty = false) : ∃ now, q.pop = some now ∧ now.Represents spec.pop := by
  cases es : spec.entries with
  | nil => simp [RunnableQueue.empty, rep.head, TimedQueue.items, es] at ne
  | cons fst rest =>
    have items : spec.items = fst.item :: spec.pop.items := by simp [TimedQueue.items, TimedQueue.pop, es]
    have head : q.head = some fst.item := by rw [rep.head, items]; rfl
    obtain ⟨back, forth⟩ := rep.neighbours (show spec.items = [] ++ fst.item :: spec.pop.items from items)
    have nodup : (fst.item :: spec.pop.items).Nodup := items ▸ spec.nodup
    have link := (items ▸ rep.linked).2.2
    refine ⟨_, by rw [RunnableQueue.pop, head]; rfl, ?_, ?_, fun entry mem => ?_, fun r other => ?_⟩
    · simpa using forth
    · simp only [prev_setHead, next_setHead, prev_setPrevOf, next_setPrevOf, forth]
      exact link.relink_first (nodup_cons.mp nodup).2
    · simp only [wakeUpTime_setHead, wakeUpTime_setPrevOf]
      exact rep.wakeUpTime entry (mem_of_mem_tail mem)
    · have notHead : some r ≠ q.next fst.item := fun isHead =>
        other (mem_of_mem_head? (isHead.trans forth).symm)
      simp only [prev_setHead, prev_setPrevOf]
      rw [relink_of_ne notHead]
      by_cases same : r = fst.item
      · rw [same]; exact back
      · exact rep.others r fun isIn => other ((mem_cons.mp (items ▸ isIn)).resolve_left same)

end

structure Placed (q now : RunnableQueue Id) (th : Id) (time : Nat) (fst snd : List Id) : Prop where
  head : now.head = (fst ++ th :: snd).head?
  prev : now.prev = relink (update q.prev th fst.getLast?) snd.head? (some th)
  next : now.next = relink (update q.next th snd.head?) fst.getLast? (some th)
  wakeUpTime : now.wakeUpTime = update q.wakeUpTime th time

section

variable {entry fst : TimedQueue.Entry Id Nat} {rest : List (TimedQueue.Entry Id Nat)}

omit [DecidableEq Id] in
/-- The loop stops at the entry behind which the new one is inserted. -/
lemma walk_eq {pre : Option Id}
    (link : Linked q.prev q.next pre ((fst :: rest).map TimedQueue.Entry.item) none)
    (times : ∀ other ∈ rest, q.wakeUpTime other.item = other.due) (reach : fst.due ≤ entry.due)
    (le : rest.length < fuel) : ∃ prior last later, fst :: rest = prior ++ last :: later ∧
      insertEntry entry (fst :: rest) = prior ++ last :: entry :: later ∧
      q.walk entry.due fuel fst.item = some last.item := by
  induction rest generalizing fst fuel pre with
  | nil =>
    obtain ⟨fuel, rfl⟩ : ∃ more, fuel = more + 1 := ⟨fuel - 1, by omega⟩
    have ends : q.next fst.item = none := link.2.1
    exact ⟨[], fst, [], rfl, by simp [insertEntry, reach], by simp [walk, ends]⟩
  | cons snd rest ih =>
    obtain ⟨fuel, rfl⟩ : ∃ more, fuel = more + 1 := ⟨fuel - 1, by omega⟩
    have next : q.next fst.item = some snd.item := link.2.1
    have due := times snd mem_cons_self
    by_cases passed : snd.due ≤ entry.due
    · obtain ⟨prior, last, later, split, inserted, found⟩ := ih link.2.2
        (fun other mem => times other (mem_cons_of_mem _ mem)) passed (by simpa using le)
      refine ⟨fst :: prior, last, later, by rw [split]; rfl, ?_, ?_⟩
      · rw [insertEntry, if_pos reach, inserted]
        rfl
      · simp only [walk, next, due, ge_iff_le, passed, ↓reduceIte, found]
    · refine ⟨[], fst, snd :: rest, rfl, ?_, ?_⟩
      · simp [insertEntry, reach, passed]
      · simp [walk, next, due, passed]

section

variable (rep : q.Represents spec)
include rep

lemma Represents.update_prev (out : th ∉ spec.items) : update q.prev th none = q.prev :=
  update_eq_iff.mpr ⟨(rep.others th out).symm, fun _ _ => rfl⟩

lemma Represents.place_empty (time fuel : Nat) (out : th ∉ spec.items) (es : spec.entries = []) :
    ∃ now, q.place fuel th time = some now ∧ q.Placed now th time [] [] := by
  have noHead : q.head = none := by simp [rep.head, TimedQueue.items, es]
  refine ⟨((q.setWakeUpTime th time).setNext th none).setHead (some th), ?_, rfl, ?_, ?_, ?_⟩
  · simp only [place, head_setWakeUpTime, noHead]
  · simp [relink, rep.update_prev out]
  · simp [relink]
  · simp

lemma Represents.times (out : th ∉ spec.items) {other : TimedQueue.Entry Id Nat}
    (mem : other ∈ spec.entries) : (q.setWakeUpTime th time).wakeUpTime other.item = other.due := by
  have apart : other.item ≠ th := by
    rintro rfl
    exact out (mem_map_of_mem mem)
  rw [wakeUpTime_setWakeUpTime, update_of_ne apart]
  exact rep.wakeUpTime other mem

lemma Represents.place_front (fuel : Nat) (out : th ∉ spec.items)
    (es : spec.entries = fst :: rest) (ahead : time < fst.due) :
    ∃ now, q.place fuel th time = some now ∧ q.Placed now th time [] spec.items := by
  have items : spec.items = fst.item :: rest.map TimedQueue.Entry.item := by simp [TimedQueue.items, es]
  have head : q.head = some fst.item := by simp [rep.head, items]
  have due : (q.setWakeUpTime th time).wakeUpTime fst.item = fst.due :=
    rep.times out (by simp [es])
  refine ⟨(((q.setWakeUpTime th time).setPrev fst.item (some th)).setNext th
    (some fst.item)).setHead (some th), ?_, rfl, ?_, ?_, ?_⟩
  · simp only [place, head_setWakeUpTime, head, due, ahead, ↓reduceIte]
  · simp [relink, rep.update_prev out, items]
  · simp [relink, items]
  · simp

lemma Represents.place_behind (out : th ∉ spec.items)
    (es : spec.entries = fst :: rest) (reach : ¬time < fst.due) {prior later : List Id} {last : Id}
    (items : spec.items = prior ++ last :: later)
    (found : (q.setWakeUpTime th time).walk time fuel fst.item = some last) :
    ∃ now, q.place fuel th time = some now ∧ q.Placed now th time (prior ++ [last]) later := by
  have head : q.head = some fst.item := by simp [rep.head, TimedQueue.items, es]
  have due : (q.setWakeUpTime th time).wakeUpTime fst.item = fst.due :=
    rep.times out (by simp [es])
  have forth := (rep.neighbours items).2
  have apart : last ≠ th := by
    rintro rfl
    simp [items] at out
  let placed := (q.setWakeUpTime th time).setPrev th (some last)
  let linkedOn := placed.setNext th (placed.next last)
  have lastNext : linkedOn.next last = later.head? := by
    simp only [linkedOn, placed, next_setNext, next_setPrev, next_setWakeUpTime]
    rw [update_of_ne apart, forth]
  refine ⟨(linkedOn.setPrevOf (linkedOn.next last) (some th)).setNext last (some th), ?_, ?_, ?_, ?_, ?_⟩
  · simp only [place, head_setWakeUpTime, head, due, reach, ↓reduceIte]
    rw [found]
    rfl
  · have same : q.head = (prior ++ last :: later).head? := items ▸ rep.head
    simpa [linkedOn, placed] using same
  · simp only [prev_setNext, prev_setPrevOf, lastNext]
    simp [linkedOn, placed]
  · simp [linkedOn, placed, forth, relink]
  · simp [linkedOn, placed]

/-- The thread is linked in where `insertEntry` puts its entry. -/
lemma Represents.place_eq (time : Nat) (out : th ∉ spec.items)
    (le : spec.entries.length ≤ fuel) (stamp : Nat) :
    ∃ now pre post, q.place fuel th time = some now ∧ spec.entries = pre ++ post ∧
      insertEntry ⟨th, time, stamp⟩ spec.entries = pre ++ ⟨th, time, stamp⟩ :: post ∧
      q.Placed now th time (pre.map TimedQueue.Entry.item) (post.map TimedQueue.Entry.item) := by
  cases es : spec.entries with
  | nil =>
    obtain ⟨now, put, links⟩ := rep.place_empty time fuel out es
    exact ⟨now, [], [], put, rfl, rfl, links⟩
  | cons fst rest =>
    by_cases ahead : time < fst.due
    · obtain ⟨now, put, links⟩ := rep.place_front fuel out es ahead
      refine ⟨now, [], fst :: rest, put, rfl, by simp [insertEntry, Nat.not_le_of_lt ahead], ?_⟩
      simpa [TimedQueue.items, es] using links
    · have link : Linked (q.setWakeUpTime th time).prev (q.setWakeUpTime th time).next none
          ((fst :: rest).map TimedQueue.Entry.item) none := by
        simpa [TimedQueue.items, es] using rep.linked
      have reach : fst.due ≤ (⟨th, time, stamp⟩ : TimedQueue.Entry Id Nat).due := Nat.le_of_not_lt ahead
      have times (other : TimedQueue.Entry Id Nat) (mem : other ∈ rest) :
          (q.setWakeUpTime th time).wakeUpTime other.item = other.due :=
        rep.times out (by simp [es, mem])
      rw [es] at le
      obtain ⟨prior, last, later, split, inserted, found⟩ := walk_eq link times reach le
      have items : spec.items = prior.map TimedQueue.Entry.item ++ last.item :: later.map TimedQueue.Entry.item := by
        simp [TimedQueue.items, es, split]
      obtain ⟨now, put, links⟩ := rep.place_behind out es ahead items found
      exact ⟨now, prior ++ [last], later, put, by simpa using split, by simpa using inserted, by simpa using links⟩

end

end

lemma Represents.cleared (rep : q.Represents spec) (th : Id) :
    ∃ now, (if q.contains th then q.remove th else some q) = some now ∧
      now.Represents (spec.remove th) := by
  by_cases mem : th ∈ spec.items
  · rw [if_pos ((rep.contains_iff th).mpr mem)]
    exact rep.remove mem
  · have same : without th spec.entries = spec.entries := filter_eq_self.mpr fun entry isIn => by
      simpa using fun same : entry.item = th => mem (same ▸ mem_map_of_mem isIn)
    have absent : spec.remove th = spec := by simp [TimedQueue.remove, same]
    rw [if_neg (mt (rep.contains_iff th).mp mem), absent]
    exact ⟨q, rfl, rep⟩

lemma Represents.push (rep : q.Represents spec) (th : Id) (time : Nat) (le : spec.entries.length ≤ fuel) :
    ∃ now, q.push fuel th time = some now ∧ now.Represents (spec.push th time) := by
  obtain ⟨mid, clr, midRep⟩ := rep.cleared th
  have out : th ∉ (spec.remove th).items := not_mem_without th spec.entries
  have lt : (spec.remove th).entries.length ≤ fuel := by
    have := (without_sublist th spec.entries).length_le
    exact Nat.le_trans this le
  obtain ⟨now, pre, post, put, split, inserted, links⟩ :=
    midRep.place_eq time out lt spec.inserted
  have items : (spec.push th time).items = pre.map TimedQueue.Entry.item ++ th :: post.map TimedQueue.Entry.item := by
    have es : (spec.push th time).entries = pre ++ ⟨th, time, spec.inserted⟩ :: post := inserted
    simp [TimedQueue.items, es]
  have oldItems : (spec.remove th).items = pre.map TimedQueue.Entry.item ++ post.map TimedQueue.Entry.item := by
    simp [TimedQueue.items, split]
  refine ⟨now, by rw [RunnableQueue.push, clr]; exact put, ?_, ?_, fun entry mem => ?_, fun r other => ?_⟩
  · rw [links.head, items]
  · rw [links.prev, links.next, items]
    exact (oldItems ▸ midRep.linked).link (oldItems ▸ (spec.remove th).nodup) (oldItems ▸ out)
  · rw [links.wakeUpTime]
    obtain rfl | ⟨isIn, apart⟩ := mem_push.mp mem
    · exact update_self ..
    · rw [update_of_ne apart]
      exact midRep.wakeUpTime entry (mem_without.mpr ⟨isIn, apart⟩)
  · have apart : r ≠ th := by
      rintro rfl
      simp [items] at other
    have notHead : some r ≠ (post.map TimedQueue.Entry.item).head? := fun isHead => by
      have isIn := mem_of_mem_head? isHead.symm
      exact other (by rw [items]; exact mem_append_right _ (mem_cons_of_mem _ isIn))
    rw [links.prev, relink_of_ne notHead, update_of_ne apart]
    refine midRep.others r fun isIn => other ?_
    rw [oldItems, mem_append] at isIn
    rw [items, mem_append]
    exact isIn.imp_right (mem_cons_of_mem _)

/-- What the assertions of the operations ask for. -/
def Allowed (state : Option (RunnableQueue Id)) (lbl : TimedQueue.Step Id Nat) : Prop :=
  ∀ q ∈ state, match lbl with
    | .push _ _ => True
    | .pop => q.empty = false
    | .remove th => q.contains th = true

instance (state : Option (RunnableQueue Id)) (lbl : TimedQueue.Step Id Nat) : Decidable (Allowed state lbl) :=
  match state, lbl with
  | none, _ => isTrue (by simp [Allowed])
  | some _, .push _ _ => isTrue (by simp [Allowed])
  | some q, .pop => decidable_of_iff (q.empty = false) (by simp [Allowed])
  | some q, .remove th => decidable_of_iff (q.contains th = true) (by simp [Allowed])

def poppedBy (state : Option (RunnableQueue Id)) : TimedQueue.Step Id Nat → List Nat
  | .pop => ((state.bind fun q => q.front.map q.wakeUpTime)).toList
  | _ => []

lemma Represents.advance {hist : History Id Nat} (rep : q.Represents hist.queue)
    (le : hist.queue.entries.length ≤ fuel) (lbl : TimedQueue.Step Id Nat)
    (legal : Allowed (some q) lbl) :
    ∃ now, step fuel (some q) lbl = some now ∧ now.Represents (hist.step lbl).queue ∧
      (hist.step lbl).popped = hist.popped ++ poppedBy (some q) lbl ∧
      (hist.step lbl).queue.entries.length ≤ hist.queue.entries.length + 1 := by
  have legal := legal q rfl
  cases lbl with
  | push th time =>
    obtain ⟨now, pushed, nowRep⟩ := rep.push th time le
    refine ⟨now, pushed, nowRep, by simp [History.step, poppedBy], ?_⟩
    have len : (hist.queue.push th time).entries.length = (without th hist.queue.entries).length + 1 :=
      (insertEntry_perm _ _).length_eq
    have := (without_sublist th hist.queue.entries).length_le
    simp only [History.step]
    omega
  | pop =>
    obtain ⟨now, popped, nowRep⟩ := rep.pop legal
    refine ⟨now, popped, nowRep, ?_, ?_⟩
    · cases es : hist.queue.entries with
      | nil => simp [History.step, poppedBy, es, front, rep.head, TimedQueue.items]
      | cons fst rest =>
        have due := rep.wakeUpTime fst (by simp [es])
        simp [History.step, poppedBy, es, front, rep.head, TimedQueue.items, due]
    · simp only [History.step, TimedQueue.pop, length_tail]
      omega
  | remove th =>
    obtain ⟨now, removed, nowRep⟩ := rep.remove ((rep.contains_iff th).mp legal)
    refine ⟨now, removed, nowRep, by simp [History.step, poppedBy], ?_⟩
    have := (without_sublist th hist.queue.entries).length_le
    simp only [History.step, TimedQueue.remove]
    omega

/-- Every run of the pointers follows a run of the abstract queue. -/
lemma Represents.run {hist : History Id Nat} (rep : q.Represents hist.queue)
    (steps : List (TimedQueue.Step Id Nat)) (le : hist.queue.entries.length + steps.length ≤ fuel)
    (legal : Runs.Meets (step fuel) Allowed (some q) steps) :
    ∃ now, steps.foldl (step fuel) (some q) = some now ∧ now.Represents (steps.foldl History.step hist).queue ∧
      (steps.foldl History.step hist).popped =
        hist.popped ++ Runs.collect (step fuel) poppedBy (some q) steps := by
  induction steps generalizing q hist with
  | nil => exact ⟨q, rfl, rep, by simp [Runs.collect]⟩
  | cons lbl rest ih =>
    rw [length_cons] at le
    have fits : hist.queue.entries.length ≤ fuel := by omega
    obtain ⟨mid, stepped, midRep, popped, len⟩ := rep.advance fits lbl legal.1
    have restAllowed := legal.2
    rw [stepped] at restAllowed
    have bound : (hist.step lbl).queue.entries.length + rest.length ≤ fuel := by omega
    obtain ⟨now, ran, nowRep, allPopped⟩ := ih midRep bound restAllowed
    refine ⟨now, by rw [foldl_cons, stepped]; exact ran, nowRep, ?_⟩
    rw [foldl_cons, allPopped, popped, Runs.collect, stepped, append_assoc]

def specAfter (steps : List (TimedQueue.Step Id Nat)) : TimedQueue Id Nat :=
  (steps.foldl History.step History.initial).queue

def poppedTimes (fuel : Nat) (wakeUpTime : Id → Nat) (steps : List (TimedQueue.Step Id Nat)) : List Nat :=
  Runs.collect (step fuel) poppedBy (some (initial wakeUpTime)) steps

lemma Represents.front_iff (rep : q.Represents spec) (r : Id) : q.front = some r ↔
      ∃ fst ∈ spec.entries, fst.item = r ∧ ∀ other ∈ spec.entries, other ≠ fst → fst.Before other := by
  rw [front, rep.head, TimedQueue.items]
  cases es : spec.entries with
  | nil => simp
  | cons head rest =>
    have least := (pairwise_cons.mp (es ▸ spec.ordered)).1
    constructor
    · intro here
      refine ⟨head, mem_cons_self, Option.some.inj here, fun other mem apart => ?_⟩
      exact least other ((mem_cons.mp mem).resolve_left apart)
    · rintro ⟨fst, mem, rfl, first_least⟩
      obtain rfl | isIn := mem_cons.mp mem
      · rfl
      · -- two entries cannot both come before each other
        by_cases same : head = fst
        · rw [same]; rfl
        · have fwd := least fst isIn
          have backward := first_least head mem_cons_self same
          obtain later | ⟨-, stamps⟩ := fwd.trans backward
          · exact absurd later (Nat.lt_irrefl _)
          · exact absurd stamps (Nat.lt_irrefl _)

variable {steps : List (TimedQueue.Step Id Nat)}

lemma run_represents (time : Id → Nat) (le : steps.length ≤ fuel)
    (legal : Runs.Meets (step fuel) Allowed (some (initial time)) steps) :
    ∃ q, steps.foldl (step fuel) (some (initial time)) = some q ∧ q.Represents (specAfter steps) ∧
      (steps.foldl History.step History.initial).popped = poppedTimes fuel time steps :=
  (show (initial time).Represents History.initial.queue from initial_represents time).run steps
    (by simpa [History.initial, TimedQueue.empty] using le) legal

lemma poppedTimes_ordered (t : Id → Nat) (le : steps.length ≤ fuel)
    (legal : Runs.Meets (step fuel) Allowed (some (initial t)) steps)
    (timely : ∀ prior th time, prior ++ [.push th time] <+: steps →
      ∀ last ∈ (poppedTimes fuel t prior).getLast?, last ≤ time) :
    (poppedTimes fuel t steps).Pairwise (· ≤ ·) := by
  obtain ⟨-, -, -, popped⟩ := run_represents t le legal
  rw [← popped]
  refine History.popped_ordered steps (Runs.meets_of_prefix fun prior lbl isPrefix => ?_)
  cases lbl with
  | pop => trivial
  | remove => trivial
  | push th time =>
    obtain ⟨later, rfl⟩ := isPrefix
    rw [append_assoc] at legal le
    have lt : prior.length ≤ fuel := by
      rw [length_append] at le
      omega
    obtain ⟨-, -, -, popped⟩ := run_represents t lt ((Runs.meets_append _ _ _).mp legal).1
    intro last isLast
    rw [popped] at isLast
    exact timely prior th time (prefix_append _ _) last isLast

/-- Every sequence of operations whose assertions hold comes to an end, and its pointers spell out the queue
ordered by time and by push. -/
theorem run_refines (wakeUpTime : Id → Nat) (steps : List (TimedQueue.Step Id Nat)) (fuel : Nat)
    (enough : steps.length ≤ fuel) (legal : Runs.Meets (step fuel) Allowed (some (initial wakeUpTime)) steps) :
    (∃ q, steps.foldl (step fuel) (some (initial wakeUpTime)) = some q ∧ q.Represents (specAfter steps) ∧
      (specAfter steps).entries.Pairwise TimedQueue.Entry.Before ∧
      (∀ r, q.contains r = true ↔ r ∈ (specAfter steps).items) ∧
      (∀ r, q.front = some r ↔ ∃ fst ∈ (specAfter steps).entries, fst.item = r ∧
        ∀ other ∈ (specAfter steps).entries, other ≠ fst → fst.Before other)) ∧
    (∀ prior th time, steps = prior ++ [.push th time] → ∀ entry,
      entry ∈ (specAfter steps).entries ↔ entry = ⟨th, time, (specAfter prior).inserted⟩ ∨
        entry ∈ (specAfter prior).entries ∧ entry.item ≠ th) ∧
    ((∀ prior th time, prior ++ [.push th time] <+: steps →
        ∀ last ∈ (poppedTimes fuel wakeUpTime prior).getLast?, last ≤ time) →
      (poppedTimes fuel wakeUpTime steps).Pairwise (· ≤ ·)) := by
  refine ⟨?_, ?_, poppedTimes_ordered wakeUpTime enough legal⟩
  · obtain ⟨q, ran, rep, -⟩ := run_represents wakeUpTime enough legal
    exact ⟨q, ran, rep, (specAfter steps).ordered, rep.contains_iff, rep.front_iff⟩
  · rintro prior th time rfl entry
    simp only [specAfter, foldl_append, foldl_cons, foldl_nil, History.step]
    exact mem_push

/-- A runnable that is pushed again for the same time goes behind the other one of that time. -/
theorem run_refines_again : ∃ q : RunnableQueue Nat,
      [.push 0 5, .push 1 5, .push 2 3, .push 0 5, .pop, .remove 1].foldl (step 6) (some (initial fun _ => 0)) =
          some q ∧ q.front = some 0 ∧ q.contains 1 = false := by
  obtain ⟨⟨q, ran, -, -, contains, front⟩, -, -⟩ := run_refines (fun _ => 0)
    [.push 0 5, .push 1 5, .push 2 3, .push 0 5, .pop, .remove 1] 6 (by decide) (by decide)
  refine ⟨q, ran, (front 0).mpr ⟨⟨0, 5, 3⟩, by decide, rfl, by decide⟩, ?_⟩
  exact Bool.eq_false_iff.mpr fun inside => absurd ((contains 1).mp inside) (by decide)

end Axe.RunnableQueue
