import Axe.Library.LinkedList

/-! Several doubly linked lists with their heads, over one pair of link fields for each node. A node
is in at most one of the lists; the links of a node that is in none of them are left as they were. -/

namespace LinkedList

open Function List

structure Lists (Key Node : Type) where
  head : Key → Option Node
  next : Node → Option Node
  prev : Node → Option Node

namespace Lists

variable {Key Node : Type} [DecidableEq Key] [DecidableEq Node] (lists : Lists Key Node) (key : Key) (node : Node)

def add : Lists Key Node :=
  { head := update lists.head key (some node)
    next := update lists.next node (lists.head key)
    prev := relink (update lists.prev node none) (lists.head key) (some node) }

def remove : Lists Key Node :=
  let next := relink lists.next (lists.prev node) (lists.next node)
  { head := if lists.prev node = none then update lists.head key (lists.next node) else lists.head
    next := next
    prev := relink lists.prev (next node) (lists.prev node) }

structure Represents (mems : Key → List Node) : Prop where
  linked : ∀ key, Linked lists.prev lists.next none (mems key) none
  head : ∀ key, lists.head key = (mems key).head?
  nodup : ∀ key, (mems key).Nodup
  disjoint : ∀ {key other node}, node ∈ mems key → node ∈ mems other → key = other

variable {lists key node} {mems : Key → List Node} (represents : lists.Represents mems)

include represents

lemma Represents.add (fresh : ∀ key, node ∉ mems key) :
    (lists.add key node).Represents (update mems key (node :: mems key)) := by
  have mem {k : Key} {n : Node} :
      n ∈ update mems key (node :: mems key) k ↔ n ∈ mems k ∨ k = key ∧ n = node := by
    by_cases here : k = key
    · subst here
      rw [update_self, mem_cons]
      tauto
    · rw [update_of_ne here]
      tauto
  refine ⟨fun k => ?_, fun k => ?_, fun k => ?_, fun {k k' n} first snd => ?_⟩
  · by_cases here : k = key
    · subst here
      have pre : Linked lists.prev lists.next none ([] ++ mems k) none := represents.linked k
      have link := pre.link (represents.nodup k) (fresh k)
      unfold Lists.add
      rw [update_self, represents.head]
      exact link
    · rw [update_of_ne here]
      have apart : ∀ other ∈ lists.head key, other ∉ mems k := by
        intro other isHead mem
        rw [represents.head] at isHead
        exact here (represents.disjoint mem (mem_of_mem_head? isHead))
      have out : ∀ other ∈ some node, other ∉ mems k := by
        rintro other ⟨⟩
        exact fresh k
      have kept : Linked (relink lists.prev (some node) none) (relink lists.next (some node) (lists.head key)) none
          (mems k) none := ((represents.linked k).relink_prev out).relink_next out
      exact kept.relink_prev apart
  · by_cases here : k = key
    · subst here
      simp [Lists.add]
    · simp [Lists.add, here, represents.head]
  · by_cases here : k = key
    · subst here
      rw [update_self]
      exact nodup_cons.mpr ⟨fresh k, represents.nodup k⟩
    · rw [update_of_ne here]
      exact represents.nodup k
  · obtain old | ⟨rfl, rfl⟩ := mem.mp first
    · obtain old' | ⟨rfl, rfl⟩ := mem.mp snd
      · exact represents.disjoint old old'
      · exact absurd old (fresh k)
    · obtain old' | ⟨rfl, -⟩ := mem.mp snd
      · exact absurd old' (fresh k')
      · rfl

lemma Represents.remove (mem : node ∈ mems key) :
    (lists.remove key node).Represents (update mems key ((mems key).erase node)) := by
  obtain ⟨first, snd, split⟩ := append_of_mem mem
  have nodup := represents.nodup key
  have linked := represents.linked key
  rw [split] at nodup linked
  obtain ⟨back, forth, -⟩ := (linked_append.mp linked).2
  rw [Option.or_none] at back forth
  have left : node ∉ first := fun earlier =>
    (nodup_append.mp nodup).2.2 _ earlier _ mem_cons_self rfl
  have erased : (mems key).erase node = first ++ snd := by
    rw [split, erase_append_right _ left, erase_cons_head]
  have inList {n : Node} (isIn : n ∈ first ++ snd) : n ∈ mems key := by
    rw [split]
    exact (mem_append.mp isIn).elim (mem_append_left _) fun later =>
      mem_append_right _ (mem_cons_of_mem _ later)
  -- The node before the removed one is another, so the removed one keeps its link to the next.
  have kept : relink lists.next (lists.prev node) (lists.next node) node = lists.next node := by
    rw [back]
    exact relink_of_ne fun same => left (mem_of_mem_getLast? same.symm)
  unfold Lists.remove
  dsimp only
  rw [kept, back, forth, erased]
  refine ⟨fun k => ?_, fun k => ?_, fun k => ?_, fun {k k' n} one other => ?_⟩
  · by_cases here : k = key
    · subst here
      rw [update_self]
      exact linked.unlink nodup
    · rw [update_of_ne here]
      have out {n : Node} (isIn : n ∈ first ++ snd) : n ∉ mems k := fun also =>
        here (represents.disjoint also (inList isIn))
      refine ((represents.linked k).relink_prev fun n isHead => ?_).relink_next fun n isLast => ?_
      · exact out (mem_append_right _ (mem_of_mem_head? isHead))
      · exact out (mem_append_left _ (mem_of_mem_getLast? isLast))
  · by_cases here : k = key
    · subst here
      rw [update_self]
      cases first with
      | nil => simp
      | cons head rest =>
        have head := represents.head k
        rw [split] at head
        simpa using head
    · rw [update_of_ne here]
      dsimp only
      split
      · rw [update_of_ne here, represents.head]
      · exact represents.head k
  · by_cases here : k = key
    · subst here
      rw [update_self]
      exact nodup.sublist ((sublist_cons_self node snd).append_left first)
    · rw [update_of_ne here]
      exact represents.nodup k
  · have older {l : Key} (isIn : n ∈ update mems key (first ++ snd) l) : n ∈ mems l := by
      by_cases here : l = key
      · subst here
        rw [update_self] at isIn
        exact inList isIn
      · rwa [update_of_ne here] at isIn
    exact represents.disjoint (older one) (older other)

lemma Represents.next_of_head {rest : List Node} (isHead : mems key = node :: rest) :
    (lists.remove key node).next node = rest.head? := by
  have link := represents.linked key
  rw [isHead] at link
  unfold Lists.remove
  rw [link.1]
  exact link.2.1.trans (Option.or_none ..)

end Lists

end LinkedList
