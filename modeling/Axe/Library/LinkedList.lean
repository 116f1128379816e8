import Mathlib.Data.List.Nodup

/-! Doubly linked lists whose links are kept in two tables over an arbitrary type
of nodes. A table says nothing about the nodes that are not in the list. -/

namespace LinkedList

open Function List

variable {Node : Type}

/-- The nodes are linked one to the next; the first points back to `before` and the last on to `after`. -/
def Linked (prev next : Node → Option Node) : Option Node → List Node → Option Node → Prop
  | _, [], _ => True
  | pre, node :: rest, post =>
    prev node = pre ∧ next node = rest.head?.or post ∧ Linked prev next (some node) rest post

variable {prev next : Node → Option Node} {pre post : Option Node} {nodes : List Node}

lemma Linked.congr {prev' next' : Node → Option Node} (linked : Linked prev next pre nodes post)
    (samePrev : ∀ node ∈ nodes, prev' node = prev node) (sameNext : ∀ node ∈ nodes, next' node = next node) :
    Linked prev' next' pre nodes post := by
  induction nodes generalizing pre with
  | nil => trivial
  | cons node rest ih =>
    obtain ⟨back, forth, linked⟩ := linked
    simp only [forall_mem_cons] at samePrev sameNext
    exact ⟨samePrev.1.trans back, sameNext.1.trans forth, ih linked samePrev.2 sameNext.2⟩

variable {fst snd : List Node}

lemma linked_append : Linked prev next pre (fst ++ snd) post ↔
      Linked prev next pre fst (snd.head?.or post) ∧
        Linked prev next (fst.getLast?.or pre) snd post := by
  induction fst generalizing pre with
  | nil => simp [Linked]
  | cons node rest ih =>
    have joint : (rest ++ snd).head?.or post = rest.head?.or (snd.head?.or post) := by
      rw [head?_append, Option.or_assoc]
    have last : (node :: rest).getLast?.or pre = rest.getLast?.or (some node) := by
      rw [getLast?_cons]
      cases rest.getLast? <;> rfl
    simp only [cons_append, Linked, ih, joint, last, and_assoc]

lemma Linked.prev_ne_none (linked : Linked prev next pre nodes post) {node : Node}
    (mem : node ∈ nodes.tail) : prev node ≠ none := by
  cases nodes with
  | nil => cases mem
  | cons fst rest =>
    obtain ⟨prior, later, rfl⟩ := append_of_mem mem
    have here := (linked_append.mp linked.2.2).2.1
    rw [here]
    cases prior.getLast? <;> simp

variable [DecidableEq Node] {node : Node} {dst value : Option Node}

def relink (table : Node → Option Node) (dst value : Option Node) : Node → Option Node :=
  match dst with
  | none => table
  | some node => update table node value

lemma relink_of_ne {table : Node → Option Node} (other : some node ≠ dst) :
    relink table dst value node = table node := by
  cases dst with
  | none => rfl
  | some changed => exact update_of_ne (fun same => other (congrArg some same)) _ _

section

variable (linked : Linked prev next pre nodes post)
include linked

lemma Linked.relink_prev
    (out : ∀ node ∈ dst, node ∉ nodes) : Linked (relink prev dst value) next pre nodes post :=
  linked.congr (fun node mem => relink_of_ne fun same => out node same.symm mem) fun _ _ => rfl

lemma Linked.relink_next
    (out : ∀ node ∈ dst, node ∉ nodes) : Linked prev (relink next dst value) pre nodes post :=
  linked.congr (fun _ _ => rfl) fun node mem => relink_of_ne fun same => out node same.symm mem

lemma Linked.relink_first (nodup : nodes.Nodup) : Linked (relink prev nodes.head? value) next value nodes post := by
  cases nodes with
  | nil => trivial
  | cons head rest =>
    have out : ∀ node ∈ some head, node ∉ rest := by
      rintro node ⟨⟩
      exact (nodup_cons.mp nodup).1
    exact ⟨update_self .., linked.2.1, linked.2.2.relink_prev out⟩

lemma Linked.relink_last (nodup : nodes.Nodup) :
    Linked prev (relink next nodes.getLast? value) pre nodes value := by
  cases last : nodes.getLast? with
  | none =>
    rw [getLast?_eq_none_iff.mp last]
    trivial
  | some node =>
    obtain ⟨prior, rfl⟩ := getLast?_eq_some_iff.mp last
    obtain ⟨front, back⟩ := linked_append.mp linked
    have out : ∀ other ∈ some node, other ∉ prior := by
      rintro other ⟨⟩ mem
      exact (nodup_append.mp nodup).2.2 _ mem _ mem_cons_self rfl
    refine linked_append.mpr ⟨front.relink_next out, back.1, ?_, trivial⟩
    exact update_self ..

end

/-- Two lists become one when the last node of the first and the first of the second are linked. -/
lemma Linked.append {between between' : Option Node}
    (front : Linked prev next pre fst between) (back : Linked prev next between' snd post)
    (nodup : (fst ++ snd).Nodup) :
    Linked (relink prev snd.head? (fst.getLast?.or pre)) (relink next fst.getLast? (snd.head?.or post))
      pre (fst ++ snd) post := by
  obtain ⟨nodupFirst, nodupSecond, apart⟩ := nodup_append.mp nodup
  have headOutside : ∀ node ∈ snd.head?, node ∉ fst := fun node head mem =>
    apart _ mem _ (mem_of_mem_head? head) rfl
  have lastOutside : ∀ node ∈ fst.getLast?, node ∉ snd := fun node last mem =>
    apart _ (mem_of_mem_getLast? last) _ mem rfl
  exact linked_append.mpr ⟨(front.relink_last nodupFirst).relink_prev headOutside,
    (back.relink_first nodupSecond).relink_next lastOutside⟩

lemma Linked.unlink (linked : Linked prev next none (fst ++ node :: snd) none)
    (nodup : (fst ++ node :: snd).Nodup) :
    Linked (relink prev snd.head? fst.getLast?) (relink next fst.getLast? snd.head?) none
      (fst ++ snd) none := by
  obtain ⟨front, -, -, back⟩ := linked_append.mp linked
  have lt : (fst ++ snd).Nodup := nodup.sublist ((sublist_cons_self node snd).append_left fst)
  simpa only [Option.or_none] using front.append back lt

lemma Linked.link (linked : Linked prev next none (fst ++ snd) none)
    (nodup : (fst ++ snd).Nodup) (out : node ∉ fst ++ snd) :
    Linked (relink (update prev node fst.getLast?) snd.head? (some node))
      (relink (update next node snd.head?) fst.getLast? (some node)) none
      (fst ++ node :: snd) none := by
  obtain ⟨nodupFirst, nodupSecond, apart⟩ := nodup_append.mp nodup
  have clear : ∀ other ∈ some node, other ∉ fst ++ snd := by
    rintro other ⟨⟩
    exact out
  have framed : Linked (update prev node fst.getLast?) (update next node snd.head?) none
      (fst ++ snd) none := (linked.relink_prev clear).relink_next clear
  obtain ⟨front, back⟩ := linked_append.mp framed
  have headOutside : ∀ other ∈ snd.head?, other ∉ fst := fun other head mem =>
    apart _ mem _ (mem_of_mem_head? head) rfl
  have lastOutside : ∀ other ∈ fst.getLast?, other ∉ snd := fun other last mem =>
    apart _ (mem_of_mem_getLast? last) _ mem rfl
  have nodeHead : some node ≠ snd.head? := fun same =>
    out (mem_append_right _ (mem_of_mem_head? same.symm))
  have nodeLast : some node ≠ fst.getLast? := fun same =>
    out (mem_append_left _ (mem_of_mem_getLast? same.symm))
  refine linked_append.mpr ⟨(front.relink_last nodupFirst).relink_prev headOutside, ?_, ?_,
    (back.relink_first nodupSecond).relink_next lastOutside⟩
  · rw [relink_of_ne nodeHead, update_self, Option.or_none]
  · rw [relink_of_ne nodeLast, update_self, Option.or_none]

end LinkedList
