import CWithClasses.Tree.Node
import Mathlib.Data.List.Induction

/-!
# The items of a list

A list is spelled by nodes of one production, nested in any way: to the left, to the right or both,
with empty slots anywhere. Its items are the nodes below them that are of other productions. They
stand at places of the tree, and `Node.flatten` gives the node at each of these places, in the order
of the places.
-/

namespace CWithClasses

/-! ### Productions of one list -/

/-- Two productions that spell the same lists: one and the same, or the two of statement
sequences. -/
inductive Rule.SameList : Rule → Rule → Prop
  | same (rule : Rule) : SameList rule rule
  | started : SameList .statementSeq .statementSeqStart
  | continued : SameList .statementSeqStart .statementSeq

namespace Rule

variable {list rule other : Rule}

/-- The productions of statement sequences. -/
theorem isStatementSeq_iff : rule.isStatementSeq = true ↔
    rule = .statementSeqStart ∨ rule = .statementSeq := by
  unfold isStatementSeq
  split <;> simp_all

/-- A list is continued by the productions that spell the same lists. -/
theorem continues_iff : list.continues rule = true ↔ list.SameList rule := by
  unfold continues
  rw [Bool.or_eq_true, Bool.and_eq_true, beq_iff_eq, isStatementSeq_iff, isStatementSeq_iff]
  constructor
  · rintro (rfl | ⟨rfl | rfl, rfl | rfl⟩)
    · exact .same _
    · exact .same _
    · exact .continued
    · exact .started
    · exact .same _
  · rintro (_ | _ | _) <;> simp

/-- What continues a list does not depend on the production by which the list is known. -/
theorem SameList.continues_eq (h : list.SameList rule) (other : Rule) :
    rule.continues other = list.continues other := by
  rw [Bool.eq_iff_iff, continues_iff, continues_iff]
  constructor
  · intro hother
    cases h <;> cases hother <;> constructor
  · intro hother
    cases h <;> cases hother <;> constructor

/-- A list is continued by lists. -/
theorem isList_of_continues (hlist : list.isList = true)
    (h : list.continues rule = true) : rule.isList = true := by
  cases continues_iff.mp h with
  | same => exact hlist
  | started => rfl
  | continued => rfl

end Rule

/-! ### Places -/

namespace Node

variable {list : Rule} {n item : Node} {i : Nat} {place : List Nat}

/-- The tree at a place: each step of the place goes down into a slot. -/
def subtree? : Node → List Nat → Option Node
  | n, [] => some n
  | n, i :: place => (n.child? i).bind fun m => m.subtree? place

/-- At the place stands an item of the list: it is of another production, and all nodes above it
spell the list. -/
structure ItemAt (list : Rule) (n : Node) (place : List Nat) (item : Node) : Prop where
  found : n.subtree? place = some item
  other : ¬ list.SameList item.rule
  above : ∀ front, front <+: place → front ≠ place →
    ∃ m, n.subtree? front = some m ∧ list.SameList m.rule

/-- The items of a list are the items in its slots. -/
theorem itemAt_cons (hn : list.SameList n.rule) : ItemAt list n (i :: place) item ↔
    ∃ m, n.child? i = some m ∧ ItemAt list m place item := by
  constructor
  · intro h
    obtain ⟨m, hm, hfound⟩ := Option.bind_eq_some_iff.mp h.found
    refine ⟨m, hm, hfound, h.other, fun front hfront hne => ?_⟩
    obtain ⟨k, hk, hrule⟩ := h.above (i :: front) (List.cons_prefix_cons.mpr ⟨rfl, hfront⟩)
      (by simpa using hne)
    refine ⟨k, ?_, hrule⟩
    simpa [subtree?, hm] using hk
  · rintro ⟨m, hm, h⟩
    refine ⟨by simpa [subtree?, hm] using h.found, h.other, fun front hfront hne => ?_⟩
    cases front with
    | nil => exact ⟨n, rfl, hn⟩
    | cons j front =>
      obtain ⟨rfl, hbelow⟩ := List.cons_prefix_cons.mp hfront
      obtain ⟨k, hk, hrule⟩ := h.above front hbelow (by simpa using hne)
      exact ⟨k, by simpa [subtree?, hm] using hk, hrule⟩

/-- The list as a whole is no item. -/
theorem not_itemAt_nil (hn : list.SameList n.rule) : ¬ ItemAt list n [] item := by
  intro h
  obtain rfl : n = item := Option.some.inj h.found
  exact h.other hn

/-- A tree that does not spell the list is itself an item, and has no others. -/
theorem itemAt_iff_of_other (hn : ¬ list.SameList n.rule) :
    ItemAt list n place item ↔ place = [] ∧ item = n := by
  constructor
  · intro h
    have hplace : place = [] := by
      by_contra hne
      obtain ⟨m, hm, hrule⟩ := h.above [] List.nil_prefix (Ne.symm hne)
      obtain rfl : n = m := Option.some.inj hm
      exact hn hrule
    subst hplace
    exact ⟨rfl, (Option.some.inj h.found).symm⟩
  · rintro ⟨rfl, rfl⟩
    exact ⟨rfl, hn, fun front hfront hne => absurd (List.prefix_nil.mp hfront) hne⟩

/-! ### Items and their places -/

mutual

/-- The items of a list node, each with its place. -/
def placedItems : Node → List (List Nat × Node)
  | ⟨rule, children, _⟩ => placedItemsOf rule 0 children

/-- The items in a row of slots, which are numbered from the given one on. -/
def placedItemsOf (list : Rule) : Nat → List (Option Node) → List (List Nat × Node)
  | _, [] => []
  | i, none :: rest => placedItemsOf list (i + 1) rest
  | i, some child :: rest =>
      (if list.continues child.rule then child.placedItems else [([], child)]).map
        (fun placed => (i :: placed.1, placed.2)) ++ placedItemsOf list (i + 1) rest

end

/-- Without their places these are the items of the row. -/
theorem map_snd_placedItemsOf : ∀ (list : Rule) (i : Nat) (children : List (Option Node)),
    (placedItemsOf list i children).map Prod.snd = itemsOf list children
  | list, i, [] => by simp [placedItemsOf, itemsOf]
  | list, i, none :: rest => by
      simp [placedItemsOf, itemsOf, map_snd_placedItemsOf list (i + 1) rest]
  | list, i, some ⟨rule, children, token⟩ :: rest => by
      rw [placedItemsOf, itemsOf, List.map_append, map_snd_placedItemsOf list (i + 1) rest,
        List.map_map]
      congr 1
      split
      · rw [placedItems, items, ← map_snd_placedItemsOf rule 0 children]
        rfl
      · rfl

/-- An item of a row is an item in one of its slots. -/
theorem mem_placedItemsOf {children : List (Option Node)} :
    (place, item) ∈ placedItemsOf list i children ↔ ∃ j below m, place = (i + j) :: below ∧
      children[j]? = some (some m) ∧
        (below, item) ∈ if list.continues m.rule then m.placedItems else [([], m)] := by
  induction children generalizing i with
  | nil => simp [placedItemsOf]
  | cons child rest ih =>
    -- The first slot is number `i`, and the others are numbered from `i + 1` on.
    constructor
    · intro h
      have hcases : (place, item) ∈ placedItemsOf list (i + 1) rest ∨ ∃ m, child = some m ∧
          (place, item) ∈ (if list.continues m.rule then m.placedItems else [([], m)]).map
            (fun placed => (i :: placed.1, placed.2)) := by
        cases child with
        | none => exact .inl (by simpa [placedItemsOf] using h)
        | some m =>
          rw [placedItemsOf, List.mem_append] at h
          exact h.symm.imp id fun h => ⟨m, rfl, h⟩
      rcases hcases with hrest | ⟨m, rfl, hfirst⟩
      · obtain ⟨j, below, m, rfl, hm, hmem⟩ := ih.mp hrest
        exact ⟨j + 1, below, m, by rw [Nat.add_right_comm, Nat.add_assoc], hm, hmem⟩
      · obtain ⟨⟨below, _⟩, hmem, heq⟩ := List.mem_map.mp hfirst
        cases heq
        exact ⟨0, below, m, rfl, rfl, hmem⟩
    · rintro ⟨j, below, m, rfl, hm, hmem⟩
      cases j with
      | zero =>
        obtain rfl : child = some m := Option.some.inj hm
        rw [placedItemsOf, List.mem_append]
        exact .inl (List.mem_map.mpr ⟨(below, item), hmem, rfl⟩)
      | succ j =>
        have hrest : ((i + (j + 1)) :: below, item) ∈ placedItemsOf list (i + 1) rest :=
          ih.mpr ⟨j, below, m, by rw [Nat.add_right_comm, Nat.add_assoc], hm, hmem⟩
        cases child with
        | none => simpa [placedItemsOf] using hrest
        | some m =>
          rw [placedItemsOf, List.mem_append]
          exact .inr hrest

/-- The places of a row come in order. -/
theorem pairwise_placedItemsOf : ∀ (list : Rule) (i : Nat) (children : List (Option Node)),
    (placedItemsOf list i children).Pairwise fun a b => List.Lex (· < ·) a.1 b.1
  | list, i, [] => by simp [placedItemsOf]
  | list, i, none :: rest => by
      simpa [placedItemsOf] using pairwise_placedItemsOf list (i + 1) rest
  | list, i, some ⟨rule, children, token⟩ :: rest => by
      rw [placedItemsOf, List.pairwise_append, List.pairwise_map]
      refine ⟨?_, pairwise_placedItemsOf list (i + 1) rest, ?_⟩
      · split
        · rw [placedItems]
          exact (pairwise_placedItemsOf rule 0 children).imp .cons
        · exact List.pairwise_singleton _ _
      · rintro ⟨front, _⟩ hfront ⟨back, _⟩ hback
        obtain ⟨_, _, heq⟩ := List.mem_map.mp hfront
        obtain ⟨j, below, _, rfl, _⟩ := mem_placedItemsOf.mp hback
        cases heq
        exact .rel (by omega)

/-- An item of a list node is an item in one of its slots. -/
theorem mem_placedItems : (place, item) ∈ n.placedItems ↔ ∃ j below m, place = j :: below ∧
    n.child? j = some m ∧
      (below, item) ∈ if n.rule.continues m.rule then m.placedItems else [([], m)] := by
  obtain ⟨rule, children, token⟩ := n
  rw [placedItems, mem_placedItemsOf]
  simp only [Nat.zero_add, child?, Option.join_eq_some_iff]

/-- What is listed with its place are the items of the list, wherever they stand. -/
theorem mem_placedItems_iff_itemAt :
    ((place, item) ∈ if list.continues n.rule then n.placedItems else [([], n)]) ↔
      ItemAt list n place item := by
  induction place generalizing n with
  | nil =>
    split
    next hlist =>
      refine iff_of_false (fun h => ?_) (not_itemAt_nil (Rule.continues_iff.mp hlist))
      obtain ⟨j, below, m, hplace, _⟩ := mem_placedItems.mp h
      cases hplace
    next hother => simp [itemAt_iff_of_other (mt Rule.continues_iff.mpr hother)]
  | cons i place ih =>
    split
    next hlist =>
      have hsame := Rule.continues_iff.mp hlist
      rw [itemAt_cons hsame, mem_placedItems]
      simp only [List.cons.injEq, hsame.continues_eq]
      constructor
      · rintro ⟨j, below, m, ⟨rfl, rfl⟩, hm, hitem⟩
        exact ⟨m, hm, ih.mp hitem⟩
      · rintro ⟨m, hm, hitem⟩
        exact ⟨i, place, m, ⟨rfl, rfl⟩, hm, ih.mpr hitem⟩
    next hother => simp [itemAt_iff_of_other (mt Rule.continues_iff.mpr hother)]

/-! ### Built lists -/

/-- The items of a list are found in it again, if none of them continues the list. -/
theorem flatten_list {rule : Rule} (hlist : rule.isList = true) {items : List Node}
    (hitems : ∀ item ∈ items, rule.continues item.rule = false) :
    (Node.list rule items).elim [] Node.flatten = items := by
  have hself : rule.continues rule = true := by simp [Rule.continues]
  have hrule : ∀ items n, Node.list rule items = some n → n.rule = rule := by
    intro items n h
    induction items using List.reverseRecOn with
    | nil => cases h
    | append_singleton front last =>
      rw [Node.list, List.foldl_append] at h
      cases h
      rfl
  induction items using List.reverseRecOn with
  | nil => rfl
  | append_singleton front last ih =>
    have hfront := ih fun item hitem => hitems item (List.mem_append_left _ hitem)
    have hlast := hitems last (List.mem_append_right _ List.mem_cons_self)
    have hstep : Node.list rule (front ++ [last]) =
        some { rule, children := [Node.list rule front, some last] } := by
      rw [Node.list, List.foldl_append]
      rfl
    rw [hstep]
    cases hn : Node.list rule front with
    | none =>
      rw [hn] at hfront
      subst hfront
      simp [Node.flatten, hlist, Node.items, Node.itemsOf, hlast]
    | some n =>
      have hn' := hrule front n hn
      rw [hn] at hfront
      simp only [Option.elim_some, Node.flatten, hn', hlist, if_true] at hfront
      simp [Node.flatten, hlist, Node.items, Node.itemsOf, hlast, hn', hself, hfront]

/-! ### Flattening -/

/-- Flattening a list gives the items that stand in it, each of them once and from the left to the
right, however the list is nested. A list that is built from items has these and no others. -/
theorem flatten_exact (hlist : list.isList = true) :
    (∀ n : Node, list.SameList n.rule → ∃ placed : List (List Nat × Node),
      placed.map Prod.snd = n.flatten ∧
      (placed.map Prod.fst).Pairwise (List.Lex (· < ·)) ∧
      ∀ place item, (place, item) ∈ placed ↔ ItemAt list n place item) ∧
    ∀ items : List Node, items ≠ [] → (∀ item ∈ items, ¬ list.SameList item.rule) →
      ∃ n, Node.list list items = some n ∧ n.flatten = items := by
  refine ⟨fun n hn => ⟨n.placedItems, ?_, ?_, ?_⟩, fun items hne hitems => ?_⟩
  · have hrule := Rule.isList_of_continues hlist (Rule.continues_iff.mpr hn)
    obtain ⟨rule, children, token⟩ := n
    rw [flatten, if_pos hrule]
    exact map_snd_placedItemsOf rule 0 children
  · obtain ⟨rule, children, token⟩ := n
    rw [List.pairwise_map]
    exact pairwise_placedItemsOf rule 0 children
  · intro place item
    rw [← mem_placedItems_iff_itemAt, if_pos (Rule.continues_iff.mpr hn)]
  · have hfound := flatten_list hlist fun item hitem =>
      Bool.eq_false_iff.mpr (mt Rule.continues_iff.mp (hitems item hitem))
    cases hn : Node.list list items with
    | none =>
      rw [hn] at hfound
      exact absurd hfound.symm hne
    | some n =>
      rw [hn] at hfound
      exact ⟨n, rfl, hfound⟩

/-- The three jumps that need no operand. -/
def jumps : List Node :=
  [{ rule := .breakJump }, { rule := .continueJump }, { rule := .returnJump }]

/-- The jumps in a sequence that is nested on both sides, by both of its productions, with slots
left empty. -/
def nestedJumps : Node where
  rule := .statementSeq
  children :=
    [some { rule := .statementSeqStart, children := [none, some { rule := .breakJump }] }, none,
      some
        { rule := .statementSeqStart
          children :=
            [some { rule := .continueJump },
              some { rule := .statementSeq, children := [none, some { rule := .returnJump }] }] }]

/-- The jumps are recovered from the nested sequence with their places, and from the list that is
built of them. -/
theorem flatten_jumps :
    (∃ placed : List (List Nat × Node), placed.map Prod.snd = jumps ∧
      (placed.map Prod.fst).Pairwise (List.Lex (· < ·)) ∧
      ∀ place item, (place, item) ∈ placed ↔ ItemAt .statementSeq nestedJumps place item) ∧
    ∃ n, Node.list .statementSeq jumps = some n ∧ n.flatten = jumps := by
  obtain ⟨hnested, hbuilt⟩ := flatten_exact (rfl : Rule.isList .statementSeq = true)
  have hflat : nestedJumps.flatten = jumps := rfl
  have hother : ∀ item ∈ jumps, ¬ Rule.continues .statementSeq item.rule = true := by decide
  refine ⟨hflat ▸ hnested nestedJumps (.same _), hbuilt jumps (by simp [jumps]) ?_⟩
  exact fun item hitem hsame => hother item hitem (Rule.continues_iff.mpr hsame)

end Node

end CWithClasses
