import CWithClasses.Check.Meaning
import CWithClasses.Proofs.Layout
import CWithClasses.Proofs.Logic.Fits

/-!
# Two runs of one check

A property of two runs is carried from the parts of a tree to the whole if it survives putting steps
one after another. `PairRules` lists what is asked for that: `pair x y R` says that the steps `x`
and `y` go together, and that their results are related by `R`. The two steps come from one place of
one tree, so their loops have equally many turns and their faults are the same.

What is known of a tree is known of each of its subtrees, which is what `Phrase.Throughout` is for:
a construct may look at the parts of its parts, at the items of a list or at the links of a chain.
-/

namespace CWithClasses

/-! ### Subtrees -/

namespace Node

mutual

/-- All subtrees of a tree, itself among them. -/
def subtrees : Node → List Node
  | ⟨rule, children, token⟩ => ⟨rule, children, token⟩ :: subtreesOf children

/-- All subtrees of a row of slots. -/
def subtreesOf : List (Option Node) → List Node
  | [] => []
  | none :: rest => subtreesOf rest
  | some child :: rest => child.subtrees ++ subtreesOf rest

end

variable {n m : Node}

/-- A tree is one of its subtrees. -/
theorem mem_subtrees (n : Node) : n ∈ n.subtrees := by
  cases n
  simp [subtrees]

/-- The subtrees of a slot are among those of the row. -/
theorem subtrees_subset_subtreesOf {children : List (Option Node)} (h : some m ∈ children) :
    m.subtrees ⊆ subtreesOf children := by
  induction children with
  | nil => cases h
  | cons child rest ih =>
    rcases List.mem_cons.mp h with rfl | hrest
    · rw [subtreesOf]
      exact List.subset_append_left _ _
    · cases child with
      | none => exact ih hrest
      | some child =>
        rw [subtreesOf]
        exact fun x hx => List.mem_append_right _ (ih hrest hx)

/-- The subtrees of a child are among those of the tree. -/
theorem subtrees_child {i : Nat} (h : n.child? i = some m) : m.subtrees ⊆ n.subtrees := by
  obtain ⟨rule, children, token⟩ := n
  have hmem : some m ∈ children := by
    unfold child? at h
    rw [Option.join_eq_some_iff] at h
    exact List.mem_of_getElem? h
  rw [subtrees]
  exact fun x hx => List.mem_cons_of_mem _ (subtrees_subset_subtreesOf hmem hx)

mutual

/-- The subtrees of a subtree are among those of the tree. -/
theorem subtrees_subset : ∀ {n : Node}, m ∈ n.subtrees → m.subtrees ⊆ n.subtrees
  | ⟨rule, children, token⟩, h => by
      rw [subtrees] at h
      rcases List.mem_cons.mp h with rfl | hchildren
      · exact List.Subset.refl _
      · rw [subtrees]
        exact fun x hx => List.mem_cons_of_mem _ (subtreesOf_subset hchildren hx)

/-- The subtrees of a subtree in a row of slots are among those of the row. -/
theorem subtreesOf_subset : ∀ {children : List (Option Node)}, m ∈ subtreesOf children →
    m.subtrees ⊆ subtreesOf children
  | [], h => by simp [subtreesOf] at h
  | none :: rest, h => by
      rw [subtreesOf] at h ⊢
      exact subtreesOf_subset h
  | some child :: rest, h => by
      rw [subtreesOf] at h ⊢
      rcases List.mem_append.mp h with hchild | hrest
      · exact fun x hx => List.mem_append_left _ (subtrees_subset hchild hx)
      · exact fun x hx => List.mem_append_right _ (subtreesOf_subset hrest hx)

end

end Node

/-! ### Properties of all parts of a phrase -/

/-- The property holds of the phrase, of its parts, of their parts, and so on. -/
inductive Phrase.Throughout (P : Phrase → Prop) : Phrase → Prop
  | intro {p : Phrase} (self : P p) (parts : ∀ i q, p.part? i = some q → q.Throughout P) :
      p.Throughout P

/-- The property holds of all parts of the construct, of their parts, and so on. -/
def Clause.Throughout (P : Phrase → Prop) (c : Clause) : Prop :=
  ∀ i q, c.part? i = some q → q.Throughout P

namespace Phrase.Throughout

variable {P Q : Phrase → Prop} {p q : Phrase}

/-- The phrase itself. -/
theorem self (h : p.Throughout P) : P p := by
  cases h with
  | intro hself => exact hself

/-- Its construct. -/
theorem clause (h : p.Throughout P) : p.clause.Throughout P := by
  cases h with
  | intro _ hparts => exact hparts

/-- One of its parts. -/
theorem part {i : Nat} (h : p.Throughout P) (hq : p.part? i = some q) : q.Throughout P :=
  h.clause i q hq

/-- A part that is found in the row of slots. -/
theorem of_mem_parts (h : p.Throughout P) (hq : some q ∈ p.parts) : q.Throughout P := by
  obtain ⟨i, hi⟩ := List.mem_iff_getElem?.mp hq
  refine h.part (i := i) ?_
  simp [Phrase.part?, Clause.part?, Phrase.clause, hi]

/-- Another property that follows. -/
theorem derive (h : p.Throughout P) (hQ : ∀ p : Phrase, p.Throughout P → Q p) : p.Throughout Q := by
  induction h with
  | intro hself hparts ih => exact .intro (hQ _ (.intro hself hparts)) ih

/-- A weaker property. -/
theorem mono (h : p.Throughout P) (hQ : ∀ p, P p → Q p) : p.Throughout Q :=
  h.derive fun q hq => hQ q hq.self

/-- A phrase that is there. -/
theorem of_some (h : p.Throughout P) : ∀ r, some p = some r → r.Throughout P := by
  rintro r hr
  exact Option.some.inj hr ▸ h

end Phrase.Throughout

/-- There is nothing to show of a phrase that is left out. -/
theorem Phrase.throughout_none {P : Phrase → Prop} :
    ∀ r : Phrase, none = some r → r.Throughout P := by
  rintro r hr
  cases hr

/-- A property that a phrase has if it holds of all its parts holds throughout. -/
theorem Node.throughout_phrase {P : Phrase → Prop} {n : Node}
    (h : ∀ m ∈ n.subtrees, m.clause.Throughout P → P m.phrase) : n.phrase.Throughout P := by
  have hparts : n.clause.Throughout P := by
    intro i q hq
    obtain ⟨m, hm, rfl⟩ := n.child_of_part? hq
    have := sizeOf_child hm
    exact throughout_phrase fun k hk => h k (subtrees_child hm hk)
  refine .intro (h n n.mem_subtrees hparts) ?_
  rw [← n.phrase_clause] at hparts
  exact hparts
termination_by sizeOf n

/-- What holds throughout the phrase of a tree holds throughout those of its children. -/
theorem Phrase.Throughout.child {P : Phrase → Prop} {n m : Node} {i : Nat}
    (h : n.phrase.Throughout P) (hm : n.child? i = some m) : m.phrase.Throughout P :=
  h.part (i := i) (by rw [n.phrase_part?, hm, Option.map_some])

namespace Phrase

variable {P : Phrase → Prop} {p q : Phrase}

mutual

/-- The items of a list. -/
theorem throughout_items : ∀ {p : Phrase}, p.Throughout P → ∀ q ∈ p.items, q.Throughout P
  | ⟨node, parts, roles⟩, h => by
      rw [items]
      exact throughout_itemsOf node.rule fun r hr => h.of_mem_parts hr

/-- The items in a row of slots. -/
theorem throughout_itemsOf (rule : Rule) : ∀ {parts : List (Option Phrase)},
    (∀ r, some r ∈ parts → r.Throughout P) → ∀ q ∈ itemsOf rule parts, q.Throughout P
  | [], _ => by simp [itemsOf]
  | none :: rest, h => by
      rw [itemsOf]
      exact throughout_itemsOf rule fun r hr => h r (List.mem_cons_of_mem _ hr)
  | some part :: rest, h => by
      have hpart := h part List.mem_cons_self
      have hrest : ∀ q ∈ itemsOf rule rest, q.Throughout P :=
        throughout_itemsOf rule fun r hr => h r (List.mem_cons_of_mem _ hr)
      intro q hq
      rw [itemsOf] at hq
      rcases List.mem_append.mp hq with hq | hq
      · split at hq
        · exact throughout_items hpart q hq
        · exact List.mem_singleton.mp hq ▸ hpart
      · exact hrest q hq

end

/-- The items of a phrase, which may be no list. -/
theorem Throughout.flatten (h : p.Throughout P) : ∀ q ∈ p.flatten, q.Throughout P := by
  unfold Phrase.flatten
  split
  · exact throughout_items h
  · intro q hq
    exact List.mem_singleton.mp hq ▸ h

/-- The items of an optional list. -/
theorem throughout_flatten? {p : Option Phrase} (h : ∀ r, p = some r → r.Throughout P) :
    ∀ q ∈ flatten? p, q.Throughout P := by
  cases p with
  | none => simp [flatten?]
  | some r => exact (h r rfl).flatten

/-- The links of a chain of members. -/
theorem Throughout.memberLinks (h : p.Throughout P) : ∀ q ∈ p.memberLinks, q.Throughout P := by
  induction h with
  | @intro p hself hparts ih =>
    intro q hq
    rcases mem_memberLinks hq with rfl | ⟨_, next, hnext, hq⟩
    · exact .intro hself hparts
    · exact ih 1 next hnext q hq

end Phrase

/-- The items of a list construct. -/
theorem Clause.Throughout.items {P : Phrase → Prop} {c : Clause} (h : c.Throughout P) :
    ∀ q ∈ c.items, q.Throughout P := by
  refine Phrase.throughout_itemsOf c.rule fun r hr => ?_
  obtain ⟨i, hi⟩ := List.mem_iff_getElem?.mp hr
  exact h i r (by simp [Clause.part?, hi])

/-! ### Pairs of steps -/

/-- Two rows whose items are related, put together with two others. -/
theorem forall₂_zip {α β γ δ : Type} {P : α → β → Prop} {Q : γ → δ → Prop} {as : List α}
    {bs : List β} {cs : List γ} {ds : List δ} (hab : List.Forall₂ P as bs)
    (hcd : List.Forall₂ Q cs ds) :
    List.Forall₂ (fun x y => P x.1 y.1 ∧ Q x.2 y.2) (as.zip cs) (bs.zip ds) := by
  induction hab generalizing cs ds with
  | nil => exact .nil
  | cons hp _ ih =>
    cases hcd with
    | nil => exact .nil
    | cons hq hrest => exact .cons ⟨hp, hq⟩ (ih hrest)

/-- What two runs have in common, following the way in which steps are put together. -/
structure PairRules where
  /-- Two steps go together, and their results are related. -/
  pair : ∀ {α β : Type}, Check α → Check β → (α → β → Prop) → Prop
  ret : ∀ {α β : Type} {a : α} {b : β} {R : α → β → Prop}, R a b → pair (pure a) (pure b) R
  seq : ∀ {α β γ δ : Type} {x : Check α} {y : Check β} {f : α → Check γ} {g : β → Check δ}
    {P : α → β → Prop} {Q : γ → δ → Prop}, pair x y P → (∀ a b, P a b → pair (f a) (g b) Q) →
    pair (x >>= f) (y >>= g) Q
  fault : ∀ {α β : Type} {R : α → β → Prop} (e : Fault), pair (throw e) (throw e) R

namespace PairRules

variable (L : PairRules) {α β γ δ : Type} {P : α → β → Prop} {Q : γ → δ → Prop}

/-- A step for each of equally many items. -/
theorem forM {as : List α} {bs : List β} {f : α → Check PUnit} {g : β → Check PUnit}
    (hitems : List.Forall₂ P as bs) (hstep : ∀ a b, P a b → L.pair (f a) (g b) fun _ _ => True) :
    L.pair (as.forM f) (bs.forM g) fun _ _ => True := by
  induction hitems with
  | nil => exact L.ret trivial
  | cons hab _ ih => exact L.seq (hstep _ _ hab) fun _ _ _ => ih

/-- A step for each of equally many items, with all results. -/
theorem mapM {as : List α} {bs : List β} {f : α → Check γ} {g : β → Check δ}
    (hitems : List.Forall₂ P as bs) (hstep : ∀ a b, P a b → L.pair (f a) (g b) Q) :
    L.pair (as.mapM f) (bs.mapM g) (List.Forall₂ Q) := by
  induction hitems with
  | nil =>
    rw [List.mapM_nil, List.mapM_nil]
    exact L.ret .nil
  | cons hab _ ih =>
    rw [List.mapM_cons, List.mapM_cons]
    refine L.seq (hstep _ _ hab) fun c d hcd => ?_
    refine L.seq ih fun cs ds hrest => ?_
    exact L.ret (.cons hcd hrest)

/-- A step for each item of a list, made with the result of the step before. -/
theorem foldlM {items : List γ} {f : α → γ → Check α} {g : β → γ → Check β} {a : α} {b : β}
    (hab : P a b) (hstep : ∀ a b, P a b → ∀ item ∈ items, L.pair (f a item) (g b item) P) :
    L.pair (items.foldlM f a) (items.foldlM g b) P := by
  induction items generalizing a b with
  | nil => exact L.ret hab
  | cons item rest ih =>
    rw [List.foldlM_cons, List.foldlM_cons]
    refine L.seq (hstep a b hab item List.mem_cons_self) fun a' b' hab' => ?_
    exact ih hab' fun c d hcd item hitem => hstep c d hcd item (List.mem_cons_of_mem _ hitem)

/-- The same step for each item of one list. -/
theorem forM_same {items : List α} {f g : α → Check PUnit}
    (hstep : ∀ a ∈ items, L.pair (f a) (g a) fun _ _ => True) :
    L.pair (items.forM f) (items.forM g) fun _ _ => True := by
  have hsame : List.Forall₂ (fun a b => a = b ∧ a ∈ items) items items :=
    List.forall₂_same.mpr fun a ha => ⟨rfl, ha⟩
  refine L.forM hsame ?_
  rintro a _ ⟨rfl, ha⟩
  exact hstep a ha

/-- The same step for each item of one list, with all results. -/
theorem mapM_same {items : List α} {f : α → Check γ} {g : α → Check δ}
    (hstep : ∀ a ∈ items, L.pair (f a) (g a) Q) :
    L.pair (items.mapM f) (items.mapM g) (List.Forall₂ Q) := by
  have hsame : List.Forall₂ (fun a b => a = b ∧ a ∈ items) items items :=
    List.forall₂_same.mpr fun a ha => ⟨rfl, ha⟩
  refine L.mapM hsame ?_
  rintro a _ ⟨rfl, ha⟩
  exact hstep a ha

/-- Taking a part of a construct, and going on with it. -/
theorem part {c : Clause} {i : Nat} {f : Phrase → Check γ} {g : Phrase → Check δ}
    (h : ∀ q, c.part? i = some q → L.pair (f q) (g q) Q) :
    L.pair (c.part i >>= f) (c.part i >>= g) Q := by
  unfold Clause.part
  cases hpart : c.part? i with
  | none => exact L.fault _
  | some q => exact h q hpart

/-- Reading something off the tree, and going on with it. -/
theorem lift {x : Except Fault α} {f : α → Check γ} {g : α → Check δ}
    (h : ∀ a, x = .ok a → L.pair (f a) (g a) Q) :
    L.pair ((liftM x : Check α) >>= f) ((liftM x : Check α) >>= g) Q := by
  cases hx : x with
  | error e => exact L.fault e
  | ok a => exact h a hx

/-- Reading the token of a leaf, and going on with it. -/
theorem leaf {n : Node} {f : Token → Check γ} {g : Token → Check δ}
    (h : ∀ t, n.token = some t → L.pair (f t) (g t) Q) :
    L.pair ((liftM n.leafToken : Check Token) >>= f)
      ((liftM n.leafToken : Check Token) >>= g) Q := by
  refine L.lift fun t ht => h t ?_
  unfold Node.leafToken at ht
  split at ht <;> cases ht
  assumption

/-- A construct that has no meaning. -/
theorem unexpected {R : α → β → Prop} (c : Clause) (context : String) :
    L.pair (c.unexpected context) (c.unexpected context) R :=
  L.fault _

end PairRules

end CWithClasses
