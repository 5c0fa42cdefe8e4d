import CWithClasses.Check.Meaning
import CWithClasses.Proofs.Logic.Statement
import CWithClasses.Proofs.Placement

/-!
# The roles of trees in a step logic

Each syntactic class has a role: what a step logic asks of the phrases of its trees. A tree `Fits`
a class if it conforms to it, or if trees that break the grammar are considered as well; and if it
holds no statements, or these are considered as well. The slots of the layout then say what may be
relied on for the parts of a tree, given that all smaller trees are sound.
-/

namespace CWithClasses

/-- The construct at the root of a tree. -/
def Node.clause (n : Node) : Clause := ⟨n, n.phrase.parts⟩

/-- The construct of the phrase of a tree is the one at its root. -/
@[simp] theorem Node.phrase_clause (n : Node) : n.phrase.clause = n.clause := by
  simp [Phrase.clause, Node.clause]

/-- The phrase of a tree has the production of the tree. -/
@[simp] theorem Node.phrase_rule (n : Node) : n.phrase.rule = n.rule := by
  simp [Phrase.rule]

/-- The roles of the phrase of a tree are those of the construct at its root. -/
theorem Node.phrase_roles_eq (n : Node) : n.phrase.roles = n.clause.roles := by
  rw [n.phrase_roles, n.phrase_clause]

/-- The parts of the construct at the root of a tree are the phrases of the children. -/
theorem Node.clause_part? (n : Node) (i : Nat) : n.clause.part? i = (n.child? i).map phrase := by
  rw [← n.phrase_clause]
  exact n.phrase_part? i

/-- A part of the construct at the root of a tree is the phrase of a child. -/
theorem Node.child_of_part? (n : Node) {i : Nat} {q : Phrase} (h : n.clause.part? i = some q) :
    ∃ m, n.child? i = some m ∧ m.phrase = q := by
  rwa [n.clause_part?, Option.map_eq_some_iff] at h

/-- The items of the construct at the root of a tree are the phrases of the items. -/
theorem Node.clause_items (n : Node) : n.clause.items = n.items.map phrase := by
  cases n
  simp only [clause, Clause.items, Clause.rule, phrase, items]
  exact phrases_itemsOf _ _

/-- The links of a chain are its first one and those of the chain behind it. -/
theorem Phrase.mem_memberLinks {q link : Phrase} (h : link ∈ q.memberLinks) :
    link = q ∨ (q.rule = .memberSpec ∨ q.rule = .accessSpec) ∧
      ∃ next, q.part? 1 = some next ∧ link ∈ next.memberLinks := by
  obtain ⟨node, parts, roles⟩ := q
  unfold memberLinks at h
  split at h
  next first next rest =>
    rcases List.mem_cons.mp h with hself | hrest
    · exact .inl hself
    · split at hrest
      next hrule => exact .inr ⟨hrule, next, rfl, hrest⟩
      next => cases hrest
  next => exact .inl (List.mem_singleton.mp h)

namespace StepLogic

open Check

variable (L : StepLogic) {n : Node} {σ τ : Nonterminal} {i : Nat}

/-- The phrase is sound as what a function layer is put around: given a function, it introduces
one. -/
def FunctionName (q : Phrase) : Prop :=
  L.Declarator q ∧ ∀ ty : Ty, ty.function?.isSome → (q.roles.declarator ty).Yields fun d =>
    d.name = none ∨ d.ty.function? = none → L.faults

/-- The role that the trees of a class play. -/
def Means : Nonterminal → Phrase → Prop
  | .program, q => ∀ r, q.part? 0 = some r → L.Declaration r
  | .declaration, q => L.Declaration q
  | .statement, q => L.Statement q
  | .functionBody, q => L.FunctionBlock q
  | .condition, q => L.Condition q
  | .expression, q => L.Expression q
  | .initializer, q => L.Initializer q
  | .specifier, q => L.Specifier q
  | .typeName, q => L.TypeName q
  | .newTypeName, q => L.Allocated q
  | .newDeclarator, q => L.NewDeclarator q
  | .declarator, q => L.Declarator q
  | .namedDeclarator, q => L.NamedDeclarator q
  | .functionDeclarator, q => L.FunctionDeclarator q
  | .functionName, q => L.FunctionName q
  | .pointerOperator, q => L.PointerOperator q
  | .parameter, q => L.Parameter q
  | .initDeclarator, q => L.InitDeclItem q
  | .classSpec, q => ∀ p, L.triple p q.clause.classSpec Ty.Known
  | .classHead, q => L.ClassHead q
  | .memberSpec, q => ∀ link ∈ q.memberLinks, L.MemberLink link
  | .memberDeclaration, q => L.MemberDeclaration q
  | .memberDeclarator, q => L.MemberDeclarator q
  | .ctorInit, q => L.CtorInit q
  | .memberInit, q => L.MemberInit q
  | .memberInitId, q => L.MemberInitId q
  | .name, q => L.Name q.node
  | .identifier, q => L.Leaf q.node
  | .assignOperator, q => L.AssignOperator q
  | .accessKeyword, q => L.AccessToken q
  | .classKey, q =>
      L.Leaf q.node ∧ ∀ t, q.node.token = some t → t.kind.isClassKey = false → L.faults

/-! ### Trees that fit -/

/-- What a slot of a layout takes. -/
def slot? : Option Layout → Nat → Option Slot
  | some (.slots slots), i => slots[i]?
  | _, _ => none

/-- Only layouts with slots have them. -/
theorem exists_of_slot? {l : Option Layout} {slot : Slot} (h : slot? l i = some slot) :
    ∃ slots : List Slot, l = some (.slots slots) ∧ slots[i]? = some slot := by
  unfold slot? at h
  split at h
  · exact ⟨_, rfl, h⟩
  · cases h

/-- The tree conforms to the class, unless trees that break the grammar are considered. It holds
no statements, unless these are considered. -/
structure Fits (σ : Nonterminal) (n : Node) : Prop where
  grammar : L.faults ∨ n.conforms σ = true
  inner : L.statements ∨ n.Inner σ

namespace Fits

variable {L}

/-- A production that does not build the class breaks the grammar. -/
theorem faults (hf : L.Fits σ n) (h : layout σ n.rule = none) : L.faults := by
  rcases hf.grammar with hfaults | hconforms
  · exact hfaults
  · simp [Node.conforms_none h] at hconforms

/-- A tree that may hold statements only fits if these are considered. -/
theorem statements (hf : L.Fits σ n) (h : σ.isInner = false ∨ layout σ n.rule = none) :
    L.statements := by
  rcases hf.inner with hstatements | hinner
  · exact hstatements
  · rcases h with houter | hnone
    · simp [hinner.isInner] at houter
    · simpa [Node.conforms_none hnone] using hinner.conforms

/-- A tree fits alike into classes that its production builds alike. -/
theorem congr (hf : L.Fits σ n) (h : layout σ n.rule = layout τ n.rule)
    (hτ : σ.isInner = true → τ.isInner = true) : L.Fits τ n where
  grammar := by
    rw [← Node.conforms_congr h]
    exact hf.grammar
  inner := hf.inner.imp_right fun hinner => hinner.congr h (hτ hinner.isInner)

/-- Declarators with a name fit as declarators. -/
theorem declarator (hf : L.Fits σ n) (hσ : σ.IsNamed) : L.Fits .declarator n where
  grammar := hf.grammar.imp_right (Node.conforms_declarator hσ)
  inner := hf.inner.imp_right fun hinner => hinner.declarator hσ

/-- A leaf has a token that is accepted. -/
theorem leaf (hf : L.Fits σ n) {accepts : Token → Bool}
    (h : layout σ n.rule = some (.leaf accepts)) :
    L.Leaf n ∧ ∀ t, n.token = some t → accepts t = false → L.faults := by
  rcases hf.grammar with hfaults | hconforms
  · exact ⟨fun _ => hfaults, fun _ _ _ => hfaults⟩
  · obtain ⟨t, htoken, haccepts⟩ := (Node.conforms_leaf h).mp hconforms
    refine ⟨fun hnone => ?_, fun t' ht' hrejects => ?_⟩
    · rw [htoken] at hnone
      cases hnone
    · rw [htoken] at ht'
      cases ht'
      rw [haccepts] at hrejects
      cases hrejects

/-- A literal holds a constant. -/
theorem constant (hf : L.Fits σ n) (h : layout σ n.rule = some .constant) :
    (∀ e, n.literalToken = .error e → L.faults) ∧
      ∀ t, n.literalToken = .ok t → t.constantTy? = none → L.faults := by
  rcases hf.grammar with hfaults | hconforms
  · exact ⟨fun _ _ => hfaults, fun _ _ _ => hfaults⟩
  · rw [Node.conforms_constant h] at hconforms
    unfold Node.holdsConstant at hconforms
    constructor
    · intro e he
      simp [he] at hconforms
    · intro t ht hnone
      simp [ht, hnone] at hconforms

/-- The items of a list fit if the list does, or if it breaks the grammar. -/
theorem items (hf : L.Fits σ n)
    (h : layout σ n.rule = some (.items τ) ∨ layout σ n.rule = none) :
    ∀ m ∈ n.items, L.Fits τ m := by
  intro m hm
  rcases h with hitems | hnone
  · refine ⟨hf.grammar.imp_right fun hconforms => ?_, hf.inner.imp_right fun hinner => ?_⟩
    · exact (Node.conforms_items hitems).mp hconforms m hm
    · exact hinner.items hitems hm
  · exact ⟨.inl (hf.faults hnone), .inl (hf.statements (.inr hnone))⟩

/-- Only an optional slot may be empty. -/
theorem missing (hf : L.Fits σ n) {slot : Slot} (hslot : slot? (layout σ n.rule) i = some slot)
    (hmandatory : slot.optional = false) : n.clause.part? i = none → L.faults := by
  intro hnone
  rw [n.clause_part?, Option.map_eq_none_iff] at hnone
  obtain ⟨slots, hlayout, hslot⟩ := exists_of_slot? hslot
  rcases hf.grammar with hfaults | hconforms
  · exact hfaults
  · have htakes := (Node.conforms_slots hlayout).mp hconforms i slot hslot
    rw [hnone] at htakes
    exact absurd (hmandatory.symm.trans htakes) (by decide)

end Fits

/-- All smaller trees are sound in the roles of the classes that they fit. -/
def Below (n : Node) : Prop :=
  ∀ m, sizeOf m < sizeOf n → ∀ τ, L.Fits τ m → L.Means τ m.phrase

namespace Below

variable {L} (ih : L.Below n)

include ih

/-! ### Slots -/

/-- The trees in a slot are sound. -/
theorem filled (hf : L.Fits σ n) {slot : Slot} (hslot : slot? (layout σ n.rule) i = some slot) :
    ∀ m, n.child? i = some m → ∀ item ∈ slot.items m, L.Means slot.takes item.phrase := by
  intro m hm item hitem
  have hlt : sizeOf item < sizeOf n :=
    Nat.lt_of_le_of_lt (Node.sizeOf_slotItems hitem) (Node.sizeOf_child hm)
  obtain ⟨slots, hlayout, hslot⟩ := exists_of_slot? hslot
  refine ih item hlt _
    ⟨hf.grammar.imp_right fun hconforms => ?_, hf.inner.imp_right fun hinner => ?_⟩
  · have htakes := (Node.conforms_slots hlayout).mp hconforms i slot hslot
    rw [hm] at htakes
    exact htakes item hitem
  · exact hinner.slot hlayout hslot hm hitem

/-- A slot that may be empty. -/
theorem opt {optional : Bool} (hf : L.Fits σ n) (τ : Nonterminal)
    (hslot : slot? (layout σ n.rule) i = some ⟨τ, false, optional⟩) :
    ∀ q, n.clause.part? i = some q → L.Means τ q := by
  intro q hq
  obtain ⟨m, hm, rfl⟩ := n.child_of_part? hq
  exact ih.filled hf hslot m hm m (List.mem_singleton.mpr rfl)

/-- A mandatory slot. -/
theorem one (hf : L.Fits σ n) (τ : Nonterminal)
    (hslot : slot? (layout σ n.rule) i = some (.one τ)) : L.Has n.clause i (L.Means τ) :=
  ⟨hf.missing hslot rfl, ih.opt hf τ hslot⟩

/-- A slot for a list that may be empty. -/
theorem optList {optional : Bool} (hf : L.Fits σ n) (τ : Nonterminal)
    (hslot : slot? (layout σ n.rule) i = some ⟨τ, true, optional⟩) :
    ∀ q, n.clause.part? i = some q → q.Each (L.Means τ) := by
  intro q hq r hr
  obtain ⟨m, hm, rfl⟩ := n.child_of_part? hq
  rw [Node.phrase_flatten, List.mem_map] at hr
  obtain ⟨item, hitem, rfl⟩ := hr
  exact ih.filled hf hslot m hm item hitem

/-- A mandatory slot for a list. -/
theorem list (hf : L.Fits σ n) (τ : Nonterminal)
    (hslot : slot? (layout σ n.rule) i = some (.list τ)) :
    L.Has n.clause i (Phrase.Each (L.Means τ)) :=
  ⟨hf.missing hslot rfl, ih.optList hf τ hslot⟩

/-- If all trees are considered, any part is sound in any role. -/
theorem any (hfaults : L.faults) (hstatements : L.statements) (τ : Nonterminal) :
    L.Has n.clause i (L.Means τ) := by
  refine ⟨fun _ => hfaults, fun q hq => ?_⟩
  obtain ⟨m, hm, rfl⟩ := n.child_of_part? hq
  exact ih m (Node.sizeOf_child hm) τ ⟨.inl hfaults, .inl hstatements⟩

/-- The items of a list production. -/
theorem items (hf : L.Fits σ n) (τ : Nonterminal)
    (h : layout σ n.rule = some (.items τ) ∨ layout σ n.rule = none) :
    ∀ q ∈ n.clause.items, L.Means τ q := by
  intro q hq
  rw [n.clause_items] at hq
  obtain ⟨m, hm, rfl⟩ := List.mem_map.mp hq
  exact ih m (Node.sizeOf_items hm) τ (hf.items h m hm)

/-- The items of a tree that may be a list, or stand for itself. -/
theorem each (hf : L.Fits σ n)
    (hlist : n.rule.isList = true →
      layout σ n.rule = some (.items τ) ∨ layout σ n.rule = none)
    (hself : n.rule.isList = false → L.Means τ n.phrase) : n.phrase.Each (L.Means τ) := by
  intro r hr
  rw [Node.phrase_flatten] at hr
  unfold Node.flatten at hr
  obtain ⟨m, hm, rfl⟩ := List.mem_map.mp hr
  split at hm
  next h => exact ih m (Node.sizeOf_items hm) τ (hf.items (hlist h) m hm)
  next h => exact List.mem_singleton.mp hm ▸ hself (by simpa using h)

end Below

/-! ### Tokens -/

/-- A leaf that stands for a class of tokens. -/
theorem Fits.token {L : StepLogic} (hf : L.Fits σ n) {accepts : Token → Bool}
    (hlayout : layout σ .token = some (.leaf accepts))
    (hσ : σ = .identifier ∨ σ = .assignOperator ∨ σ = .accessKeyword ∨ σ = .classKey) :
    L.Leaf n.phrase.node ∧ ∀ t, n.phrase.node.token = some t → accepts t = false → L.faults := by
  rw [n.phrase_node]
  by_cases hrule : n.rule = .token
  · exact hf.leaf (hrule ▸ hlayout)
  · have hfaults := hf.faults (layout_token hrule hσ)
    exact ⟨fun _ => hfaults, fun _ _ _ => hfaults⟩

/-- Only a leaf without a token has none to give. -/
theorem token_eq_none {e : Fault} (h : n.leafToken = .error e) : n.token = none := by
  unfold Node.leafToken at h
  split at h
  · cases h
  next hnone => exact hnone

/-- A name is spelled by a leaf, or by a nested-name specifier with one. -/
theorem Below.name {L : StepLogic} (ih : L.Below n) (hf : L.Fits .name n) :
    L.Name n.phrase.node := by
  rw [n.phrase_node]
  intro e he
  unfold Node.nameToken at he
  split at he
  next hrule => exact (hf.leaf (by rw [hrule]; rfl)).1 (token_eq_none he)
  next hrule =>
    have hleaf := ih.one (i := 0) hf .identifier (by rw [hrule]; rfl)
    unfold Node.child at he
    cases hchild : n.child? 0 with
    | none => exact hleaf.missing (by rw [n.clause_part?, hchild]; rfl)
    | some m =>
      rw [hchild] at he
      have hm := hleaf.part m.phrase (by rw [n.clause_part?, hchild]; rfl)
      change L.Leaf m.phrase.node at hm
      rw [m.phrase_node] at hm
      exact hm (token_eq_none he)
  next hleaf hnested =>
    refine hf.faults ?_
    cases hrule : n.rule <;> first | rfl | contradiction

end StepLogic

end CWithClasses
