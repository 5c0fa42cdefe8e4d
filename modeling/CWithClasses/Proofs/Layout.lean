import CWithClasses.Check.Class
import CWithClasses.Check.Expression
import Mathlib.Data.List.Forall2

/-!
# The layout of trees

Every production has a row of slots, and every slot takes trees of one syntactic class. The table
`layout` lists, for each class, the productions that build it, and what their slots take.
A tree conforms to a class if the table allows its production there, and its children conform
to the classes of their slots.

Slots beyond the ones that are listed are not looked at. A slot for a list takes nested nodes of
a list production, or a single item that stands for itself.
-/

namespace CWithClasses

/-- The syntactic classes. -/
inductive Nonterminal where
  | program | declaration | statement | functionBody | condition | expression | initializer
  | specifier | typeName | newTypeName | newDeclarator
  | declarator | namedDeclarator | functionDeclarator | functionName | pointerOperator
  | parameter | initDeclarator
  | classSpec | classHead | memberSpec | memberDeclaration | memberDeclarator
  | ctorInit | memberInit | memberInitId
  | name | identifier | assignOperator | accessKeyword | classKey
  deriving DecidableEq, Repr

/-- What a slot of a production takes. -/
structure Slot where
  takes : Nonterminal
  /-- Whether the slot takes a list of such trees. -/
  many : Bool
  optional : Bool

namespace Slot

/-- A mandatory slot. -/
def one (takes : Nonterminal) : Slot := ⟨takes, false, false⟩

/-- A slot that may be empty. -/
def opt (takes : Nonterminal) : Slot := ⟨takes, false, true⟩

/-- A mandatory slot for a list. -/
def list (takes : Nonterminal) : Slot := ⟨takes, true, false⟩

/-- A slot for a list that may be empty. -/
def optList (takes : Nonterminal) : Slot := ⟨takes, true, true⟩

/-- The trees in a slot. -/
def items (slot : Slot) (n : Node) : List Node := if slot.many then n.flatten else [n]

end Slot

/-- How a production builds a tree. -/
inductive Layout where
  /-- A leaf with a certain kind of token. -/
  | leaf (accepts : Token → Bool)
  /-- A literal, which holds its constant itself or in a leaf. -/
  | constant
  | slots (slots : List Slot)
  /-- A list, whose slots are all alike. -/
  | items (item : Nonterminal)

/-! ### The table -/

namespace Rule

open Slot

/-- The productions of expressions. -/
def expressionLayout : Rule → Option Layout
  | .literal => some .constant
  | .token => some (.leaf fun t => t.constantTy?.isSome || t.kind.isName)
  | .qualifiedId => some (.slots [one .name, one .identifier])
  | .index | .dotMemberPointer | .arrowMemberPointer | .comma =>
      some (.slots [one .expression, one .expression])
  | .call => some (.slots [one .expression, optList .expression])
  | .cast => some (.slots [list .specifier, optList .expression])
  | .dotField | .arrowField => some (.slots [one .expression, one .identifier])
  | .postIncrement | .postDecrement | .preIncrement | .preDecrement | .dereference | .addressOf
  | .unaryPlus | .unaryMinus | .logicalNot | .complement | .sizeofExpr | .deleteObject
  | .deleteArray => some (.slots [one .expression])
  | .sizeofType => some (.slots [one .typeName])
  | .newExpr => some (.slots [one .newTypeName, optList .expression])
  | .conditional => some (.slots [one .expression, one .expression, one .expression])
  | .assignment => some (.slots [one .expression, one .assignOperator, one .expression])
  | .exprList => some (.items .expression)
  | rule =>
      match rule.category with
      | .binary _ => some (.slots [one .expression, one .expression])
      | _ => none

/-- The productions of initializers. -/
def initializerLayout : Rule → Option Layout
  | .initializer | .constantInit => some (.slots [one .initializer])
  | .parenInit => some (.slots [optList .expression])
  | .braceInit => some (.slots [optList .initializer])
  | rule => rule.expressionLayout

/-- The productions of single specifiers. -/
def specifierLayout : Rule → Option Layout
  | .token => some (.leaf fun t =>
      t.kind.isName || t.kind == .typedef || t.kind.isModifier || t.kind.primitive?.isSome)
  | .classSpec => some (.slots [one .classHead, opt .memberSpec])
  | .elaborated => some (.slots [one .classKey, one .identifier])
  | .elaboratedNested => some (.slots [one .classKey, one .name, one .identifier])
  | .nestedTypeName => some (.slots [one .name, one .identifier])
  | .typeId => some (.slots [list .specifier, opt .declarator])
  | _ => none

/-- The productions of type names, which may be mere sequences of specifiers. -/
def typeNameLayout : Rule → Option Layout
  | .declSpecSeq | .typeSpecSeq => some (.items .specifier)
  | rule => rule.specifierLayout

/-- The productions of new-declarators. -/
def newDeclaratorLayout : Rule → Option Layout
  | .newPointer => some (.slots [one .pointerOperator, opt .newDeclarator])
  | .newBound => some (.slots [one .expression])
  | .newArray => some (.slots [one .newDeclarator, one .expression])
  | _ => none

/-- The productions of declarators with a name. -/
def namedDeclaratorLayout : Rule → Option Layout
  | .token => some (.leaf fun t => t.kind.isName)
  | .pointerDeclarator => some (.slots [one .pointerOperator, one .namedDeclarator])
  | .functionDeclarator | .constFunctionDeclarator =>
      some (.slots [one .namedDeclarator, optList .parameter])
  | .arrayDeclarator => some (.slots [one .namedDeclarator, opt .expression])
  | .constructorDeclarator => some (.slots [one .identifier, optList .parameter])
  | .destructorDeclarator => some (.slots [one .identifier])
  | .qualifiedDeclarator => some (.slots [one .name, one .namedDeclarator])
  | _ => none

/-- The productions of declarators of functions: the layer next to the name is that of a
function. -/
def functionDeclaratorLayout : Rule → Option Layout
  | .pointerDeclarator => some (.slots [one .pointerOperator, one .functionDeclarator])
  | .functionDeclarator | .constFunctionDeclarator =>
      some (.slots [one .functionName, optList .parameter])
  | .arrayDeclarator => some (.slots [one .functionDeclarator, opt .expression])
  | .constructorDeclarator => some (.slots [one .identifier, optList .parameter])
  | .destructorDeclarator => some (.slots [one .identifier])
  | .qualifiedDeclarator => some (.slots [one .name, one .functionDeclarator])
  | _ => none

/-- What a function layer may be put around: a name, or a declarator of a function again. -/
def functionNameLayout : Rule → Option Layout
  | .token => some (.leaf fun t => t.kind.isName)
  | .qualifiedDeclarator => some (.slots [one .name, one .functionName])
  | rule => rule.functionDeclaratorLayout

/-- The productions of declarators, with a name or without one. -/
def declaratorLayout : Rule → Option Layout
  | .token => some (.leaf fun t => t.kind.isName)
  | .pointerDeclarator => some (.slots [one .pointerOperator, one .declarator])
  | .functionDeclarator | .constFunctionDeclarator =>
      some (.slots [one .declarator, optList .parameter])
  | .arrayDeclarator => some (.slots [one .declarator, opt .expression])
  | .constructorDeclarator => some (.slots [one .identifier, optList .parameter])
  | .destructorDeclarator => some (.slots [one .identifier])
  | .qualifiedDeclarator => some (.slots [one .name, one .declarator])
  | .abstractPointer => some (.slots [one .pointerOperator, opt .declarator])
  | .abstractFunction => some (.slots [opt .declarator, optList .parameter])
  | .abstractArray => some (.slots [opt .declarator, opt .expression])
  | .abstractParens => some (.slots [opt .declarator])
  | _ => none

/-- The productions of parameters. -/
def parameterLayout : Rule → Option Layout
  | .namedParam => some (.slots [list .specifier, one .declarator])
  | .namedParamDefault => some (.slots [list .specifier, one .declarator, one .expression])
  | .abstractParam => some (.slots [list .specifier, opt .declarator])
  | .abstractParamDefault => some (.slots [list .specifier, opt .declarator, one .expression])
  | _ => none

/-- The productions of declarations. -/
def declarationLayout : Rule → Option Layout
  | .declSeq => some (.items .declaration)
  | .simpleDecl => some (.slots [list .specifier, optList .initDeclarator])
  | .functionDef =>
      some (.slots [optList .specifier, one .functionDeclarator, one .functionBody])
  | .constructorDef => some (.slots [one .functionDeclarator, one .ctorInit, one .functionBody])
  | _ => none

/-- The productions of statements, which may be declarations or expressions. -/
def statementLayout : Rule → Option Layout
  | .compound => some (.slots [optList .statement])
  | .statementSeqStart | .statementSeq => some (.items .statement)
  | .ifThen | .switchOn | .whileLoop => some (.slots [one .condition, one .statement])
  | .ifElse => some (.slots [one .condition, one .statement, one .statement])
  | .doWhileLoop => some (.slots [one .statement, one .condition])
  | .forLoop =>
      some (.slots [opt .statement, opt .condition, opt .expression, one .statement])
  | .caseLabel => some (.slots [one .expression, opt .statement])
  | .defaultLabel => some (.slots [opt .statement])
  | .breakJump | .continueJump => some (.slots [])
  | .returnJump => some (.slots [opt .expression])
  | .declSeq => declarationLayout .declSeq
  | .simpleDecl => declarationLayout .simpleDecl
  | rule => rule.expressionLayout

/-- The productions that declare members. -/
def memberDeclarationLayout : Rule → Option Layout
  | .functionDef => declarationLayout .functionDef
  | .constructorDef => declarationLayout .constructorDef
  | .simpleDecl => declarationLayout .simpleDecl
  | .memberDecl => some (.slots [optList .specifier, optList .memberDeclarator])
  | _ => none

/-- The productions of the declarators of members. -/
def memberDeclaratorLayout : Rule → Option Layout
  | .pureMember => some (.slots [one .namedDeclarator])
  | .initializedMember => some (.slots [one .namedDeclarator, one .initializer])
  | .bitField => some (.slots [opt .namedDeclarator, one .expression])
  | rule => rule.namedDeclaratorLayout

/-- The production of member initializers. -/
def memberInitLayout : Rule → Option Layout
  | .memInit => some (.slots [one .memberInitId, optList .expression])
  | _ => none

end Rule

/-- How a production builds trees of a class. Without a layout, it does not. -/
def layout : Nonterminal → Rule → Option Layout
  | .program, .program => some (.slots [.opt .declaration])
  | .declaration, rule => rule.declarationLayout
  | .statement, rule | .functionBody, rule => rule.statementLayout
  | .condition, .conditionDecl =>
      some (.slots [.list .specifier, .one .namedDeclarator, .one .initializer])
  | .condition, rule => rule.expressionLayout
  | .expression, rule => rule.expressionLayout
  | .initializer, rule => rule.initializerLayout
  | .specifier, rule => rule.specifierLayout
  | .typeName, rule => rule.typeNameLayout
  | .newTypeName, .newTypeId => some (.slots [.list .specifier, .opt .newDeclarator])
  | .newTypeName, rule => rule.typeNameLayout
  | .newDeclarator, rule => rule.newDeclaratorLayout
  | .declarator, rule => rule.declaratorLayout
  | .namedDeclarator, rule => rule.namedDeclaratorLayout
  | .functionDeclarator, rule => rule.functionDeclaratorLayout
  | .functionName, rule => rule.functionNameLayout
  | .pointerOperator, .token =>
      some (.leaf fun t => t.kind == .star || t.kind == .ampersand)
  | .pointerOperator, .qualifiedPointer | .pointerOperator, .memberPointer => some (.slots [])
  | .parameter, rule => rule.parameterLayout
  | .initDeclarator, .initDecl => some (.slots [.one .namedDeclarator, .opt .initializer])
  | .initDeclarator, rule => rule.namedDeclaratorLayout
  | .classSpec, .classSpec => some (.slots [.one .classHead, .opt .memberSpec])
  | .classHead, .classHead => some (.slots [.one .classKey, .one .identifier])
  | .classHead, .anonymousHead => some (.slots [.one .classKey])
  | .memberSpec, .memberSpec => some (.slots [.one .memberDeclaration, .opt .memberSpec])
  | .memberSpec, .accessSpec => some (.slots [.one .accessKeyword, .opt .memberSpec])
  | .memberSpec, rule | .memberDeclaration, rule => rule.memberDeclarationLayout
  | .memberDeclarator, rule => rule.memberDeclaratorLayout
  | .ctorInit, .ctorInit => some (.slots [.list .memberInit])
  | .ctorInit, .memInitList => some (.items .memberInit)
  | .ctorInit, rule | .memberInit, rule => rule.memberInitLayout
  | .memberInitId, .memberInitId => some (.slots [.one .identifier])
  | .memberInitId, .baseInitId => some (.slots [.opt .name, .one .identifier])
  | .name, .nestedName => some (.slots [.one .identifier])
  | .name, .token | .identifier, .token => some (.leaf fun _ => true)
  | .assignOperator, .token => some (.leaf fun t => t.kind.assignKind?.isSome)
  | .accessKeyword, .token => some (.leaf fun t => t.kind.access?.isSome)
  | .classKey, .token => some (.leaf fun t => t.kind.isClassKey)
  | _, _ => none

/-- A type name that is no sequence is a specifier. -/
theorem layout_typeName {rule : Rule} (h : rule.isList = false) :
    layout .typeName rule = layout .specifier rule := by
  cases rule <;> first | rfl | contradiction

/-- A type name that is a sequence is one of specifiers. -/
theorem layout_typeName_list {rule : Rule} (h : rule.isList = true) :
    layout .typeName rule = some (.items .specifier) ∨ layout .typeName rule = none := by
  cases rule <;> first | exact .inl rfl | exact .inr rfl | contradiction

/-- What is allocated without a declarator of its own is spelled by a type name. -/
theorem layout_newTypeName {rule : Rule} (h : rule ≠ .newTypeId) :
    layout .newTypeName rule = layout .typeName rule := by
  cases rule <;> first | rfl | contradiction

/-- An item of a declaration without an initializer is a declarator. -/
theorem layout_initDeclarator {rule : Rule} (h : rule ≠ .initDecl) :
    layout .initDeclarator rule = layout .namedDeclarator rule := by
  cases rule <;> first | rfl | contradiction

/-- A condition that declares nothing is an expression. -/
theorem layout_condition {rule : Rule} (h : rule ≠ .conditionDecl) :
    layout .condition rule = layout .expression rule := by
  cases rule <;> first | rfl | contradiction

/-- Classes of single tokens consist of leaves. -/
theorem layout_token {σ : Nonterminal} {rule : Rule} (h : rule ≠ .token)
    (hσ : σ = .identifier ∨ σ = .assignOperator ∨ σ = .accessKeyword ∨ σ = .classKey) :
    layout σ rule = none := by
  rcases hσ with rfl | rfl | rfl | rfl <;> cases rule <;> first | rfl | contradiction

/-- Only one production builds member initializers. -/
theorem layout_memberInit {rule : Rule} (h : rule ≠ .memInit) : layout .memberInit rule = none := by
  cases rule <;> first | rfl | contradiction

/-- Member initializers that are no list are a single one. -/
theorem layout_ctorInit {rule : Rule} (h : rule.isList = false) (hctor : rule ≠ .ctorInit) :
    layout .ctorInit rule = layout .memberInit rule := by
  cases rule <;> first | rfl | contradiction

/-- A list in the place of member initializers is one of these. -/
theorem layout_ctorInit_list {rule : Rule} (h : rule.isList = true) :
    layout .ctorInit rule = some (.items .memberInit) ∨ layout .ctorInit rule = none := by
  cases rule <;> first | exact .inl rfl | exact .inr rfl | contradiction

/-! ### Conforming trees -/

namespace Node

/-- Whether a literal holds a constant. -/
def holdsConstant (n : Node) : Bool :=
  match n.literalToken with
  | .ok t => t.constantTy?.isSome
  | .error _ => false

mutual

/-- Whether a tree belongs to a class. -/
def conforms (σ : Nonterminal) : Node → Bool
  | ⟨rule, children, token⟩ =>
      match layout σ rule with
      | some (.leaf accepts) => token.any accepts
      | some .constant => holdsConstant ⟨rule, children, token⟩
      | some (.slots slots) => fill slots children
      | some (.items item) => continueList rule item children
      | none => false

/-- Whether a row of children fits into a row of slots. -/
def fill : List Slot → List (Option Node) → Bool
  | [], _ => true
  | slots, [] => slots.all (·.optional)
  | slot :: slots, none :: rest => slot.optional && fill slots rest
  | slot :: slots, some ⟨rule, children, token⟩ :: rest =>
      (if slot.many && rule.isList then continueList rule slot.takes children
        else conforms slot.takes ⟨rule, children, token⟩) && fill slots rest

/-- Whether the items below a node of a list production all belong to a class. -/
def continueList (list : Rule) (item : Nonterminal) : List (Option Node) → Bool
  | [] => true
  | none :: rest => continueList list item rest
  | some ⟨rule, children, token⟩ :: rest =>
      (if list.continues rule then continueList rule item children
        else conforms item ⟨rule, children, token⟩) && continueList list item rest

end

end Node

/-- Whether a slot takes what is in it. -/
def Slot.Takes (slot : Slot) : Option Node → Prop
  | none => slot.optional = true
  | some n => ∀ item ∈ slot.items n, item.conforms slot.takes = true

namespace Node

variable {σ τ : Nonterminal} {n : Node}

/-- A list conforms if its items do. -/
theorem continueList_iff (item : Nonterminal) : ∀ (list : Rule) (children : List (Option Node)),
    continueList list item children = true ↔
      ∀ m ∈ itemsOf list children, m.conforms item = true
  | _, [] => by simp [continueList, itemsOf]
  | list, none :: rest => by simp [continueList, itemsOf, continueList_iff item list rest]
  | list, some ⟨rule, children, token⟩ :: rest => by
      have hrest := continueList_iff item list rest
      have hinner := continueList_iff item rule children
      simp only [continueList, itemsOf, items, Bool.and_eq_true, hrest, List.forall_mem_append]
      refine and_congr_left fun _ => ?_
      split
      · exact hinner
      · simp

/-- Every slot of a row has to take what is in it. -/
theorem fill_cons (slot : Slot) (slots : List Slot) (children : List (Option Node)) :
    fill (slot :: slots) children = true ↔
      slot.Takes children.head?.join ∧ fill slots children.tail = true := by
  have hempty : ∀ slots, fill slots [] = slots.all (·.optional) := by
    rintro (_ | _) <;> rfl
  match children with
  | [] => simp [hempty, Slot.Takes]
  | none :: rest => simp [fill, Slot.Takes]
  | some ⟨rule, below, token⟩ :: rest =>
    simp only [fill, Bool.and_eq_true, List.head?_cons, Option.join_some, List.tail_cons,
      Slot.Takes, Slot.items, flatten]
    refine and_congr_left fun _ => ?_
    cases slot.many <;> cases rule.isList <;> simp [continueList_iff, items]

/-- What the slots of a row take, by their numbers. -/
theorem fill_iff {slots : List Slot} {children : List (Option Node)} :
    fill slots children = true ↔
      ∀ (i : Nat) (slot : Slot), slots[i]? = some slot → slot.Takes children[i]?.join := by
  induction slots generalizing children with
  | nil => simp [fill]
  | cons slot slots ih =>
    rw [fill_cons, ih]
    constructor
    · rintro ⟨hhead, htail⟩ i slot' hslot
      cases i with
      | zero =>
        cases hslot
        simpa [List.head?_eq_getElem?] using hhead
      | succ i => simpa using htail i slot' hslot
    · intro h
      refine ⟨by simpa [List.head?_eq_getElem?] using h 0 slot rfl, fun i slot' hslot => ?_⟩
      simpa using h (i + 1) slot' hslot

/-- The layout of its production decides whether a tree belongs to a class. -/
theorem conforms_eq (σ : Nonterminal) (n : Node) : n.conforms σ =
    match layout σ n.rule with
    | some (.leaf accepts) => n.token.any accepts
    | some .constant => n.holdsConstant
    | some (.slots slots) => fill slots n.children
    | some (.items item) => continueList n.rule item n.children
    | none => false := by
  cases n
  rfl

/-- A tree whose production has slots conforms if these take its children. -/
theorem conforms_slots {slots : List Slot} (h : layout σ n.rule = some (.slots slots)) :
    n.conforms σ = true ↔
      ∀ (i : Nat) (slot : Slot), slots[i]? = some slot → slot.Takes (n.child? i) := by
  rw [conforms_eq, h]
  exact fill_iff

/-- A list conforms if its items do. -/
theorem conforms_items (h : layout σ n.rule = some (.items τ)) :
    n.conforms σ = true ↔ ∀ m ∈ n.items, m.conforms τ = true := by
  rw [conforms_eq, h]
  cases n
  exact continueList_iff _ _ _

/-- A leaf conforms if its token is accepted. -/
theorem conforms_leaf {accepts : Token → Bool} (h : layout σ n.rule = some (.leaf accepts)) :
    n.conforms σ = true ↔ ∃ t, n.token = some t ∧ accepts t = true := by
  rw [conforms_eq, h]
  exact Option.any_eq_true _ _

/-- A literal conforms if it holds a constant. -/
theorem conforms_constant (h : layout σ n.rule = some .constant) :
    n.conforms σ = n.holdsConstant := by
  rw [conforms_eq, h]

/-- A tree conforms to no class that its production does not build. -/
theorem conforms_none (h : layout σ n.rule = none) : n.conforms σ = false := by
  rw [conforms_eq, h]

/-- A tree conforms alike to classes that its production builds alike. -/
theorem conforms_congr (h : layout σ n.rule = layout τ n.rule) : n.conforms σ = n.conforms τ := by
  rw [conforms_eq, conforms_eq, h]

end Node

/-! ### Sizes of parts -/

namespace Node

variable {m n : Node}

/-- A child is smaller than its node. -/
theorem sizeOf_child {i : Nat} (h : n.child? i = some m) : sizeOf m < sizeOf n := by
  obtain ⟨rule, children, token⟩ := n
  have hmem : some m ∈ children := by
    unfold child? at h
    rw [Option.join_eq_some_iff] at h
    exact List.mem_of_getElem? h
  have hlt := List.sizeOf_lt_of_mem hmem
  simp only [Option.some.sizeOf_spec] at hlt
  simp only [mk.sizeOf_spec]
  omega

/-- The items in a row of slots are smaller than the row. -/
theorem sizeOf_itemsOf : ∀ {list : Rule} {children : List (Option Node)},
    m ∈ itemsOf list children → sizeOf m < sizeOf children
  | _, [], h => by simp [itemsOf] at h
  | list, none :: rest, h => by
      have hrest : m ∈ itemsOf list rest := by simpa [itemsOf] using h
      have hlt := sizeOf_itemsOf hrest
      simp only [List.cons.sizeOf_spec]
      omega
  | list, some ⟨rule, children, token⟩ :: rest, h => by
      simp only [List.cons.sizeOf_spec, Option.some.sizeOf_spec, mk.sizeOf_spec]
      simp only [itemsOf, List.mem_append] at h
      rcases h with h | h
      · split at h
        · have hlt := sizeOf_itemsOf h
          omega
        · rw [List.mem_singleton.mp h, mk.sizeOf_spec]
          omega
      · have hlt := sizeOf_itemsOf h
        omega

/-- The items of a list are smaller than the list. -/
theorem sizeOf_items (h : m ∈ n.items) : sizeOf m < sizeOf n := by
  obtain ⟨rule, children, token⟩ := n
  have hlt := sizeOf_itemsOf h
  simp only [mk.sizeOf_spec]
  omega

/-- The trees in a slot are no larger than what is in the slot. -/
theorem sizeOf_slotItems {slot : Slot} (h : m ∈ slot.items n) : sizeOf m ≤ sizeOf n := by
  unfold Slot.items flatten at h
  split at h
  · split at h
    · exact Nat.le_of_lt (sizeOf_items h)
    · exact Nat.le_of_eq (List.mem_singleton.mp h ▸ rfl)
  · exact Nat.le_of_eq (List.mem_singleton.mp h ▸ rfl)

end Node

/-! ### Wider classes -/

/-- A slot that takes less than another one, up to a relation between classes. -/
def Slot.Within (R : Nonterminal → Nonterminal → Prop) (a b : Slot) : Prop :=
  R a.takes b.takes ∧ a.many = b.many ∧ (a.optional = true → b.optional = true)

/-- A layout that allows less than another one, up to a relation between classes. -/
inductive Layout.Within (R : Nonterminal → Nonterminal → Prop) :
    Option Layout → Option Layout → Prop
  | none (b : Option Layout) : Within R none b
  | same (a : Option Layout) : Within R a a
  | slots {a b : List Slot} (h : List.Forall₂ (Slot.Within R) a b) :
      Within R (some (.slots a)) (some (.slots b))

/-- A slot also takes what a slot within it takes, provided that the trees conform as related. -/
theorem Slot.Takes.of_within {R : Nonterminal → Nonterminal → Prop} {a b : Slot}
    {child : Option Node} (h : a.Takes child) (hab : a.Within R b)
    (hitems : ∀ m, child = some m → ∀ item ∈ a.items m, item.conforms a.takes = true →
      item.conforms b.takes = true) : b.Takes child := by
  obtain ⟨_, hmany, hoptional⟩ := hab
  cases child with
  | none => exact hoptional h
  | some m =>
    intro item hitem
    have hitem' : item ∈ a.items m := by
      unfold Slot.items at hitem ⊢
      rwa [hmany]
    exact hitems m rfl item hitem' (h item hitem')

/-- A class is within another one if its layouts are, slot by slot. -/
theorem Node.conforms_of_within {R : Nonterminal → Nonterminal → Prop}
    (hR : ∀ σ τ, R σ τ → ∀ rule, Layout.Within R (layout σ rule) (layout τ rule)) {n : Node}
    {σ τ : Nonterminal} (hστ : R σ τ) (h : n.conforms σ = true) : n.conforms τ = true := by
  have hwithin := hR σ τ hστ n.rule
  generalize hσ : layout σ n.rule = a at hwithin
  generalize hτ : layout τ n.rule = b at hwithin
  cases hwithin with
  | none => simp [conforms_none hσ] at h
  | same => rwa [← conforms_congr (hσ.trans hτ.symm)]
  | @slots slots slots' hslots =>
    rw [conforms_slots hσ] at h
    rw [conforms_slots hτ]
    intro i slot' hslot'
    obtain ⟨hi', rfl⟩ := List.getElem?_eq_some_iff.mp hslot'
    have hi : i < slots.length := hslots.length_eq ▸ hi'
    have hslot : Slot.Within R slots[i] slots'[i] := hslots.get hi hi'
    refine (h i slots[i] (List.getElem?_eq_getElem hi)).of_within hslot ?_
    intro m hchild item hitem
    have hlt : sizeOf item < sizeOf n :=
      Nat.lt_of_le_of_lt (sizeOf_slotItems hitem) (sizeOf_child hchild)
    exact conforms_of_within hR hslot.1
termination_by sizeOf n

/-- The classes of declarators that know their name, or that it is a function's. -/
def Nonterminal.IsNamed (σ : Nonterminal) : Prop :=
  σ = .namedDeclarator ∨ σ = .functionDeclarator ∨ σ = .functionName

/-- Declarators with a name are declarators. -/
theorem Node.conforms_declarator {n : Node} {σ : Nonterminal} (hσ : σ.IsNamed)
    (h : n.conforms σ = true) : n.conforms .declarator = true := by
  let R : Nonterminal → Nonterminal → Prop := fun a b => a = b ∨ a.IsNamed ∧ b = .declarator
  refine conforms_of_within (R := R) ?_ (.inr ⟨hσ, rfl⟩) h
  rintro a b (rfl | ⟨ha, rfl⟩) rule
  · exact .same _
  · have hsame : ∀ slot, Slot.Within R slot slot := fun slot => ⟨.inl rfl, rfl, id⟩
    have hinner : ∀ a, Nonterminal.IsNamed a → Slot.Within R (.one a) (.one .declarator) :=
      fun a ha => ⟨.inr ⟨ha, rfl⟩, rfl, id⟩
    have hnamed := hinner _ (.inl rfl)
    have hfunction := hinner _ (.inr (.inl rfl))
    have hname := hinner _ (.inr (.inr rfl))
    -- In each production, at most the slot of the inner declarator differs.
    rcases ha with rfl | rfl | rfl <;> cases rule <;>
      first
      | exact .none _
      | exact .same _
      | exact .slots (.cons (hsame _) (.cons ‹_› .nil))
      | exact .slots (.cons ‹_› (.cons (hsame _) .nil))

/-- The class that a tree is checked as if it stands alone. -/
def Rule.start (rule : Rule) : Nonterminal :=
  match rule.category with
  | .program => .program
  | .declaration | .function => .declaration
  | .statement => .statement
  | .classPart => if rule = .classSpec then .classSpec else .expression
  | _ => .expression

end CWithClasses
