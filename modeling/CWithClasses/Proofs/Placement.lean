import CWithClasses.Proofs.Flattening
import CWithClasses.Proofs.Layout

/-!
# Where class specifications stand

A class specification may bring functions with it, and so statements, wherever it stands. It
belongs among the specifiers of a declaration. Trees of most classes hold no statements then: the
parts of an expression, a declarator or a type name are of such inner classes again, unless they
specify a class.
-/

namespace CWithClasses

/-- The productions that start with specifiers, among which a class may be specified. -/
def Rule.declares : Rule → Bool
  | .simpleDecl | .memberDecl | .functionDef => true
  | _ => false

namespace Node

mutual

/-- Whether class specifications stand only among the specifiers of declarations, given whether
the tree itself stands there. -/
def classesPlaced (specifier : Bool) : Node → Bool
  | ⟨rule, children, _⟩ =>
      (specifier || rule != .classSpec) && classesPlacedIn rule specifier 0 children

/-- Whether class specifications are placed well in the slots of a production, from slot `i` on.
The specifiers of a declaration are in its first slot, in a list or alone. -/
def classesPlacedIn (rule : Rule) (specifier : Bool) : Nat → List (Option Node) → Bool
  | _, [] => true
  | i, none :: rest => classesPlacedIn rule specifier (i + 1) rest
  | i, some child :: rest =>
      child.classesPlaced (rule.declares && i == 0 || rule.isList && specifier) &&
        classesPlacedIn rule specifier (i + 1) rest

end

variable {m n : Node} {specifier : Bool}

/-- Class specifications are placed well in each slot of a row. -/
theorem classesPlaced_getElem {rule : Rule} {children : List (Option Node)} {i k : Nat}
    (h : classesPlacedIn rule specifier k children = true) (hm : children[i]?.join = some m) :
    m.classesPlaced (rule.declares && k + i == 0 || rule.isList && specifier) = true := by
  induction children generalizing i k with
  | nil => simp at hm
  | cons child rest ih =>
    have hrest : classesPlacedIn rule specifier (k + 1) rest = true := by
      cases child <;> simp_all [classesPlacedIn]
    cases i with
    | zero =>
      have hchild : child = some m := by simpa using hm
      rw [hchild, classesPlacedIn, Bool.and_eq_true] at h
      exact h.1
    | succ i =>
      have hslot := ih hrest (by simpa using hm)
      rwa [Nat.add_assoc, Nat.add_comm 1 i] at hslot

/-- Class specifications are placed well in each child. -/
theorem classesPlaced_child {i : Nat} (h : n.classesPlaced specifier = true)
    (hm : n.child? i = some m) :
    m.classesPlaced (n.rule.declares && i == 0 || n.rule.isList && specifier) = true := by
  obtain ⟨rule, children, token⟩ := n
  rw [classesPlaced, Bool.and_eq_true] at h
  simpa using classesPlaced_getElem h.2 hm

/-- Only a specifier specifies a class. -/
theorem rule_ne_classSpec (h : n.classesPlaced false = true) : n.rule ≠ .classSpec := by
  obtain ⟨rule, children, token⟩ := n
  rw [classesPlaced, Bool.and_eq_true] at h
  simpa using h.1

/-- A specifier that specifies no class might stand elsewhere as well. -/
theorem classesPlaced_of_specifier (h : n.classesPlaced true = true) (hrule : n.rule ≠ .classSpec)
    (hlist : n.rule.isList = false) : n.classesPlaced false = true := by
  obtain ⟨rule, children, token⟩ := n
  have hslots : ∀ (children : List (Option Node)) (i : Nat),
      classesPlacedIn rule true i children = classesPlacedIn rule false i children := by
    intro children
    induction children with
    | nil => simp [classesPlacedIn]
    | cons child rest ih =>
      intro i
      cases child <;> simp_all [classesPlacedIn]
  simp_all [classesPlaced]

end Node

/-! ### Lists -/

/-- A list is no declaration. -/
theorem Rule.declares_of_isList {rule : Rule} (h : rule.isList = true) :
    rule.declares = false := by
  unfold Rule.isList at h
  split at h
  case h_12 => cases h
  all_goals rfl

namespace Node

variable {m n : Node} {specifier : Bool}

/-- The items in a row of slots stand where the list stands. -/
theorem classesPlaced_itemsOf : ∀ {list : Rule} {children : List (Option Node)} {k : Nat},
    list.isList = true → classesPlacedIn list specifier k children = true →
      m ∈ itemsOf list children → m.classesPlaced specifier = true
  | _, [], _, _, _, hm => by simp [itemsOf] at hm
  | list, none :: rest, k, hlist, h, hm => by
      rw [classesPlacedIn] at h
      rw [itemsOf] at hm
      exact classesPlaced_itemsOf hlist h hm
  | list, some ⟨rule, children, token⟩ :: rest, k, hlist, h, hm => by
      rw [classesPlacedIn, Rule.declares_of_isList hlist, hlist, Bool.and_eq_true] at h
      rw [itemsOf, List.mem_append] at hm
      have hchild : (⟨rule, children, token⟩ : Node).classesPlaced specifier = true := by
        simpa using h.1
      rcases hm with hm | hm
      · split at hm
        next hcontinues =>
          rw [classesPlaced, Bool.and_eq_true] at hchild
          exact classesPlaced_itemsOf (Rule.isList_of_continues hlist hcontinues) hchild.2 hm
        next => rwa [List.mem_singleton.mp hm]
      · exact classesPlaced_itemsOf hlist h.2 hm

/-- The items of a list stand where the list stands. -/
theorem classesPlaced_items (hlist : n.rule.isList = true)
    (h : n.classesPlaced specifier = true) (hm : m ∈ n.items) :
    m.classesPlaced specifier = true := by
  obtain ⟨rule, children, token⟩ := n
  rw [classesPlaced, Bool.and_eq_true] at h
  exact classesPlaced_itemsOf hlist h.2 hm

/-- The trees in a slot stand where the slot is. -/
theorem classesPlaced_slotItems {slot : Slot} (h : n.classesPlaced specifier = true)
    (hm : m ∈ slot.items n) : m.classesPlaced specifier = true := by
  unfold Slot.items flatten at hm
  split at hm
  · split at hm
    next hlist => exact classesPlaced_items hlist h hm
    next => rwa [List.mem_singleton.mp hm]
  · rwa [List.mem_singleton.mp hm]

end Node

/-! ### Classes without statements -/

/-- The classes whose trees hold statements only inside of class specifications. -/
def Nonterminal.isInner : Nonterminal → Bool
  | .program | .declaration | .statement | .functionBody | .classSpec | .memberSpec
  | .memberDeclaration => false
  | _ => true

/-- Whether a production has parts of such classes only. -/
def Layout.isInner (rule : Rule) : Layout → Bool
  | .leaf _ | .constant => !rule.declares
  | .slots row => !rule.declares && row.all fun slot => slot.takes.isInner
  | .items item => rule.isList && item.isInner

/-- The parts of a tree of an inner class are of inner classes, unless it specifies a class. -/
theorem layout_isInner {σ : Nonterminal} {rule : Rule} (hσ : σ.isInner = true)
    (hrule : rule ≠ .classSpec) : ∀ l ∈ layout σ rule, l.isInner rule = true := by
  have hlayout : (layout σ rule).all (Layout.isInner rule) = true := by
    cases σ <;> first | contradiction | skip
    all_goals cases rule <;> first | rfl | contradiction
  intro l hl
  rw [Option.mem_def] at hl
  simpa [hl] using hlayout

namespace Node

/-- A tree that conforms to an inner class and holds no class specification out of place: so it
holds no statements either. -/
structure Inner (σ : Nonterminal) (n : Node) : Prop where
  isInner : σ.isInner = true
  conforms : n.conforms σ = true
  placed : n.classesPlaced false = true

namespace Inner

variable {σ τ : Nonterminal} {m n : Node}

/-- The layout of an inner tree has inner parts only. -/
theorem layout {l : Layout} (hn : n.Inner σ) (h : CWithClasses.layout σ n.rule = some l) :
    l.isInner n.rule = true :=
  layout_isInner hn.isInner (rule_ne_classSpec hn.placed) l h

/-- What is in the slots of an inner tree is inner. -/
theorem slot {row : List Slot} {slot : Slot} {item : Node} {i : Nat} (hn : n.Inner σ)
    (h : CWithClasses.layout σ n.rule = some (.slots row)) (hslot : row[i]? = some slot)
    (hm : n.child? i = some m) (hitem : item ∈ slot.items m) : item.Inner slot.takes := by
  have hparts := hn.layout h
  simp only [Layout.isInner, Bool.and_eq_true, Bool.not_eq_true', List.all_eq_true] at hparts
  have htakes := (conforms_slots h).mp hn.conforms i slot hslot
  rw [hm] at htakes
  refine ⟨hparts.2 slot (List.mem_of_getElem? hslot), htakes item hitem, ?_⟩
  have hplaced := classesPlaced_child hn.placed hm
  rw [hparts.1] at hplaced
  exact classesPlaced_slotItems (by simpa using hplaced) hitem

/-- The items of an inner list are inner. -/
theorem items (hn : n.Inner σ) (h : CWithClasses.layout σ n.rule = some (.items τ))
    (hm : m ∈ n.items) : m.Inner τ := by
  have hparts := hn.layout h
  simp only [Layout.isInner, Bool.and_eq_true] at hparts
  exact ⟨hparts.2, (conforms_items h).mp hn.conforms m hm,
    classesPlaced_items hparts.1 hn.placed hm⟩

/-- A tree is inner alike in inner classes that its production builds alike. -/
theorem congr (hn : n.Inner σ) (h : CWithClasses.layout σ n.rule = CWithClasses.layout τ n.rule)
    (hτ : τ.isInner = true) : n.Inner τ :=
  ⟨hτ, conforms_congr h ▸ hn.conforms, hn.placed⟩

/-- Declarators with a name are declarators. -/
theorem declarator (hn : n.Inner σ) (hσ : σ.IsNamed) : n.Inner .declarator :=
  ⟨rfl, conforms_declarator hσ hn.conforms, hn.placed⟩

end Inner

end Node

end CWithClasses
