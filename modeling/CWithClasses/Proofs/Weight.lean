import CWithClasses.Proofs.Logic.Statement
import CWithClasses.Proofs.Placement
import Mathlib.Algebra.BigOperators.Group.List.Basic

/-!
# Weights of trees

Statements stand in other statements, in the bodies of functions, and in the functions of classes
that are specified along the way. The table `Rule.place?` lists the slots through which they are
reached, and what each slot adds to what is around them.

Given weights for single trees, and for what a slot does to the weight of what is in it, every tree
has a weight: the sum of what is reached from it. Different weights count different things.
-/

namespace CWithClasses

/-- How the trees in a slot relate to what is around their parent. -/
inductive Place where
  /-- Nothing is added. -/
  | same
  | loop
  | switch
  /-- The body of a function. -/
  | function
  /-- The members of a class. -/
  | members
  /-- One of these members, or the others behind it. -/
  | member
  deriving DecidableEq, Repr

namespace Rule

/-- The slots through which statements are reached. -/
def place? : Rule → Nat → Option Place
  | .whileLoop, 1 | .doWhileLoop, 0 | .forLoop, 3 => some .loop
  | .switchOn, 1 => some .switch
  | .functionDef, 2 | .constructorDef, 2 => some .function
  | .classSpec, 1 => some .members
  | .memberSpec, 0 | .memberSpec, 1 | .accessSpec, 1 => some .member
  | .compound, 0 | .ifThen, 1 | .ifElse, 1 | .ifElse, 2 | .forLoop, 0 | .caseLabel, 1
  | .defaultLabel, 0 | .program, 0 | .simpleDecl, 0 | .memberDecl, 0 | .functionDef, 0 =>
      some .same
  | rule, _ => if rule.isList then some .same else none

/-- Jumps, and the labels of a switch. -/
def jumps : Rule → Bool
  | .breakJump | .continueJump | .returnJump | .caseLabel | .defaultLabel => true
  | _ => false

/-- Definitions of functions. -/
def defines : Rule → Bool
  | .functionDef | .constructorDef => true
  | _ => false

/-- The productions that do something to the weight of their parts. -/
def weighs (rule : Rule) : Bool := rule.opensScope || rule.defines || rule.jumps

/-- Lists weigh what their items weigh. -/
theorem weighs_of_isList {rule : Rule} (h : rule.isList = true) : rule.weighs = false := by
  cases rule <;> first | rfl | contradiction

/-- All slots of a list hold its items. -/
theorem place?_of_isList {rule : Rule} (h : rule.isList = true) (i : Nat) :
    rule.place? i = some .same := by
  cases rule <;> first | contradiction | rfl

/-- Other productions have four slots at most. -/
theorem place?_of_le {rule : Rule} (h : rule.isList = false) {i : Nat} (hi : 4 ≤ i) :
    rule.place? i = none := by
  obtain ⟨k, rfl⟩ := Nat.exists_eq_add_of_le' hi
  cases rule <;> first | contradiction | rfl

/-- The slots of a production that is no list through which statements are reached. -/
def places (rule : Rule) : List (Nat × Place) :=
  (List.range 4).filterMap fun i => (rule.place? i).map fun place => (i, place)

/-- The productions that lead to no statements and have no weight of their own. -/
def isPlain (rule : Rule) : Bool := !rule.isList && !rule.weighs && rule.places.isEmpty

end Rule

/-- Weights of single trees, and what becomes of the weight of what is in them. -/
structure Weights (W : Type) [AddCommMonoid W] where
  /-- The weight of a jump or a label. -/
  jump : Node → W
  /-- The weight of the definition of a function, given what its parts weigh. -/
  define : Node → W → W
  /-- The weight of what stands in a scope of its own. -/
  block : W → W
  loop : W → W
  switch : W → W
  function : W → W
  members : W → W

namespace Weights

variable {W : Type} [AddCommMonoid W] (A : Weights W)

/-- The weight of a tree with parts of the given weight. -/
def total (n : Node) (parts : W) : W :=
  if n.rule.opensScope then A.block parts
  else if n.rule.defines then A.define n parts
  else if n.rule.jumps then A.jump n + parts
  else parts

/-- The weight that a tree with parts of the given weight has in a slot. The outermost block of a
function shares the scope of its parameters. A function that is a member has no weight of its
own. -/
def slot (place : Option Place) (n : Node) (parts : W) : W :=
  match place with
  | none => 0
  | some .same => A.total n parts
  | some .loop => A.loop (A.total n parts)
  | some .switch => A.switch (A.total n parts)
  | some .function => A.function (if n.rule = .compound then parts else A.total n parts)
  | some .members => A.members parts
  | some .member => parts

mutual

/-- The weight of the parts of a tree. -/
def parts : Node → W
  | ⟨rule, children, _⟩ => partsFrom rule 0 children

/-- The weight of the slots of a production, from slot `i` on. -/
def partsFrom (rule : Rule) : Nat → List (Option Node) → W
  | _, [] => 0
  | i, none :: rest => partsFrom rule (i + 1) rest
  | i, some child :: rest =>
      A.slot (rule.place? i) child (parts child) + partsFrom rule (i + 1) rest

end

/-- The weight of a tree. -/
def weight (n : Node) : W := A.total n (A.parts n)

/-- The weight of a tree as the body of a function. -/
def bodyWeight (n : Node) : W := if n.rule = .compound then A.parts n else A.weight n

/-- The weight of what is in a slot. -/
def inSlot (place : Option Place) : Option Node → W
  | none => 0
  | some n => A.slot place n (A.parts n)

/-! ### Slots -/

/-- The parts of a tree are in its row of slots. -/
theorem parts_eq_partsFrom (n : Node) : A.parts n = A.partsFrom n.rule 0 n.children := by
  cases n
  simp [parts]

/-- The first slot comes before the others. -/
theorem partsFrom_eq (rule : Rule) (i : Nat) (children : List (Option Node)) :
    A.partsFrom rule i children =
      A.inSlot (rule.place? i) children[0]?.join + A.partsFrom rule (i + 1) children.tail := by
  cases children with
  | nil => simp [partsFrom, inSlot]
  | cons child rest => cases child <;> simp [partsFrom, inSlot]

/-- Slots that lead to no statements weigh nothing. -/
@[simp] theorem inSlot_none (child : Option Node) : A.inSlot none child = 0 := by
  cases child <;> rfl

/-- Behind the last slot that leads to statements, there is no weight. -/
theorem partsFrom_eq_zero {rule : Rule} {i : Nat} (h : ∀ j, i ≤ j → rule.place? j = none)
    (children : List (Option Node)) : A.partsFrom rule i children = 0 := by
  induction children generalizing i with
  | nil => simp [partsFrom]
  | cons child rest ih =>
    have hrest : A.partsFrom rule (i + 1) rest = 0 := ih fun j hj => h j (by omega)
    rw [partsFrom_eq, h i (Nat.le_refl i), inSlot_none, zero_add]
    exact hrest

/-- Slots without a place may be left out. -/
theorem sum_inSlot (n : Node) (slots : List Nat) :
    (slots.map fun i => A.inSlot (n.rule.place? i) (n.child? i)).sum =
      ((slots.filterMap fun i => (n.rule.place? i).map fun place => (i, place)).map
        fun slot => A.inSlot (some slot.2) (n.child? slot.1)).sum := by
  induction slots with
  | nil => rfl
  | cons i rest ih =>
    rw [List.map_cons, List.sum_cons, ih, List.filterMap_cons]
    cases n.rule.place? i <;> simp

/-- The parts of a tree that is no list are in its slots. -/
theorem parts_eq {n : Node} (h : n.rule.isList = false) :
    A.parts n = (n.rule.places.map fun slot => A.inSlot (some slot.2) (n.child? slot.1)).sum := by
  have hend : ∀ children, A.partsFrom n.rule 4 children = 0 :=
    A.partsFrom_eq_zero fun j hj => Rule.place?_of_le h hj
  unfold Rule.places
  rw [← A.sum_inSlot, parts_eq_partsFrom, partsFrom_eq, partsFrom_eq, partsFrom_eq, partsFrom_eq,
    hend]
  simp [Node.child?, List.range_succ]

/-- The parts of a tree whose production and slots are known. -/
theorem parts_of_places {n : Node} {rule : Rule} (hrule : n.rule = rule)
    (places : List (Nat × Place)) (h : rule.isList = false ∧ rule.places = places) :
    A.parts n = (places.map fun slot => A.inSlot (some slot.2) (n.child? slot.1)).sum := by
  subst hrule
  rw [A.parts_eq h.1, h.2]

/-- The parts of a tree that leads to statements through one slot only. -/
theorem parts_of_place {n : Node} {rule : Rule} (hrule : n.rule = rule) (i : Nat) (place : Place)
    (h : rule.isList = false ∧ rule.places = [(i, place)]) :
    A.parts n = A.inSlot (some place) (n.child? i) := by
  rw [A.parts_of_places hrule _ h, List.map_singleton, List.sum_singleton]

/-- A statement that opens a scope weighs what is in the scope. -/
theorem weight_of_opensScope {n : Node} (h : n.rule.opensScope = true) :
    A.weight n = A.block (A.parts n) := by
  simp [weight, total, h]

/-- The weight of the definition of a function. -/
theorem weight_of_defines {n : Node} (h : n.rule.defines = true) :
    A.weight n = A.define n (A.parts n) := by
  have hscope : n.rule.opensScope = false := by
    cases hrule : n.rule <;> rw [hrule] at h <;> first | rfl | contradiction
  simp [weight, total, hscope, h]

/-- A jump or a label weighs something by itself, and so may what comes after it. -/
theorem weight_of_jumps {n : Node} (h : n.rule.jumps = true) :
    A.weight n = A.jump n + A.parts n := by
  have hother : n.rule.opensScope = false ∧ n.rule.defines = false := by
    cases hrule : n.rule <;> rw [hrule] at h <;> first | exact ⟨rfl, rfl⟩ | contradiction
  simp [weight, total, hother, h]

/-- Other trees weigh what their parts weigh. -/
theorem weight_eq_parts {n : Node} (h : n.rule.weighs = false) : A.weight n = A.parts n := by
  simp only [Rule.weighs, Bool.or_eq_false_iff] at h
  simp [weight, total, h]

/-! ### Lists -/

/-- A row of a list weighs what its items weigh. -/
theorem partsFrom_items : ∀ {list : Rule}, list.isList = true →
    ∀ (i : Nat) (children : List (Option Node)),
      A.partsFrom list i children = ((Node.itemsOf list children).map A.weight).sum
  | _, _, _, [] => by simp [partsFrom, Node.itemsOf]
  | list, hlist, i, none :: rest => by
      simp [partsFrom, Node.itemsOf, partsFrom_items hlist (i + 1) rest]
  | list, hlist, i, some ⟨rule, children, token⟩ :: rest => by
      have hrest := partsFrom_items hlist (i + 1) rest
      have hchild : A.slot (list.place? i) ⟨rule, children, token⟩
          (A.parts ⟨rule, children, token⟩) = A.weight ⟨rule, children, token⟩ := by
        rw [Rule.place?_of_isList hlist]
        rfl
      rw [partsFrom, Node.itemsOf, List.map_append, List.sum_append, hrest, hchild]
      congr 1
      split
      next hcontinues =>
        have hrule := Rule.isList_of_continues hlist hcontinues
        rw [A.weight_eq_parts (Rule.weighs_of_isList hrule), parts_eq_partsFrom, Node.items]
        exact partsFrom_items hrule 0 children
      next => simp

/-- A list weighs what its items weigh. -/
theorem weight_items {n : Node} (h : n.rule.isList = true) :
    A.weight n = (n.items.map A.weight).sum := by
  rw [A.weight_eq_parts (Rule.weighs_of_isList h), parts_eq_partsFrom]
  obtain ⟨rule, children, token⟩ := n
  rw [Node.items]
  exact A.partsFrom_items h 0 children

/-- A tree weighs what its items weigh, whether it is a list or stands for itself. -/
theorem weight_flatten (n : Node) : A.weight n = (n.flatten.map A.weight).sum := by
  unfold Node.flatten
  split
  next h => exact A.weight_items h
  next => simp

/-! ### Trees without weight -/

/-- A production that leads to no statements has no weight, unless it has one of its own. -/
theorem weight_eq_zero {n : Node} (h : n.rule.isPlain = true) : A.weight n = 0 := by
  simp only [Rule.isPlain, Bool.and_eq_true, Bool.not_eq_true', List.isEmpty_iff] at h
  obtain ⟨⟨hlist, hweighs⟩, hplaces⟩ := h
  rw [A.weight_eq_parts hweighs, A.parts_eq hlist, hplaces]
  rfl

end Weights

end CWithClasses
