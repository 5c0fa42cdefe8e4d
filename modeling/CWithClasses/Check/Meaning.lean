import CWithClasses.Check.Expression
import CWithClasses.Check.Statement
import CWithClasses.Check.TypeSpecifier

/-!
# The meaning of a tree

The roles of a construct come from the roles of its parts. Following the tree from its leaves
upwards, every node gets its roles, so that the whole tree becomes a phrase.
-/

namespace CWithClasses

/-- The roles of a construct whose parts have theirs. -/
def Clause.roles (c : Clause) : Roles where
  expression := c.expression
  statement := c.statement c.expression c.declaration
  declaration := c.declaration
  specifier := c.specifier
  declarator := c.declarator
  newDeclarator := c.newDeclarator
  initializer := c.initializer c.expression

namespace Node

mutual

/-- The phrase of a tree. -/
def phrase : Node → Phrase
  | ⟨rule, children, token⟩ =>
      let c : Clause := ⟨⟨rule, children, token⟩, phrases children⟩
      ⟨c.node, c.parts, c.roles⟩

/-- The phrases of a row of slots. -/
def phrases : List (Option Node) → List (Option Phrase)
  | [] => []
  | none :: rest => none :: phrases rest
  | some child :: rest => some child.phrase :: phrases rest

end

/-! ### Trees and their phrases -/

/-- The phrase of a tree is a phrase of that tree. -/
@[simp] theorem phrase_node (n : Node) : n.phrase.node = n := by
  cases n
  simp [phrase]

/-- Slots keep their places when trees become phrases. -/
theorem phrases_eq_map (children : List (Option Node)) :
    phrases children = children.map (Option.map phrase) := by
  induction children with
  | nil => simp [phrases]
  | cons child rest ih => cases child <;> simp [phrases, ih]

/-- The parts of the phrase of a tree are the phrases of its children. -/
@[simp] theorem phrase_parts (n : Node) : n.phrase.parts = n.children.map (Option.map phrase) := by
  cases n
  simp [phrase, phrases_eq_map]

/-- The roles of the phrase of a tree are those of its construct. -/
theorem phrase_roles (n : Node) : n.phrase.roles = n.phrase.clause.roles := by
  cases n
  simp [phrase, Phrase.clause]

/-- A part of the phrase of a tree is the phrase of the child in that slot. -/
@[simp] theorem phrase_part? (n : Node) (i : Nat) :
    n.phrase.part? i = (n.child? i).map phrase := by
  simp only [Phrase.part?, Clause.part?, Phrase.clause, phrase_parts, child?, List.getElem?_map]
  rcases n.children[i]? with _ | _ | _ <;> rfl

mutual

/-- The items of the phrase of a list are the phrases of its items. -/
theorem phrase_items : ∀ n : Node, n.phrase.items = n.items.map phrase
  | ⟨rule, children, token⟩ => by
      simp only [phrase, Phrase.items, items]
      exact phrases_itemsOf rule children

/-- The items in a row of slots are the same, as trees or as phrases. -/
theorem phrases_itemsOf (rule : Rule) :
    ∀ children, Phrase.itemsOf rule (phrases children) = (itemsOf rule children).map phrase
  | [] => by simp [phrases, Phrase.itemsOf, itemsOf]
  | none :: rest => by simp [phrases, Phrase.itemsOf, itemsOf, phrases_itemsOf rule rest]
  | some child :: rest => by
      simp only [phrases, Phrase.itemsOf, itemsOf, List.map_append, phrase_node,
        phrases_itemsOf rule rest]
      split <;> simp [phrase_items child]

end

/-- Flattening does not depend on whether trees have become phrases. -/
theorem phrase_flatten (n : Node) : n.phrase.flatten = n.flatten.map phrase := by
  simp only [Phrase.flatten, flatten, Phrase.rule, phrase_node]
  split <;> simp [phrase_items]

/-! ### Checking a tree -/

/-- Checks a tree as an expression. -/
def checkExpression (n : Node) : Check Ty := n.phrase.roles.expression

/-- Checks a tree as a statement. -/
def checkStatement (n : Node) : Check Unit := n.phrase.roles.statement

/-- Checks a tree as a declaration. -/
def checkDeclaration (n : Node) : Check Unit := n.phrase.roles.declaration

/-- Checks a tree as a function definition. -/
def checkFunctionDefinition (n : Node) : Check Unit := n.phrase.clause.functionDefinition

/-- Checks a tree as a class specification. -/
def checkClassSpec (n : Node) : Check Ty := n.phrase.clause.classSpec

/-- Checks a tree as a declarator of the given base type. -/
def checkDeclarator (n : Node) (base : Ty) : Check Declared := n.phrase.roles.declarator base

/-- Checks any tree: a program, a declaration, a statement, a class specification or an
expression. Only the last two have a type of their own. -/
def check (n : Node) : Check Ty :=
  match n.rule.category with
  | .program => do
      match n.child? 0 with
      | some declarations => declarations.checkDeclaration
      | none => pure ()
      return .void
  | .declaration | .function => do
      n.checkDeclaration
      return .void
  | .statement => do
      n.checkStatement
      return .void
  | .classPart => if n.rule = .classSpec then n.checkClassSpec else n.checkExpression
  | _ => n.checkExpression

end Node

/-- What a check finds out about a tree. -/
structure Outcome where
  ty : Ty
  diagnostics : List Diagnostic
  resolutions : List Resolution
  symbols : SymbolTable

namespace Outcome

/-- Whether the check found nothing wrong. -/
def isOk (o : Outcome) : Bool := o.diagnostics.isEmpty

/-- The names of the problems that were found. -/
def errorNames (o : Outcome) : List String := o.diagnostics.map (·.problem.name)

/-- The type of the last use of a name. -/
def resolution? (o : Outcome) (name : String) : Option Ty :=
  (o.resolutions.reverse.find? fun r => r.name == name).map (·.ty)

end Outcome

/-- Ends a check with the type of its tree. -/
def Checker.outcome (s : Checker) (ty : Ty) : Outcome :=
  ⟨ty, s.diagnostics, s.resolutions, s.symbols⟩

/-- Checks a tree from the start, and logs the end of a check that met no fault. -/
def Node.checkAll (n : Node) : Check Outcome := do
  let ty ← n.check
  let s ← get
  Check.log (.finished s.diagnostics.length s.dropped s.resolutions.length)
  return s.outcome ty

/-- Checks a tree with the built-in declarations of a configuration. -/
def typeCheck (root : Node) (config : Config := {}) : Except Fault Outcome :=
  match root.checkAll (.start config) with
  | .ok outcome _ => .ok outcome
  | .error fault _ => .error fault

end CWithClasses
