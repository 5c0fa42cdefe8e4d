import CWithClasses.Check.Checker
import CWithClasses.Tree.Node

/-!
# Phrases

A subtree can play several roles: the same tree may be checked as an expression, as a
statement, or as a declarator that is applied to a type. `Roles` lists what checking a tree
does in each role, and a `Phrase` is a tree whose nodes all know their roles.

The meaning of a construct depends on its parts only through their roles. So the rules of the
language are stated for a `Clause`, a construct whose parts are phrases already, one rule at a
time and without recursion. `Node.phrase` puts them together.
-/

namespace CWithClasses

/-- The name that a declarator introduces, possibly qualified by a class. -/
structure DeclaredName where
  cls : Option Token := none
  name : String
  position : Position

namespace DeclaredName

/-- The name with its class, if it has one. -/
def qualified (n : DeclaredName) : String :=
  match n.cls with
  | some c => c.text ++ "::" ++ n.name
  | none => n.name

end DeclaredName

/-- A parameter of a function. -/
structure Parameter where
  name : Option DeclaredName
  ty : Ty
  hasDefault : Bool

/-- A declarator applied to its base type. The parameters are those of the function layer
that is closest to the name. -/
structure Declared where
  name : Option DeclaredName := none
  ty : Ty
  parameters : Option (List Parameter) := none

/-- What checking a tree does, by the role that it plays. -/
structure Roles where
  /-- The type of an expression. -/
  expression : Check Ty
  statement : Check Unit
  declaration : Check Unit
  /-- The type that one specifier of a sequence chooses, if it chooses any. -/
  specifier : Check (Option Ty)
  /-- A declarator, applied to its base type. -/
  declarator : Ty → Check Declared
  /-- A declarator of a new-expression, applied to its base type. -/
  newDeclarator : Ty → Check Ty
  /-- The type that an object ends up with, given its declared type. -/
  initializer : Ty → Check Ty

/-- A tree whose nodes know their roles. -/
structure Phrase where
  node : Node
  parts : List (Option Phrase)
  roles : Roles

/-- A construct whose parts are phrases. -/
structure Clause where
  node : Node
  parts : List (Option Phrase)

namespace Clause

/-- The production of a construct. -/
def rule (c : Clause) : Rule := c.node.rule

/-- The position of a construct. -/
def position (c : Clause) : Position := c.node.position

/-- The part in a slot. -/
def part? (c : Clause) (i : Nat) : Option Phrase := c.parts[i]?.join

/-- A part that the construct always has. -/
def part (c : Clause) (i : Nat) : Check Phrase :=
  match c.part? i with
  | some p => return p
  | none => throw (c.node.missing i)

/-- The construct has no meaning in a context. -/
def unexpected {α : Type} (c : Clause) (context : String) : Check α :=
  throw (c.node.unexpected context)

end Clause

namespace Phrase

/-- The construct that a phrase is built by. -/
def clause (p : Phrase) : Clause := ⟨p.node, p.parts⟩

/-- The production of a phrase. -/
def rule (p : Phrase) : Rule := p.node.rule

/-- The position of a phrase. -/
def position (p : Phrase) : Position := p.node.position

/-- The part in a slot. -/
def part? (p : Phrase) (i : Nat) : Option Phrase := p.clause.part? i

/-- A part that the phrase always has. -/
def part (p : Phrase) (i : Nat) : Check Phrase := p.clause.part i

/-- The phrase has no meaning in a context. -/
def unexpected {α : Type} (p : Phrase) (context : String) : Check α :=
  throw (p.node.unexpected context)

mutual

/-- The items of a list phrase, with the phrases that continue the list dissolved. -/
def items : Phrase → List Phrase
  | ⟨node, parts, _⟩ => itemsOf node.rule parts

/-- The items in a row of slots below a node of the given production. -/
def itemsOf (rule : Rule) : List (Option Phrase) → List Phrase
  | [] => []
  | none :: rest => itemsOf rule rest
  | some part :: rest =>
      (if rule.continues part.node.rule then part.items else [part]) ++ itemsOf rule rest

end

/-- The items of a list in source order. A phrase that is no list stands for itself. -/
def flatten (p : Phrase) : List Phrase := if p.rule.isList then p.items else [p]

/-- The links of a chain of member specifications, in source order. -/
def memberLinks : Phrase → List Phrase
  | ⟨node, parts, roles⟩ =>
      match parts with
      | first :: some next :: rest =>
          ⟨node, first :: some next :: rest, roles⟩ ::
            (if node.rule = .memberSpec ∨ node.rule = .accessSpec then next.memberLinks else [])
      | parts => [⟨node, parts, roles⟩]

end Phrase

namespace Clause

/-- The items of a list construct. -/
def items (c : Clause) : List Phrase := Phrase.itemsOf c.rule c.parts

end Clause

/-- The items of an optional list. -/
def Phrase.flatten? : Option Phrase → List Phrase
  | some p => p.flatten
  | none => []

end CWithClasses
