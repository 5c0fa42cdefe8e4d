import CWithClasses.Tree.Fault
import CWithClasses.Tree.Token

/-!
# Syntax trees

A node is tagged with its production, holds one slot per part of the production, and may
carry a token. An absent optional part is an empty slot. Lists are built by nesting nodes of
one production; `Node.flatten` recovers their items in source order.
-/

namespace CWithClasses

/-- A node of a syntax tree. -/
structure Node where
  rule : Rule
  children : List (Option Node) := []
  token : Option Token := none

namespace Node

/-- A leaf holds a single token. -/
def leaf (t : Token) : Node := { rule := .token, token := some t }

/-- A word as a part of a tree that is written out, on its first line unless said otherwise. -/
def word (kind : TokenKind) (text : String) (line : Nat := 1) : Option Node :=
  some (leaf ⟨kind, text, ⟨line, "main.cpp"⟩⟩)

/-- A production as a part of a tree that is written out. -/
def tree (rule : Rule) (children : List (Option Node)) : Option Node := some { rule, children }

/-- The list of the given items, nested to the left. Without items there is no list. -/
def list (rule : Rule) (items : List Node) : Option Node :=
  items.foldl (fun front item => some { rule, children := [front, some item] }) none

mutual

/-- The first token of a tree, its own before those of its children. -/
def firstToken? : Node → Option Token
  | ⟨_, _, some t⟩ => some t
  | ⟨_, children, none⟩ => firstTokenOf? children

/-- The first token of a row of slots. -/
def firstTokenOf? : List (Option Node) → Option Token
  | [] => none
  | none :: rest => firstTokenOf? rest
  | some child :: rest => child.firstToken?.or (firstTokenOf? rest)

end

/-- A tree stands where its first token stands. -/
def position (n : Node) : Position := (n.firstToken?.map (·.position)).getD .null

/-- The child in a slot. -/
def child? (n : Node) (i : Nat) : Option Node := n.children[i]?.join

/-- The fault of a node that has no meaning in a context. -/
def unexpected (n : Node) (context : String) : Fault :=
  .unexpectedRule n.rule context n.position

/-- The fault of a node whose slot `i` is empty. -/
def missing (n : Node) (i : Nat) : Fault := .missingChild n.rule i n.position

/-- A child that the production always has. -/
def child (n : Node) (i : Nat) : Except Fault Node :=
  match n.child? i with
  | some c => .ok c
  | none => .error (n.missing i)

/-- The token of a node, if it has the given kind. -/
def tokenOf? (n : Node) (kind : TokenKind) : Option Token :=
  n.token.filter fun t => t.kind == kind

/-- The token that a leaf carries. -/
def leafToken (n : Node) : Except Fault Token :=
  match n.token with
  | some t => .ok t
  | none => .error (n.unexpected "token")

/-- The token of a literal: its own, or else that of its leaf. -/
def literalToken (n : Node) : Except Fault Token :=
  match n.token with
  | some t => .ok t
  | none => do (← n.child 0).leafToken

/-- The name that a leaf or a nested-name specifier spells. -/
def nameToken (n : Node) : Except Fault Token :=
  match n.rule with
  | .token => n.leafToken
  | .nestedName => do (← n.child 0).leafToken
  | _ => .error (n.unexpected "name")

mutual

/-- The items of a list node, with the nodes that continue the list dissolved. -/
def items : Node → List Node
  | ⟨rule, children, _⟩ => itemsOf rule children

/-- The items in a row of slots below a node of the given production. -/
def itemsOf (rule : Rule) : List (Option Node) → List Node
  | [] => []
  | none :: rest => itemsOf rule rest
  | some child :: rest =>
      (if rule.continues child.rule then child.items else [child]) ++ itemsOf rule rest

end

/-- The items of a list in source order. A node that is no list stands for itself. -/
def flatten (n : Node) : List Node := if n.rule.isList then n.items else [n]

/-- The value of a constant that is spelled as a single integer literal. -/
def integerConstant? (n : Node) : Option Nat :=
  match n.rule with
  | .literal | .token => n.literalToken.toOption.bind (·.intValue?)
  | _ => none

/-- The spelling of a constant that no array can have as its size: a negative value, or one
too large for a word. -/
def invalidSize? (n : Node) : Option String :=
  match n.rule with
  | .unaryMinus => do
      let operand ← n.child? 0
      let t ← operand.literalToken.toOption
      if t.kind ≠ .intConst ∨ t.intValue? = some 0 then none else some ("-" ++ t.text)
  | .literal | .token => do
      let t ← n.literalToken.toOption
      if t.kind = .intConst ∧ t.intValue?.isNone then some t.text else none
  | _ => none

end Node

end CWithClasses
