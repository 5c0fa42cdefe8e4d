import CWithClasses.Proofs.Pairs.Basic
import CWithClasses.Proofs.Logic.Weighed
import CWithClasses.Proofs.Redefinition

/-!
# Plain members

A member declaration is plain if what it declares can be told without looking at any other member:
its specifiers are keywords, or names of types that are given; its array sizes are literals; it has
no default arguments and no initializers; and the bodies of functions define neither functions nor
classes. `Node.placed?` lists the member declarations of a class specification, each with the access
region that it stands in.
-/

namespace CWithClasses.Node

/-! ### Declarators -/

/-- A constant. -/
def isConstant (n : Node) : Bool :=
  n.rule == .literal || (n.rule == .token && n.token.any fun t => t.constantTy?.isSome)

/-- A dimension that is a literal. -/
def isLiteralSize (n : Node) : Bool :=
  n.integerConstant?.isSome || n.invalidSize?.isSome || n.isConstant

/-- A sequence of specifiers that are single tokens. Names have to be among the given ones. -/
def hasPlainSpecifiers (types : List String) (n : Node) : Bool :=
  n.flatten.all fun m => m.rule == .token &&
    m.token.all fun t => !t.kind.isName || types.contains t.text

/-- A part of a plain declarator, apart from what is inside of it. -/
def isPlainLayer (types : List String) (n : Node) : Bool :=
  match n.rule with
  | .qualifiedDeclarator | .namedParamDefault | .abstractParamDefault => false
  | .arrayDeclarator | .abstractArray => (n.child? 1).all isLiteralSize
  | .namedParam | .abstractParam => (n.child? 0).all (hasPlainSpecifiers types)
  | _ => true

/-- A declarator of a plain name, with literal sizes and without default arguments. -/
def isPlainDeclarator (types : List String) (n : Node) : Bool :=
  n.subtrees.all (isPlainLayer types) && n.declaredName?.isSome

/-! ### Member declarations -/

/-- A tree in which nothing is defined. -/
def definesNothing (n : Node) : Bool :=
  n.subtrees.all fun m =>
    m.rule != .classSpec && m.rule != .functionDef && m.rule != .constructorDef

/-- The items of a declaration. -/
def declaredItems (n : Node) : List Node := ((n.child? 1).map flatten).getD []

/-- The name that an item of a declaration introduces. -/
def itemName? (n : Node) : Option String :=
  match n.rule with
  | .pureMember | .bitField | .initDecl => (n.child? 0).bind declaredName?
  | _ => n.declaredName?

/-- A plain item of a member declaration. A bit field has a constant width, and may have no name. -/
def isPlainMember (types : List String) (n : Node) : Bool :=
  match n.rule with
  | .pureMember => (n.child? 0).any (isPlainDeclarator types)
  | .bitField => (n.child? 0).all (isPlainDeclarator types) && (n.child? 1).any isConstant
  | .initializedMember | .initDecl => false
  | _ => n.isPlainDeclarator types

/-- A plain item of any other declaration. -/
def isPlainItem (types : List String) (n : Node) : Bool :=
  match n.rule with
  | .initDecl => (n.child? 0).any (isPlainDeclarator types) && (n.child? 1).isNone
  | .pureMember | .bitField => false
  | _ => n.isPlainDeclarator types

/-- A member declaration that can be told without looking at other members. -/
def isPlain (types : List String) (n : Node) : Bool :=
  match n.rule with
  | .functionDef =>
      (n.child? 0).all (hasPlainSpecifiers types) && (n.child? 1).any (isPlainDeclarator types) &&
        (n.child? 2).all definesNothing
  | .constructorDef =>
      (n.child? 0).any (isPlainDeclarator types) && (n.child? 1).all definesNothing &&
        (n.child? 2).all definesNothing
  | .memberDecl =>
      (n.child? 0).all (hasPlainSpecifiers types) && n.declaredItems.all (isPlainMember types)
  | .simpleDecl =>
      (n.child? 0).all (hasPlainSpecifiers types) && n.declaredItems.all (isPlainItem types)
  | _ => false

/-- The names that a member declaration introduces, in source order. -/
def memberNames (n : Node) : List String :=
  match n.rule with
  | .functionDef | .constructorDef => n.definedName?.toList
  | _ => n.declaredItems.filterMap itemName?

/-! ### Member specifications -/

/-- The links of a chain of member specifications, in source order. -/
def memberLinks : Node → List Node
  | ⟨rule, children, token⟩ =>
      match children with
      | first :: some next :: rest =>
          ⟨rule, first :: some next :: rest, token⟩ ::
            (if rule = .memberSpec ∨ rule = .accessSpec then next.memberLinks else [])
      | children => [⟨rule, children, token⟩]

/-- The member declarations of a chain, each with its access region. There are none if a link is
malformed. -/
def placedFrom? (access : Access) : List Node → Option (List (Access × Node))
  | [] => some []
  | link :: rest =>
      match link.rule with
      | .memberSpec => do
          let member ← link.child? 0
          return (access, member) :: (← placedFrom? access rest)
      | .accessSpec => do
          let key ← (← link.child? 0).token
          placedFrom? (← key.kind.access?) rest
      | _ => do return (access, link) :: (← placedFrom? access rest)

/-- The member declarations of a class specification, each with its access region. -/
def placed? (n : Node) : Option (List (Access × Node)) := do
  let key ← (← (← n.child? 0).child? 0).token
  match n.child? 1 with
  | some chain => placedFrom? key.kind.defaultAccess chain.memberLinks
  | none => some []

/-- The links of a chain are its first one and those of the chain behind it. -/
theorem memberLinks_eq (n : Node) :
    n.memberLinks = n :: if n.rule = .memberSpec ∨ n.rule = .accessSpec then
      ((n.child? 1).map memberLinks).getD [] else [] := by
  obtain ⟨rule, children, token⟩ := n
  conv_lhs => unfold memberLinks
  split
  next first next rest => rfl
  next hchildren =>
    have hempty : (⟨rule, children, token⟩ : Node).child? 1 = none := by
      rcases children with _ | ⟨first, _ | ⟨_ | next, rest⟩⟩
      · rfl
      · rfl
      · rfl
      · exact (hchildren first next rest rfl).elim
    rw [hempty]
    split <;> rfl

/-- The links of a chain are the same, as trees or as phrases. -/
theorem phrase_memberLinks (n : Node) : n.phrase.memberLinks = n.memberLinks.map phrase := by
  rw [Phrase.memberLinks_eq, memberLinks_eq, n.phrase_rule, n.phrase_part?, List.map_cons]
  congr 1
  split
  · cases hchild : n.child? 1 with
    | none => rfl
    | some next =>
      have := sizeOf_child hchild
      exact phrase_memberLinks next
  · rfl
termination_by sizeOf n

end CWithClasses.Node
