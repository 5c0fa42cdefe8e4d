import CWithClasses.Check.Class

/-!
# Single specifiers

A specifier may be a keyword, the name of a class, a class specification, or a class that is
named through a class key or through another class.
-/

namespace CWithClasses

open Check

/-- A class that is named with its key. If the name means nothing yet, a class of that name is
declared. -/
def elaborate (name : Token) : Check Ty := do
  match (← symbols).lookupTypeName name.text with
  | .ok ty => return ty
  | .error (.notFound _) => do
      let ty := .object (← declareClass name.text name.position)
      log (.forwardDeclared ty)
      return ty
  | .error p => reject p name.position

/-- A class that is a member of another class. -/
def nestedClass (outer inner : Phrase) : Check Ty := do
  let cls? ← resolveClass (← outer.node.nameToken)
  let name ← inner.node.leafToken
  match cls? with
  | none => return .unknown
  | some cls =>
      let table ← symbols
      match table.memberLookup cls name.text (table.insideClass cls) with
      | .ok (.object c) => return .object c
      | .ok ty => mismatch "type name" ty name.position
      | .error p => reject p name.position

namespace Clause

/-- A specifier that is a single token. -/
def specifierToken (c : Clause) : Check (Option Ty) := do
  let t ← c.node.leafToken
  if t.kind.isName then return some (← resolveTypeName t)
  else if t.kind = .typedef then
    report (.unsupported "typedef") t.position
    return none
  else if t.kind.isModifier then return none
  else
    match t.kind.primitive? with
    | some ty => return some ty
    | none => c.unexpected "specifier"

/-- The meaning of a specifier. -/
def specifier (c : Clause) : Check (Option Ty) :=
  match c.rule with
  | .token => c.specifierToken
  | .classSpec => return some (← c.classSpec)
  | .elaborated => return some (← elaborate (← (← c.part 1).node.leafToken))
  | .elaboratedNested => return some (← nestedClass (← c.part 1) (← c.part 2))
  | .nestedTypeName => return some (← nestedClass (← c.part 0) (← c.part 1))
  | .typeId => return some (← c.typeName)
  | _ => c.unexpected "specifier"

end Clause

end CWithClasses
