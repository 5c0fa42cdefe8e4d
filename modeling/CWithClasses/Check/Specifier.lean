import CWithClasses.Check.Phrase
import CWithClasses.Type.Compatible

/-!
# Specifier sequences and type names

A sequence of specifiers chooses one base type. Qualifiers and storage classes choose none,
and a sequence that chooses no type at all means `int`.
-/

namespace CWithClasses

/-- The type that a keyword names. -/
def TokenKind.primitive? : TokenKind → Option Ty
  | .intType => some .int
  | .doubleType | .floatType => some .double
  | .charType => some .char
  | .boolType => some .bool
  | .voidType => some .void
  | _ => none

namespace Phrase

/-- Takes one specifier into account. The first type of a sequence counts; any further one is
recorded as a mismatch. -/
def specifierAfter (base : Option Ty) (item : Phrase) : Check (Option Ty) := do
  match base, ← item.roles.specifier with
  | base, none => return base
  | none, some ty => return some ty
  | some previous, some ty =>
      Check.report (.typeMismatch previous.render ty.render) item.position
      return some previous

/-- The base type of a specifier sequence. -/
def specifiers (p : Phrase) : Check Ty := do
  return (← p.flatten.foldlM specifierAfter none).getD .int

end Phrase

/-- The base type of an optional specifier sequence. Only constructors and destructors omit
it; they return nothing. -/
def checkSpecifiers? : Option Phrase → Check Ty
  | some p => p.specifiers
  | none => return .void

/-- The type that a type name spells: specifiers and possibly an abstract declarator. -/
def Clause.typeName (c : Clause) : Check Ty := do
  let base ← (← c.part 0).specifiers
  match c.part? 1 with
  | some declarator => return (← declarator.roles.declarator base).ty
  | none => return base

/-- The type of a type name, which may also be a mere specifier sequence. -/
def Phrase.typeName (p : Phrase) : Check Ty :=
  if p.rule = .typeId then p.clause.typeName else p.specifiers

end CWithClasses
