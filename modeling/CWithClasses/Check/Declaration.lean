import CWithClasses.Check.Declarator
import CWithClasses.Check.Initializer

/-!
# Declarations of objects and functions

Each declarator of a declaration binds one name in the innermost scope. A function may be
declared again with the same signature; the first declaration counts. A qualified name is not
bound: it refers to a member that its class has to have.
-/

namespace CWithClasses

open Check

/-- Declares a function. An earlier declaration of the same signature in this scope counts as
the same function. -/
def declareFunction (name : DeclaredName) (ty : Ty) : Check Ty := do
  match (← symbols).lookupLocal? name.name with
  | some existing =>
      if sameSignature existing ty then return existing
      else
        declare name.name name.position ty
        return ty
  | none =>
      declare name.name name.position ty
      return ty

/-- The class that a qualified name refers to, and its member of that name. -/
def resolveQualified (cls : Token) (name : DeclaredName) :
    Check (Option (ClassRef × Option Ty)) := do
  match (← resolveTypeName cls).asClass? with
  | none => return none
  | some c =>
      match (← symbols).member? c name.name with
      | some (_, member) => return some (c, some member)
      | none =>
          report (.notFound name.qualified) name.position
          return some (c, none)

/-- Checks a declaration of a member outside of its class against the one inside. -/
def checkAgainstMember (cls : Token) (name : DeclaredName) (ty : Ty)
    (agrees : Ty → Ty → Bool) : Check Unit := do
  match ← resolveQualified cls name with
  | some (_, some member) =>
      unless agrees member ty do
        report (.typeMismatch member.render ty.render) name.position
  | _ => return

/-- No object has the type `void`. -/
def checkObjectType (ty : Ty) (position : Position) : Check Ty :=
  if ty.isVoid then reject (.typeMismatch "object type" "void") position else return ty

/-- An object that is declared without an initializer is constructed by default if its class
is complete. Members are constructed by the constructor of their class instead. -/
def checkDefaultConstruction (ty : Ty) (position : Position) : Check Unit := do
  let table ← symbols
  match ty.objectClass? with
  | some c =>
      if table.current.isClassBody || !table.isComplete c then return
      else checkConstructor c [] position
  | none => return

/-- Checks the initializer of an object, or its default construction. -/
def checkInit (ty : Ty) (position : Position) : Option Phrase → Check Ty
  | some p => p.roles.initializer ty
  | none => do
      checkDefaultConstruction ty position
      return ty

/-- Declares an object, and returns its type. -/
def declareObject (name : DeclaredName) (ty : Ty) (init : Option Phrase) : Check Ty := do
  let ty ← checkObjectType ty name.position
  let ty ← checkInit ty name.position init
  match name.cls with
  | some cls => checkAgainstMember cls name ty compatible
  | none => declare name.name name.position ty
  return ty

/-- Declares what a declarator introduces, and returns its type. An initializer of a function
has no meaning. -/
def Phrase.initDeclarator (p : Phrase) (base : Ty) (init : Option Phrase) : Check Ty := do
  let declared ← p.roles.declarator base
  match declared.name with
  | none => p.unexpected "declarator"
  | some name =>
      if declared.ty.function?.isSome then
        match name.cls with
        | some cls => do
            checkAgainstMember cls name declared.ty sameSignature
            return declared.ty
        | none => declareFunction name declared.ty
      else declareObject name declared.ty init

/-- Declares one item of a declaration. -/
def Phrase.initDeclItem (p : Phrase) (base : Ty) : Check Unit := do
  if p.rule = .initDecl then
    let _ ← (← p.part 0).initDeclarator base (p.part? 1)
  else
    let _ ← p.initDeclarator base none

/-- A declaration: specifiers and the declarators that they apply to. -/
def Clause.simpleDeclaration (c : Clause) : Check Unit := do
  let base ← (← c.part 0).specifiers
  (Phrase.flatten? (c.part? 1)).forM fun item => item.initDeclItem base

end CWithClasses
