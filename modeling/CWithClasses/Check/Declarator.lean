import CWithClasses.Check.Specifier

/-!
# Declarators

A declarator is read from the outside in: each layer wraps the type that it is applied to into
a pointer, an array or a function, and hands it on to the layer inside. So `int *a[3]` declares
an array of pointers and `int (*p)[3]` a pointer to an array.
-/

namespace CWithClasses

open Check

/-- Records a mismatch unless a type can be used as an index, a size or a label. -/
def checkIntegral (ty : Ty) (position : Position) : Check Unit :=
  unless ty.isIntegral || ty.isUnknown do
    report (.typeMismatch "int" ty.render) position

/-- The size of an array dimension. A dimension that is absent or no literal leaves the size
open, which is zero. -/
def checkArraySize : Option Phrase → Check Nat
  | none => return 0
  | some p =>
      match p.node.integerConstant? with
      | some size => return size
      | none =>
          match p.node.invalidSize? with
          | some spelling => do
              report (.typeMismatch "array size" spelling) p.position
              return 0
          | none => do
              checkIntegral (← p.roles.expression) p.position
              return 0

/-- Applies a pointer operator to a type. A reference counts as the type that it refers to. -/
def Phrase.pointerOperator (p : Phrase) (ty : Ty) : Check Ty :=
  match p.rule with
  | .qualifiedPointer => return .pointer ty
  | .memberPointer => reject (.unsupported "pointer to member") p.position
  | .token => do
      match (← p.node.leafToken).kind with
      | .star => return .pointer ty
      | .ampersand => return ty
      | _ => p.unexpected "pointer operator"
  | _ => p.unexpected "pointer operator"

/-- The type of a function with the given parameters. From the first default argument on, the
arguments may be left out. -/
def newFunctionType (result : Ty) (params : List Parameter) : Check Ty :=
  newFunction result (params.map (·.ty)) (params.findIdx (·.hasDefault))

/-- The declarator and the default argument of a parameter. -/
def Phrase.parameterParts (p : Phrase) : Check (Option Phrase × Option Phrase) :=
  match p.rule with
  | .namedParam => return (some (← p.part 1), none)
  | .namedParamDefault => return (some (← p.part 1), some (← p.part 2))
  | .abstractParam => return (p.part? 1, none)
  | .abstractParamDefault => return (p.part? 1, some (← p.part 2))
  | _ => p.unexpected "parameter"

/-- Checks a default argument against the type of its parameter. -/
def checkDefault (ty : Ty) : Option Phrase → Check Unit
  | none => return
  | some p => do
      let value ← p.roles.expression
      unless compatible ty value do
        report (.typeMismatch ty.render value.render) p.position

/-- A single parameter. Arrays and functions are passed as pointers. -/
def Phrase.parameter (p : Phrase) : Check Parameter := do
  let (declarator, default) ← p.parameterParts
  let base ← (← p.part 0).specifiers
  let declared ← match declarator with
    | some d => d.roles.declarator base
    | none => pure { ty := base }
  let ty := declared.ty.decay
  checkDefault ty default
  return ⟨declared.name, ty, default.isSome⟩

/-- Whether a parameter list is the word `void` alone. -/
def isEmptyList : List Parameter → Bool
  | [param] => param.name.isNone && param.ty.isVoid
  | _ => false

/-- No parameter has the type `void`. One without a name is reported where its list stands. -/
def checkNotVoid (list : Position) (param : Parameter) : Check Parameter :=
  if param.ty.isVoid then do
    let position := (param.name.map (·.position)).getD list
    return { param with ty := ← reject (.typeMismatch "object type" "void") position }
  else return param

/-- The parameters of a function. -/
def checkParameters : Option Phrase → Check (List Parameter)
  | none => return []
  | some p => do
      let params ← p.flatten.mapM Phrase.parameter
      if isEmptyList params then return []
      else params.mapM (checkNotVoid p.position)

namespace Declared

/-- The parameters of an outer function layer count if there is none further inside. -/
def withParameters (d : Declared) (params : List Parameter) : Declared :=
  { d with parameters := d.parameters.or (some params) }

/-- A name qualified by a class. -/
def withClass (d : Declared) (cls : Token) : Declared :=
  { d with name := d.name.map fun n => { n with cls := some cls } }

end Declared

/-- Applies an optional inner declarator. -/
def declareInner (p : Option Phrase) (ty : Ty) : Check Declared :=
  match p with
  | some p => p.roles.declarator ty
  | none => return { ty }

namespace Clause

/-- The meaning of a declarator. -/
def declarator (c : Clause) (ty : Ty) : Check Declared :=
  match c.rule with
  | .token => do
      let t ← c.node.leafToken
      if t.kind.isName then return { name := some { name := t.text, position := t.position }, ty }
      else c.unexpected "declarator"
  | .pointerDeclarator => do
      let ty ← (← c.part 0).pointerOperator ty
      (← c.part 1).roles.declarator ty
  | .abstractPointer => do
      let ty ← (← c.part 0).pointerOperator ty
      declareInner (c.part? 1) ty
  | .functionDeclarator | .constFunctionDeclarator => do
      let params ← checkParameters (c.part? 1)
      let function ← newFunctionType ty params
      let declared ← (← c.part 0).roles.declarator function
      return declared.withParameters params
  | .abstractFunction => do
      let params ← checkParameters (c.part? 1)
      let function ← newFunctionType ty params
      let declared ← declareInner (c.part? 0) function
      return declared.withParameters params
  | .arrayDeclarator => do
      let size ← checkArraySize (c.part? 1)
      (← c.part 0).roles.declarator (.array ty size)
  | .abstractArray => do
      let size ← checkArraySize (c.part? 1)
      declareInner (c.part? 0) (.array ty size)
  | .abstractParens => declareInner (c.part? 0) ty
  | .constructorDeclarator => do
      let cls ← (← c.part 0).node.leafToken
      let params ← checkParameters (c.part? 1)
      let name := { name := cls.text, position := cls.position }
      return { name := some name, ty := ← newFunctionType .void params, parameters := some params }
  | .destructorDeclarator => do
      let cls ← (← c.part 0).node.leafToken
      let name := { name := "~" ++ cls.text, position := cls.position }
      return { name := some name, ty := ← newFunctionType .void [], parameters := some [] }
  | .qualifiedDeclarator => do
      let cls ← (← c.part 0).node.nameToken
      return (← (← c.part 1).roles.declarator ty).withClass cls
  | _ => c.unexpected "declarator"

/-- The meaning of a declarator of a new-expression: the type of the elements to allocate. Of
the dimensions, the first one only counts the elements. -/
def newDeclarator (c : Clause) (ty : Ty) : Check Ty :=
  match c.rule with
  | .newPointer =>
      match c.part? 1 with
      | some inner => inner.roles.newDeclarator (.pointer ty)
      | none => return .pointer ty
  | .newBound => do
      let _ ← checkArraySize (some (← c.part 0))
      return ty
  | .newArray => do
      let size ← checkArraySize (some (← c.part 1))
      (← c.part 0).roles.newDeclarator (.array ty size)
  | _ => c.unexpected "new declarator"

end Clause

end CWithClasses
