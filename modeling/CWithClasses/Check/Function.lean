import CWithClasses.Check.Declaration

/-!
# Function definitions

A definition first declares its function, so that the body can call it, and then checks the
body in a scope that starts with the parameters. That scope becomes the body of the function.
The bodies of a class are checked only after all its members are declared.
-/

namespace CWithClasses

open Check

/-- A function whose body is still to be checked. -/
structure FunctionBody where
  name : String
  ty : Ty
  parameters : List Parameter
  /-- The class to be opened again for a definition outside of its body. -/
  cls : Option ClassRef
  ctorInit : Option Phrase
  body : Phrase
  /-- Whether the body becomes that of the function. It does not after a redefinition. -/
  attach : Bool

namespace Phrase

/-- Checks the arguments of one member initializer, and then the member that it names. -/
def memberInit (p : Phrase) (cls : Option ClassRef) : Check Unit := do
  if p.rule ≠ .memInit then p.unexpected "member initializer"
  else do
    let id ← p.part 0
    let arguments ← checkArguments (p.part? 1)
    match id.rule with
    | .memberInitId => do
        let name ← (← id.part 0).node.leafToken
        let table ← symbols
        match cls.bind fun c => table.member? c name.text with
        | some (_, member) => checkConstruction member arguments id.position
        | none =>
            let qualified := match cls with
              | some c => c.name ++ "::" ++ name.text
              | none => name.text
            report (.notFound qualified) name.position
    | .baseInitId => report (.unsupported "base class initializer") id.position
    | _ => id.unexpected "member initializer"

/-- Checks the member initializers of a constructor against the class around it. -/
def ctorInit (p : Phrase) : Check Unit := do
  let list ← if p.rule = .ctorInit then p.part 0 else pure p
  let cls := (← symbols).currentClass?
  list.flatten.forM fun init => init.memberInit cls

/-- Checks the statements of a function body. The outermost block shares the scope of the
parameters. -/
def functionBlock (p : Phrase) : Check Unit :=
  if p.rule = .compound then
    (Phrase.flatten? (p.part? 0)).forM fun statement => statement.roles.statement
  else p.roles.statement

end Phrase

namespace FunctionBody

/-- Binds the named parameters, with the types that the function was declared with. -/
def bindParameters (params : List Parameter) (types : List Ty) : Check Unit :=
  (params.zip types).forM fun (param, ty) =>
    match param.name with
    | some name => declare name.name name.position ty
    | none => return

/-- Checks what a function body does, inside its scope. -/
def checkStatements (b : FunctionBody) (f : FunctionTy) : Check Unit := do
  bindParameters b.parameters f.params
  modify (·.enterFunction f.result)
  match b.ctorInit with
  | some init => init.ctorInit
  | none => pure ()
  b.body.functionBlock
  modify (·.leaveFunction)

/-- Gives a function the scope of its body. -/
def attachScope (b : FunctionBody) (f : FunctionTy) (scope : Option Frame) : Check Unit := do
  match b.attach, scope with
  | true, some frame =>
      match (← symbols).define? f frame with
      | some table => modifySymbols fun _ => table
      | none => do
          discard (some frame)
          log (.alreadyDefined b.name)
  | _, scope => discard scope

/-- Checks the body of a function that has been declared. The scope of the body is the only
one to be kept or discarded: the scope of a class holds nothing of its own. -/
def check (b : FunctionBody) : Check Unit :=
  match b.ty.asFunction? with
  | none => b.body.unexpected "function body"
  | some f => do
      match b.cls with
      | some c => pushScope (.classBody c)
      | none => pure ()
      pushScope .function
      b.checkStatements f
      let scope ← popScope
      if b.cls.isSome then do let _ ← popScope
      b.attachScope f scope
      log (.definedFunction b.name b.ty)

end FunctionBody

/-- How a definition relates to what was declared before: the function that the body belongs
to, the class around it, and whether the body becomes that of the function. -/
structure Definition where
  ty : Ty
  cls : Option ClassRef := none
  attach : Bool

/-- Records that a function is defined a second time. -/
def redefine (name : DeclaredName) (ty : Ty) (cls : Option ClassRef) : Check Definition := do
  report (.redeclaration name.qualified) name.position
  return { ty, cls, attach := false }

/-- Relates a definition with a plain name to the innermost scope. -/
def defineLocal (name : DeclaredName) (ty : Ty) : Check Definition := do
  let table ← symbols
  match table.lookupLocal? name.name with
  | some existing =>
      if sameSignature existing ty && !table.isDefined existing then
        return { ty := existing, attach := true }
      else redefine name ty none
  | none => return { ty := ← declareFunction name ty, attach := true }

/-- Relates a definition with a qualified name to the member of that name. -/
def defineMember (cls : Token) (name : DeclaredName) (ty : Ty) : Check Definition := do
  match ← resolveQualified cls name with
  | some (c, some member) =>
      if !sameSignature member ty then
        report (.typeMismatch member.render ty.render) name.position
        return { ty, cls := some c, attach := false }
      else if (← symbols).isDefined member then redefine name ty (some c)
      else return { ty := member, cls := some c, attach := true }
  | some (c, none) => return { ty, cls := some c, attach := false }
  | none => return { ty, attach := false }

namespace Clause

/-- The parts of a function definition: specifiers, declarator, member initializers, body. -/
def functionParts (c : Clause) :
    Check (Option Phrase × Phrase × Option Phrase × Phrase) :=
  match c.rule with
  | .functionDef => return (c.part? 0, ← c.part 1, none, ← c.part 2)
  | .constructorDef => return (none, ← c.part 0, some (← c.part 1), ← c.part 2)
  | _ => c.unexpected "function definition"

/-- Declares the function that a definition introduces, and leaves its body to be checked. -/
def declareFunctionDef (c : Clause) : Check FunctionBody := do
  let (specifiers, declarator, ctorInit, body) ← c.functionParts
  let base ← checkSpecifiers? specifiers
  let declared ← declarator.roles.declarator base
  match declared.name, declared.parameters, declared.ty.function? with
  | some name, some parameters, some _ => do
      let definition ← match name.cls with
        | some cls => defineMember cls name declared.ty
        | none => defineLocal name declared.ty
      return {
        name := name.qualified, ty := definition.ty, parameters, cls := definition.cls
        ctorInit, body, attach := definition.attach }
  | _, _, _ => declarator.unexpected "function declarator"

/-- A function definition. -/
def functionDefinition (c : Clause) : Check Unit := do
  (← c.declareFunctionDef).check

/-- The meaning of a declaration. -/
def declaration (c : Clause) : Check Unit :=
  match c.rule with
  | .declSeq => c.items.forM fun item => item.roles.declaration
  | .simpleDecl => c.simpleDeclaration
  | .functionDef | .constructorDef => c.functionDefinition
  | _ => c.unexpected "declaration"

end Clause

end CWithClasses
