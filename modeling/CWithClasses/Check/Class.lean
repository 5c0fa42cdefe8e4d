import CWithClasses.Check.Function

/-!
# Classes

The members of a class body are declared in order, each in the table of the access region that
it stands in. The bodies of its functions are checked at the end, so that they see all members.
-/

namespace CWithClasses

open Check

/-- The access region at the start of a class body. -/
def TokenKind.defaultAccess : TokenKind → Access
  | .classKey => .priv
  | _ => .pub

/-- The access region that a keyword opens. Without inheritance, protected members are
private. -/
def TokenKind.access? : TokenKind → Option Access
  | .publicAccess => some .pub
  | .privateAccess | .protectedAccess => some .priv
  | _ => none

/-- The class that a class head opens. A class that was only declared in this scope is
completed; any other meaning of the name is a redeclaration. -/
def openClass (name : Token) : Check ClassRef := do
  let table ← symbols
  match table.lookupLocal? name.text with
  | none => declareClass name.text name.position
  | some existing =>
      match existing.objectClass?.filter fun c => !table.isComplete c with
      | some c => return c
      | none => do
          report (.redeclaration name.text) name.position
          newClass name.text

/-- The class of a class head, which may be without a name. -/
def Phrase.classHead (p : Phrase) : Check ClassRef :=
  match p.rule with
  | .classHead => do openClass (← (← p.part 1).node.leafToken)
  | .anonymousHead => newClass "<anonymous>"
  | _ => p.unexpected "class head"

namespace Phrase

/-- A bit field has an integral type and an integral width. -/
def bitField (p : Phrase) (base : Ty) : Check Unit := do
  let width ← p.part 1
  let ty ← width.roles.expression
  checkIntegral base p.position
  checkIntegral ty width.position
  match p.part? 0 with
  | some name => do let _ ← name.initDeclarator base none
  | none => return

/-- Declares one member. -/
def memberDeclarator (p : Phrase) (base : Ty) : Check Unit :=
  match p.rule with
  | .pureMember => do let _ ← (← p.part 0).initDeclarator base none
  | .initializedMember => do
      let name ← p.part 0
      let init ← p.part 1
      let _ ← name.initDeclarator base (some init)
  | .bitField => p.bitField base
  | _ => do let _ ← p.initDeclarator base none

/-- Declares what one member declaration introduces, and returns the body that is still to be
checked if it is a function definition. -/
def memberDeclaration (p : Phrase) : Check (List FunctionBody) :=
  match p.rule with
  | .functionDef | .constructorDef => return [← p.clause.declareFunctionDef]
  | .memberDecl => do
      let base ← checkSpecifiers? (p.part? 0)
      (Phrase.flatten? (p.part? 1)).forM fun item => item.memberDeclarator base
      return []
  | .simpleDecl => do
      p.clause.simpleDeclaration
      return []
  | _ => p.unexpected "member declaration"

/-- Reads one link of a member specification: a member declaration or an access specifier. -/
def memberLink (p : Phrase) : Check (List FunctionBody) :=
  match p.rule with
  | .memberSpec => do (← p.part 0).memberDeclaration
  | .accessSpec => do
      match (← (← p.part 0).node.leafToken).kind.access? with
      | some access => do
          modifySymbols (·.setAccess access)
          return []
      | none => p.unexpected "access specifier"
  | _ => p.memberDeclaration

/-- Reads a member specification, and returns the bodies that are still to be checked. -/
def members : Option Phrase → Check (List FunctionBody)
  | none => return []
  | some p => return (← p.memberLinks.mapM memberLink).flatten

end Phrase

/-- A class specification. -/
def Clause.classSpec (c : Clause) : Check Ty := do
  let head ← c.part 0
  let key ← (← head.part 0).node.leafToken
  if !key.kind.isClassKey then head.unexpected "class head"
  else do
    let cls ← head.classHead
    pushScope (.classBody cls)
    modifySymbols (·.setAccess key.kind.defaultAccess)
    let bodies ← Phrase.members (c.part? 1)
    modifySymbols (·.markComplete cls)
    bodies.forM FunctionBody.check
    dropScope
    let body := (← symbols).classBody cls
    log (.definedClass (.object cls) body.publicMembers.length body.privateMembers.length)
    return .object cls

end CWithClasses
