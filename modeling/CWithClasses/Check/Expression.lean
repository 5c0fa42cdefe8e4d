import CWithClasses.Check.Call
import CWithClasses.Check.Declarator
import CWithClasses.Check.Operator

/-!
# Expressions

The rules for expressions: the operands are checked from left to right, and their types decide
the type of the whole.
-/

namespace CWithClasses

open Check

/-- The type of a constant. -/
def Token.constantTy? (t : Token) : Option Ty :=
  match t.kind with
  | .intConst => some .int
  | .floatConst => some .double
  | .charConst => some .char
  | .stringLit => some (.pointer .char)
  | .trueConst | .falseConst => some .bool
  | _ => none

/-- The type of a name. Every use of a name is recorded, also of one that is not declared. -/
def resolveName (name : Token) : Check Ty := do
  let ty ← match (← symbols).lookup? name.text with
    | some ty => pure ty
    | none => reject (.unknownIdentifier name.text) name.position
  resolve name.text name.position ty
  return ty

namespace Clause

/-- A literal. -/
def literal (c : Clause) : Check Ty := do
  match (← c.node.literalToken).constantTy? with
  | some ty => return ty
  | none => c.unexpected "literal"

/-- A leaf: a constant or a name. -/
def leaf (c : Clause) : Check Ty := do
  let t ← c.node.leafToken
  match t.constantTy? with
  | some ty => return ty
  | none => if t.kind.isName then resolveName t else c.unexpected "expression"

/-- A member that is named through its class. -/
def qualifiedId (c : Clause) : Check Ty := do
  let cls? ← resolveClass (← (← c.part 0).node.nameToken)
  let member ← (← c.part 1).node.leafToken
  match cls? with
  | some cls => resolveMember cls member
  | none => return .unknown

/-- An increment or a decrement. -/
def step (c : Clause) : Check Ty := do
  stepType (← (← c.part 0).roles.expression) c.position

/-- A member of a base whose type is known. -/
def memberOf (c : Clause) (base : Ty) (member : Token) : Check Ty :=
  if base.isUnknown then return base
  else if c.rule = .arrowField then
    match base.decay with
    | .pointer (.object cls) => resolveMember cls member
    | _ => mismatch "pointer to class" base.decay c.position
  else
    match base with
    | .object cls => resolveMember cls member
    | _ => mismatch "class" base c.position

/-- A member of an object, or of the object that a pointer leads to. -/
def memberAccess (c : Clause) : Check Ty := do
  let base ← (← c.part 0).roles.expression
  let member ← (← c.part 1).node.leafToken
  c.memberOf base member

/-- An element of an array. -/
def index (c : Clause) : Check Ty := do
  let base ← (← c.part 0).roles.expression
  let i ← c.part 1
  checkIntegral (← i.roles.expression) i.position
  indexType base c.position

/-- A call whose arguments have been checked. -/
def callOf (c : Clause) (callee : Ty) (arguments : List Argument) : Check Ty :=
  if callee.isUnknown then return callee
  else
    match callee.asFunction? with
    | some f => do
        checkCall f arguments c.position
        return f.result
    | none => mismatch "function" callee c.position

/-- A call. -/
def call (c : Clause) : Check Ty := do
  let callee ← (← c.part 0).roles.expression
  let arguments ← checkArguments (c.part? 1)
  c.callOf callee arguments

/-- The conversion of at most one value to a type that is no class. -/
def convert (c : Clause) : List Argument → Check Unit
  | [] => return
  | [argument] =>
      unless argument.ty.isArithmetic || argument.ty.isUnknown do
        report (.typeMismatch "arithmetic type" argument.ty.render) argument.position
  | arguments => report (.arityMismatch "0 to 1" arguments.length) c.position

/-- A cast that is written like a call. -/
def cast (c : Clause) : Check Ty := do
  let ty ← (← c.part 0).specifiers
  let arguments ← checkArguments (c.part? 1)
  if ty.isUnknown then return ty
  else do
    match ty.asClass? with
    | some cls => checkConstructor cls arguments c.position
    | none => c.convert arguments
    return ty

/-- A unary operator with an operand. -/
def unary (c : Clause) : Check Ty := do
  unaryType c.rule (← (← c.part 0).roles.expression) c.position

/-- The type that a new-expression allocates. -/
def allocated (p : Phrase) : Check Ty :=
  if p.rule = .newTypeId then do
    let base ← (← p.part 0).specifiers
    match p.part? 1 with
    | some d => d.roles.newDeclarator base
    | none => return base
  else p.typeName

/-- A new-expression. An object of a class is always constructed. -/
def newExpr (c : Clause) : Check Ty := do
  let ty ← allocated (← c.part 0)
  let arguments ← checkArguments (c.part? 1)
  if (c.part? 1).isSome then checkConstruction ty arguments c.position
  else
    match ty.objectClass? with
    | some cls => checkConstructor cls [] c.position
    | none => pure ()
  return .pointer ty

/-- The deletion of an operand. -/
def deleteOf (c : Clause) (operand : Ty) : Check Ty :=
  if operand.isPointer || operand.isUnknown then return .void
  else mismatch "pointer" operand c.position

/-- A delete-expression. -/
def deleteExpr (c : Clause) : Check Ty := do
  c.deleteOf (← (← c.part 0).roles.expression)

/-- An operator on pointers to members. -/
def memberPointer (c : Clause) : Check Ty := do
  let _ ← (← c.part 0).roles.expression
  let _ ← (← c.part 1).roles.expression
  reject (.unsupported (if c.rule = .dotMemberPointer then ".*" else "->*")) c.position

/-- A binary operator. -/
def binary (c : Clause) (kind : BinaryKind) : Check Ty := do
  let lhs ← (← c.part 0).roles.expression
  let rhs ← (← c.part 1).roles.expression
  binaryType kind c.rule lhs rhs c.position

/-- A type that is used as a truth value. -/
def checkTruth (condition : Ty) (position : Position) : Check Unit :=
  unless condition.isScalar || condition.isUnknown do
    report (.typeMismatch "bool" condition.render) position

/-- The type of two branches. -/
def branches (c : Clause) (yes no : Ty) : Check Ty :=
  match commonType? yes no with
  | some ty => return ty
  | none => reject (.typeMismatch yes.render no.render) c.position

/-- A conditional expression. -/
def conditional (c : Clause) : Check Ty := do
  let test ← c.part 0
  checkTruth (← test.roles.expression) test.position
  let yes ← (← c.part 1).roles.expression
  let no ← (← c.part 2).roles.expression
  c.branches yes no

/-- An assignment between operands whose types are known. -/
def assign (c : Clause) (operator : Token) (target value : Position) (lhs rhs : Ty) : Check Ty :=
  if lhs.isUnknown then return lhs
  else if !lhs.isAssignable then mismatch "assignable value" lhs target
  else if rhs.isUnknown then return lhs
  else
    match operator.kind.assignKind? with
    | none => c.unexpected "assignment operator"
    | some kind =>
        if kind.accepts lhs rhs then return lhs
        else reject (.typeMismatch lhs.render rhs.render) value

/-- An assignment. -/
def assignment (c : Clause) : Check Ty := do
  let target ← c.part 0
  let lhs ← target.roles.expression
  let operator ← (← c.part 1).node.leafToken
  let value ← c.part 2
  let rhs ← value.roles.expression
  c.assign operator target.position value.position lhs rhs

/-- Two expressions, of which the second one counts. -/
def comma (c : Clause) : Check Ty := do
  let _ ← (← c.part 0).roles.expression
  (← c.part 1).roles.expression

/-- The meaning of an expression. -/
def expression (c : Clause) : Check Ty :=
  match c.rule with
  | .literal => c.literal
  | .token => c.leaf
  | .qualifiedId => c.qualifiedId
  | .index => c.index
  | .call => c.call
  | .cast => c.cast
  | .dotField | .arrowField => c.memberAccess
  | .postIncrement | .postDecrement | .preIncrement | .preDecrement => c.step
  | .sizeofType => do
      let _ ← (← c.part 0).typeName
      return .int
  | .dereference | .addressOf | .unaryPlus | .unaryMinus | .logicalNot | .complement
  | .sizeofExpr => c.unary
  | .newExpr => c.newExpr
  | .deleteObject | .deleteArray => c.deleteExpr
  | .dotMemberPointer | .arrowMemberPointer => c.memberPointer
  | .conditional => c.conditional
  | .assignment => c.assignment
  | .comma => c.comma
  | .exprList => c.items.foldlM (fun _ item => item.roles.expression) .void
  | rule =>
      match rule.category with
      | .binary kind => c.binary kind
      | _ => c.unexpected "expression"

end Clause

end CWithClasses
