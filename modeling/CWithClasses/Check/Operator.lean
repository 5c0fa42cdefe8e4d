import CWithClasses.Check.Checker
import CWithClasses.Tree.Rule
import CWithClasses.Type.Compatible

/-!
# Operators

The type of an operator applied to operands whose types are known. An operand of unknown type
has been reported before, so it never gives rise to another report.
-/

namespace CWithClasses

open Check

/-- The type of an increment or a decrement. -/
def stepType (operand : Ty) (position : Position) : Check Ty :=
  if operand.isUnknown || operand.isArithmetic || operand.isPointer then return operand
  else mismatch "arithmetic or pointer type" operand position

/-- The type of an element of an array, or of what a pointer leads to. -/
def indexType (base : Ty) (position : Position) : Check Ty :=
  if base.isUnknown then return base
  else
    match base.pointee? with
    | some element => return element
    | none => mismatch "pointer or array" base position

/-- The type of a unary operator that is applied to an operand of unknown type. -/
def unknownOperand (rule : Rule) (operand : Ty) : Ty :=
  match rule with
  | .sizeofExpr => .int
  | .logicalNot => .bool
  | _ => operand

/-- The type of a unary operator. The production has to be one of a unary operator. -/
def unaryType (rule : Rule) (operand : Ty) (position : Position) : Check Ty :=
  if operand.isUnknown then return unknownOperand rule operand
  else
    match rule with
    | .dereference =>
        match operand.pointee? with
        | some target => return target
        | none => mismatch "pointer" operand position
    | .addressOf => return .pointer operand
    | .unaryPlus | .unaryMinus =>
        if operand.isArithmetic then return promote operand
        else mismatch "arithmetic type" operand position
    | .logicalNot =>
        if operand.isScalar then return .bool else mismatch "scalar type" operand position
    | .complement =>
        if operand.isIntegral then return promote operand
        else mismatch "integral type" operand position
    | _ => return .int

/-- The sum, difference, product or quotient of arithmetic values. -/
def commonOperands (lhs rhs : Ty) (position : Position) : Check Ty :=
  match commonArithmetic? lhs rhs with
  | some ty => return ty
  | none => mismatch "arithmetic type" (if lhs.isArithmetic then rhs else lhs) position

/-- The type of `+`, `-`, `*` or `/`. A pointer may be moved by an integer, and two pointers of
the same type may be subtracted. -/
def arithmeticType (rule : Rule) (lhs rhs : Ty) (position : Position) : Check Ty :=
  let left := lhs.decay
  let right := rhs.decay
  if (rule = .add ∨ rule = .subtract) ∧ left.isPointer ∧ right.isIntegral then return left
  else if rule = .add ∧ left.isIntegral ∧ right.isPointer then return right
  else if rule = .subtract ∧ left.isPointer ∧ right.isPointer then
    if sameType left right then return .int
    else reject (.typeMismatch left.render right.render) position
  else commonOperands lhs rhs position

/-- The type of an operator on integers. Shifts of a stream read from it or write to it. -/
def integralType (rule : Rule) (lhs rhs : Ty) (position : Position) : Check Ty :=
  if (rule = .shiftLeft ∨ rule = .shiftRight) ∧ lhs.isStream then return lhs
  else
    match commonArithmetic? lhs rhs with
    | some ty =>
        if lhs.isIntegral && rhs.isIntegral then return ty
        else mismatch "integral type" (if lhs.isIntegral then rhs else lhs) position
    | none => mismatch "integral type" (if lhs.isIntegral then rhs else lhs) position

/-- The type of a binary operator with an operand of unknown type. -/
def unknownOperands (kind : BinaryKind) (lhs : Ty) : Ty :=
  match kind with
  | .relational | .logical => .bool
  | _ => if lhs.isStream then lhs else .unknown

/-- The type of a binary operator. -/
def binaryType (kind : BinaryKind) (rule : Rule) (lhs rhs : Ty) (position : Position) :
    Check Ty :=
  if lhs.isUnknown || rhs.isUnknown then return unknownOperands kind lhs
  else
    match kind with
    | .arithmetic => arithmeticType rule lhs rhs position
    | .integral => integralType rule lhs rhs position
    | .relational =>
        if comparable lhs rhs then return .bool
        else reject (.typeMismatch lhs.render rhs.render) position
    | .logical =>
        if lhs.isScalar && rhs.isScalar then return .bool
        else mismatch "scalar type" (if lhs.isScalar then rhs else lhs) position

/-- What an assignment does with its operands. -/
inductive AssignKind where
  | replace
  | additive
  | multiplicative
  | integral

/-- The kind of an assignment operator. -/
def TokenKind.assignKind? : TokenKind → Option AssignKind
  | .assign => some .replace
  | .addAssign | .subAssign => some .additive
  | .mulAssign | .divAssign => some .multiplicative
  | .modAssign | .shlAssign | .shrAssign | .andAssign | .xorAssign | .orAssign =>
      some .integral
  | _ => none

/-- Whether the operands of an assignment go together. -/
def AssignKind.accepts (kind : AssignKind) (lhs rhs : Ty) : Bool :=
  match kind with
  | replace => compatible lhs rhs
  | additive => (lhs.isPointer && rhs.isIntegral) || (lhs.isArithmetic && rhs.isArithmetic)
  | multiplicative => lhs.isArithmetic && rhs.isArithmetic
  | integral => lhs.isIntegral && rhs.isIntegral

/-- Whether a type can stand on the left of an assignment: neither arrays nor functions can. -/
def Ty.isAssignable : Ty → Bool
  | .array _ _ | .function _ _ _ _ => false
  | _ => true

end CWithClasses
