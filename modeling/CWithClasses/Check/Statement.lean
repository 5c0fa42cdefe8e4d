import CWithClasses.Check.Declaration
import CWithClasses.Check.Operator

/-!
# Statements

Statements open scopes, count the loops and switches around them, and check that jumps have
something to jump out of.
-/

namespace CWithClasses

open Check

/-- Records a jump that has nothing to apply to. -/
def illegalJump (statement : String) (position : Position) : Check Unit :=
  report (.illegalJump statement) position

/-- What a condition has to be: an integer for a switch, a truth value for all else. -/
inductive ConditionKind where
  | truth
  | integer

namespace ConditionKind

/-- Whether a type will do. Streams have a truth value too. -/
def accepts (kind : ConditionKind) (ty : Ty) : Bool :=
  ty.isUnknown ||
    match kind with
    | integer => ty.isIntegral
    | truth => ty.isScalar || ty.isStream

/-- The type that a mismatch asks for. -/
def expected : ConditionKind → String
  | integer => "int"
  | truth => "bool"

end ConditionKind

namespace Phrase

/-- The type of a condition, which may declare a variable. -/
def conditionType (p : Phrase) : Check Ty :=
  if p.rule = .conditionDecl then do
    let base ← (← p.part 0).specifiers
    let declarator ← p.part 1
    let init ← p.part 2
    declarator.initDeclarator base (some init)
  else p.roles.expression

/-- Checks a condition. What it declares lands in the innermost scope. -/
def condition (p : Phrase) (kind : ConditionKind) : Check Unit := do
  let ty ← p.conditionType
  unless kind.accepts ty do
    report (.typeMismatch kind.expected ty.render) p.position

/-- Checks the body of a loop. -/
def loopBody (p : Phrase) : Check Unit := nested 1 0 p.roles.statement

end Phrase

/-- Checks the statements of an optional sequence. -/
def checkStatements (p : Option Phrase) : Check Unit :=
  (Phrase.flatten? p).forM fun statement => statement.roles.statement

/-- Checks an optional statement. -/
def checkStatement? : Option Phrase → Check Unit
  | some p => p.roles.statement
  | none => return

/-- Checks an optional condition of a loop. -/
def checkCondition? : Option Phrase → Check Unit
  | some p => p.condition .truth
  | none => return

/-- Checks an optional expression whose value does not matter. -/
def checkExpression? : Option Phrase → Check Unit
  | some p => do let _ ← p.roles.expression
  | none => return

namespace Clause

/-- A conditional statement. -/
def ifStatement (c : Clause) : Check Unit :=
  inScope .block do
    (← c.part 0).condition .truth
    (← c.part 1).roles.statement
    if c.rule = .ifElse then (← c.part 2).roles.statement

/-- A switch without a body. The switch is counted before the fault is met. -/
def missingBody (c : Clause) : Check Unit := do
  modify (·.nested 0 1)
  throw (c.node.missing 1)

/-- Checks the body of a switch. -/
def switchBody (c : Clause) : Check Unit :=
  match c.part? 1 with
  | some body => nested 0 1 body.roles.statement
  | none => c.missingBody

/-- A switch. -/
def switchStatement (c : Clause) : Check Unit :=
  inScope .block do
    (← c.part 0).condition .integer
    c.switchBody

/-- A loop with its condition in front. -/
def whileStatement (c : Clause) : Check Unit :=
  inScope .block do
    (← c.part 0).condition .truth
    (← c.part 1).loopBody

/-- A loop with its condition at the end. It opens no scope. -/
def doWhileStatement (c : Clause) : Check Unit := do
  (← c.part 0).loopBody
  (← c.part 1).condition .truth

/-- A loop with all its controls in front. -/
def forStatement (c : Clause) : Check Unit :=
  inScope .block do
    checkStatement? (c.part? 0)
    checkCondition? (c.part? 1)
    checkExpression? (c.part? 2)
    (← c.part 3).loopBody

/-- A case label, with the statement that it stands before. -/
def caseLabel (c : Clause) : Check Unit := do
  if (← get).switches = 0 then illegalJump "case" c.position
  let label ← c.part 0
  checkIntegral (← label.roles.expression) label.position
  checkStatement? (c.part? 1)

/-- A default label, with the statement that it stands before. -/
def defaultLabel (c : Clause) : Check Unit := do
  if (← get).switches = 0 then illegalJump "default" c.position
  checkStatement? (c.part? 0)

/-- Whether a returned value fits the result type of the function. -/
def returns (expected received : Ty) : Bool :=
  if expected.isVoid then received.isVoid
  else !received.isVoid && compatible expected received

/-- Checks a returned value, if there is one, against the result type of the function. -/
def checkReturn (expected : Ty) (value : Option (Ty × Position)) (position : Position) :
    Check Unit :=
  if expected.isUnknown then return
  else
    match value with
    | none =>
        unless expected.isVoid do
          report (.returnMismatch expected.render Ty.void.render) position
    | some (ty, place) =>
        unless ty.isUnknown || returns expected ty do
          report (.returnMismatch expected.render ty.render) place

/-- Checks a returned value against the function around the statement. -/
def checkReturned (value : Option (Ty × Position)) (position : Position) : Check Unit := do
  match (← get).returns.head? with
  | none => illegalJump "return" position
  | some expected => checkReturn expected value position

/-- A return. -/
def returnStatement (c : Clause) : Check Unit :=
  match c.part? 0 with
  | some p => do checkReturned (some (← p.roles.expression, p.position)) c.position
  | none => checkReturned none c.position

/-- The meaning of a statement, which may be a declaration or an expression. -/
def statement (c : Clause) (expression : Check Ty) (declaration : Check Unit) : Check Unit :=
  match c.rule with
  | .compound => inScope .block (checkStatements (c.part? 0))
  | .statementSeqStart | .statementSeq => c.items.forM fun item => item.roles.statement
  | .ifThen | .ifElse => c.ifStatement
  | .switchOn => c.switchStatement
  | .whileLoop => c.whileStatement
  | .doWhileLoop => c.doWhileStatement
  | .forLoop => c.forStatement
  | .caseLabel => c.caseLabel
  | .defaultLabel => c.defaultLabel
  | .breakJump => do
      let s ← get
      if s.loops + s.switches = 0 then illegalJump "break" c.position
  | .continueJump => do
      if (← get).loops = 0 then illegalJump "continue" c.position
  | .returnJump => c.returnStatement
  | rule =>
      match rule.category with
      | .declaration => declaration
      | .program | .statement | .specifier | .declarator | .parameter | .function
      | .initializer | .classPart => c.unexpected "statement"
      | _ => do let _ ← expression

end Clause

end CWithClasses
