import CWithClasses.Proofs.Logic.Class

/-!
# Statements in a step logic

Statements may depend on the loops, switches and functions around them, but only through the
counts and result types that the state keeps of these.
-/

namespace CWithClasses

/-- The statements that open a scope of their own. -/
def Rule.opensScope : Rule → Bool
  | .compound | .ifThen | .ifElse | .switchOn | .whileLoop | .forLoop => true
  | _ => false

namespace StepLogic

open Check

variable (L : StepLogic) {p : Prop} {c : Clause} {q : Phrase}

/-- A step that reads nothing of the state but its loops, switches and functions. -/
theorem readNesting {α : Type} {f : Checker → Check α} {Q : α → Prop}
    (hreads : ∀ s, f s = f { loops := s.loops, switches := s.switches, returns := s.returns })
    (hf : ∀ s, L.triple p (f s) Q) : L.triple p (get >>= f) Q := by
  have heq : f = fun s => f { loops := s.loops, switches := s.switches, returns := s.returns } :=
    funext hreads
  rw [heq]
  exact L.nesting (k := fun loops switches returns => f { loops, switches, returns })
    fun _ _ _ => hf _

/-- A jump that has nothing to apply to is reported. -/
theorem illegalJump (h : L.statements) (statement : String) (position : Position) :
    L.triple p (CWithClasses.illegalJump statement position) fun _ => True :=
  L.post (L.report _ _ fun _ => h) fun _ _ _ => trivial

/-! ### Conditions -/

/-- The phrase is sound as a condition. -/
def Condition (q : Phrase) : Prop :=
  ∀ (p : Prop) (kind : ConditionKind), L.triple p (q.condition kind) fun _ => True

/-- A condition is an expression, or declares a variable. -/
theorem condition
    (hdeclares : q.rule = .conditionDecl → L.Has q.clause 0 (Phrase.Each L.Specifier) ∧
      L.Has q.clause 1 L.NamedDeclarator ∧ L.Has q.clause 2 L.Initializer)
    (hother : q.rule ≠ .conditionDecl → L.Expression q) : L.Condition q := by
  intro p kind
  have htype : L.triple p q.conditionType Ty.Known := by
    unfold Phrase.conditionType
    split
    next hrule =>
      obtain ⟨hspecifiers, hdeclarator, hinit⟩ := hdeclares hrule
      refine L.part hspecifiers fun r hr => ?_
      refine L.bind (L.specifiers hr) fun base => ?_
      refine L.part hdeclarator fun d hd => ?_
      refine L.part hinit fun i hi => ?_
      exact L.initDeclarator hd (fun j hj => Option.some.inj hj ▸ hi) And.right
    next hrule => exact hother hrule p
  unfold Phrase.condition
  refine L.next htype fun ty => ?_
  exact L.skipIf (L.report _ _ (by nofun)) (L.ret _ fun _ => trivial)

/-! ### Blocks and branches -/

/-- The step runs a sound one in a block of its own. -/
def Scoped (x : Check Unit) : Prop :=
  ∃ body, x = Check.inScope .block body ∧ ∀ p, L.triple p body fun _ => True

/-- A step in a block of its own is sound. -/
theorem Scoped.triple {L : StepLogic} {x : Check Unit} (h : L.Scoped x) :
    L.triple p x fun _ => True := by
  obtain ⟨body, rfl, hbody⟩ := h
  exact L.inBlock (hbody p)

/-- An optional statement. -/
theorem checkStatement {q : Option Phrase} (h : ∀ r, q = some r → L.Statement r) :
    L.triple p (checkStatement? q) fun _ => True := by
  cases q with
  | none => exact L.ret _ fun _ => trivial
  | some r => exact h r rfl p

/-- A block. -/
theorem block {q : Option Phrase} (h : ∀ r, q = some r → r.Each L.Statement) :
    L.Scoped (Check.inScope .block (checkStatements q)) := by
  refine ⟨_, rfl, fun p => ?_⟩
  unfold checkStatements
  exact L.forM fun item hitem => Phrase.Each.of_mem h hitem p

/-- A conditional statement. -/
theorem ifStatement (hcondition : L.Has c 0 L.Condition) (hthen : L.Has c 1 L.Statement)
    (helse : c.rule = .ifElse → L.Has c 2 L.Statement) : L.Scoped c.ifStatement := by
  refine ⟨_, rfl, fun p => ?_⟩
  refine L.part hcondition fun q hq => ?_
  refine L.next (hq p _) fun _ => ?_
  refine L.part hthen fun q hq => ?_
  refine L.next (hq p) fun _ => ?_
  split
  next hrule => exact L.part (helse hrule) fun q hq => hq p
  next => exact L.ret _ fun _ => trivial

/-- A switch. -/
theorem switchStatement (hrule : c.rule = .switchOn) (hcondition : L.Has c 0 L.Condition)
    (hbody : L.Has c 1 L.Statement) : L.Scoped c.switchStatement := by
  refine ⟨_, rfl, fun p => ?_⟩
  refine L.part hcondition fun q hq => ?_
  refine L.next (hq p _) fun _ => ?_
  unfold Clause.switchBody
  split
  next body h => exact L.nested 0 1 (hbody.part body h p)
  next h => exact L.missingBody hrule (hbody.missing h)

/-! ### Loops -/

/-- A loop with its condition in front. -/
theorem whileStatement (hcondition : L.Has c 0 L.Condition) (hbody : L.Has c 1 L.Statement) :
    L.Scoped c.whileStatement := by
  refine ⟨_, rfl, fun p => ?_⟩
  refine L.part hcondition fun q hq => ?_
  refine L.next (hq p _) fun _ => ?_
  exact L.part hbody fun body h => L.nested 1 0 (h p)

/-- A loop with its condition at the end. -/
theorem doWhileStatement (hbody : L.Has c 0 L.Statement) (hcondition : L.Has c 1 L.Condition) :
    L.triple p c.doWhileStatement fun _ => True := by
  unfold Clause.doWhileStatement
  refine L.part hbody fun body h => ?_
  refine L.next (L.nested 1 0 (h p)) fun _ => ?_
  exact L.part hcondition fun q hq => hq p _

/-- An optional condition of a loop. -/
theorem checkCondition {q : Option Phrase} (h : ∀ r, q = some r → L.Condition r) :
    L.triple p (checkCondition? q) fun _ => True := by
  cases q with
  | none => exact L.ret _ fun _ => trivial
  | some r => exact h r rfl p _

/-- An optional expression whose value does not matter. -/
theorem checkExpression {q : Option Phrase} (h : ∀ r, q = some r → L.Expression r) :
    L.triple p (checkExpression? q) fun _ => True := by
  cases q with
  | none => exact L.ret _ fun _ => trivial
  | some r => exact L.next (h r rfl p) fun _ => L.ret _ fun _ => trivial

/-- A loop with all its controls in front, of which each may be left out. -/
theorem forStatement (hinit : ∀ q, c.part? 0 = some q → L.Statement q)
    (hcondition : ∀ q, c.part? 1 = some q → L.Condition q)
    (hstep : ∀ q, c.part? 2 = some q → L.Expression q) (hbody : L.Has c 3 L.Statement) :
    L.Scoped c.forStatement := by
  refine ⟨_, rfl, fun p => ?_⟩
  refine L.next (L.checkStatement hinit) fun _ => ?_
  refine L.next (L.checkCondition hcondition) fun _ => ?_
  refine L.next (L.checkExpression hstep) fun _ => ?_
  exact L.part hbody fun body h => L.nested 1 0 (h p)

/-! ### Labels and jumps -/

/-- A case label. -/
theorem caseLabel (h : L.statements) (hlabel : L.Has c 0 L.Expression)
    (hstatement : ∀ q, c.part? 1 = some q → L.Statement q) :
    L.triple p c.caseLabel fun _ => True := by
  unfold Clause.caseLabel
  refine L.readNesting (fun _ => rfl) fun s => ?_
  refine L.doIf (L.illegalJump h _ _) ?_
  refine L.part hlabel fun label h => ?_
  refine L.next (h p) fun ty => ?_
  exact L.next (L.looks (.checkIntegral ty _)) fun _ => L.checkStatement hstatement

/-- A default label. -/
theorem defaultLabel (h : L.statements) (hstatement : ∀ q, c.part? 0 = some q → L.Statement q) :
    L.triple p c.defaultLabel fun _ => True := by
  unfold Clause.defaultLabel
  refine L.readNesting (fun _ => rfl) fun s => ?_
  exact L.doIf (L.illegalJump h _ _) (L.checkStatement hstatement)

/-- A step that records a jump under a condition. -/
theorem jump (h : L.statements) {b : Prop} [Decidable b] (statement : String)
    (position : Position) :
    L.triple p (if b then CWithClasses.illegalJump statement position else return)
      fun _ => True := by
  split
  · exact L.illegalJump h _ _
  · exact L.ret _ fun _ => trivial

/-- Returning from the function around a statement, if there is one. -/
theorem checkReturned (h : L.statements) (value : Option (Ty × Position)) (position : Position) :
    L.triple p (Clause.checkReturned value position) fun _ => True := by
  unfold Clause.checkReturned
  refine L.readNesting (fun _ => rfl) fun s => ?_
  split
  · exact L.illegalJump h _ _
  · exact L.looks (.checkReturn _ _ _)

/-- A return, with a value or without one. -/
theorem returnStatement (h : L.statements)
    (hvalue : ∀ q, c.part? 0 = some q → L.Expression q) :
    L.triple p c.returnStatement fun _ => True := by
  unfold Clause.returnStatement
  split
  next q hq => exact L.next (hvalue q hq p) fun ty => L.checkReturned h _ _
  next => exact L.checkReturned h none _

/-- An expression as a statement. -/
theorem expressionStatement {expression : Check Ty} (h : L.triple p expression Ty.Known) :
    L.triple p (do let _ ← expression) fun _ => True :=
  L.next h fun _ => L.ret _ fun _ => trivial

end StepLogic

end CWithClasses
