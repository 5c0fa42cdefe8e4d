import CWithClasses.Proofs.Pairs.Expression

/-!
# Two runs of a statement

Statements open blocks, count loops and switches, and jump. What `StatementPairs` asks about these
is asked of a whole block, loop or switch, so that nothing needs to be known about a state between
its opening and its end. Conditions may declare variables, and what two runs have in common then
differs from one property to another, so they are left open.
-/

namespace CWithClasses

open Check

/-- States with the same loops and switches around them, in functions with related results. -/
structure Checker.Encloses (ty : Ty → Ty → Prop) (s s' : Checker) : Prop where
  loops : s'.loops = s.loops
  switches : s'.switches = s.switches
  returns : List.Forall₂ ty s.returns s'.returns

/-- Every state is enclosed like itself. -/
theorem Checker.Encloses.refl {ty : Ty → Ty → Prop} (hty : ∀ a, ty a a) (s : Checker) :
    s.Encloses ty s :=
  ⟨rfl, rfl, List.forall₂_same.mpr fun a _ => hty a⟩

/-- What has to be shown of blocks, loops and switches. -/
structure PairRules.Nests (L : PairRules) (ty : Ty → Ty → Prop) : Prop where
  /-- A step may depend on the loops, switches and functions around it. -/
  read : ∀ {α β : Type} {k : Checker → Check α} {k' : Checker → Check β} {R : α → β → Prop},
    (∀ s s', s.Encloses ty s' → L.pair (k s) (k' s') R) → L.pair (get >>= k) (get >>= k') R
  block : ∀ {x y : Check Unit}, L.pair x y (fun _ _ => True) →
    L.pair (Check.inScope .block x) (Check.inScope .block y) fun _ _ => True
  nested : ∀ (loops switches : Nat) {x y : Check Unit}, L.pair x y (fun _ _ => True) →
    L.pair (Check.nested loops switches x) (Check.nested loops switches y) fun _ _ => True
  missingBody : ∀ c : Clause, L.pair c.missingBody c.missingBody fun _ _ => True

/-- What has to be shown of the steps of statements. -/
structure StatementPairs extends ExpressionPairs where
  nests : toPairRules.Nests ty
  illegalJump : ∀ (statement : String) (position : Position),
    pair (CWithClasses.illegalJump statement position)
      (CWithClasses.illegalJump statement position) fun _ _ => True
  checkReturn : ∀ {a b : Ty} {v w : Option (Ty × Position)} (position : Position), ty a b →
    Option.Rel (fun x y => ty x.1 y.1 ∧ y.2 = x.2) v w →
    pair (Clause.checkReturn a v position) (Clause.checkReturn b w position) fun _ _ => True

/-- The two runs of the phrase go together as an expression, as a condition and as a statement. -/
structure Phrase.Proceeds (L : StatementPairs) (q : Phrase) : Prop where
  expression : L.Expression q
  condition : ∀ kind, L.pair (q.condition kind) (q.condition kind) fun _ _ => True
  statement : L.pair q.roles.statement q.roles.statement fun _ _ => True

namespace StatementPairs

variable {L : StatementPairs} {c : Clause} {q : Option Phrase}

/-! ### Parts that may be left out -/

section Optional

variable (hq : ∀ r, q = some r → r.Throughout (Phrase.Proceeds L))

include hq

/-- A statement that may be left out. -/
theorem checkStatement : L.pair (checkStatement? q) (checkStatement? q) fun _ _ => True := by
  cases q with
  | none => exact L.ret trivial
  | some r => exact (hq r rfl).self.statement

/-- A condition that may be left out. -/
theorem checkCondition : L.pair (checkCondition? q) (checkCondition? q) fun _ _ => True := by
  cases q with
  | none => exact L.ret trivial
  | some r => exact (hq r rfl).self.condition .truth

/-- An expression that may be left out. -/
theorem checkExpression : L.pair (checkExpression? q) (checkExpression? q) fun _ _ => True := by
  cases q with
  | none => exact L.ret trivial
  | some r => exact L.seq (hq r rfl).self.expression fun _ _ _ => L.ret trivial

/-- The statements of a sequence. -/
theorem checkStatements :
    L.pair (CWithClasses.checkStatements q) (CWithClasses.checkStatements q) fun _ _ => True :=
  L.forM_same fun item hitem => (Phrase.throughout_flatten? hq item hitem).self.statement

end Optional

/-- The statements of a function body. -/
theorem functionBlock {p : Phrase} (hp : p.Throughout (Phrase.Proceeds L)) :
    L.pair p.functionBlock p.functionBlock fun _ _ => True := by
  unfold Phrase.functionBlock
  split
  · exact checkStatements fun _ hr => hp.part hr
  · exact hp.self.statement

/-! ### Jumps -/

/-- A jump that may have nothing to apply to. -/
theorem jump {b : Checker → Prop} [DecidablePred b] {x y : Check Unit}
    (hb : ∀ s s', s.Encloses L.ty s' → (b s ↔ b s')) (text : String) (position : Position)
    (hxy : L.pair x y fun _ _ => True) :
    L.pair (do if b (← get) then CWithClasses.illegalJump text position
               x)
      (do if b (← get) then CWithClasses.illegalJump text position
          y) fun _ _ => True := by
  refine L.nests.read fun s s' h => ?_
  by_cases hs : b s
  · rw [if_pos hs, if_pos ((hb s s' h).mp hs)]
    exact L.seq (L.illegalJump _ _) fun _ _ _ => hxy
  · rw [if_neg hs, if_neg (mt (hb s s' h).mpr hs)]
    exact hxy

/-- A value that is returned from the function around the statement. -/
theorem checkReturned {v w : Option (Ty × Position)}
    (hvalue : Option.Rel (fun x y => L.ty x.1 y.1 ∧ y.2 = x.2) v w) (position : Position) :
    L.pair (Clause.checkReturned v position) (Clause.checkReturned w position) fun _ _ => True := by
  refine L.nests.read fun s s' ⟨_, _, hreturns⟩ => ?_
  generalize s.returns = returns at hreturns
  generalize s'.returns = returns' at hreturns
  cases hreturns with
  | nil => exact L.illegalJump _ _
  | cons hty _ => exact L.checkReturn position hty hvalue

/-! ### All statements -/

section Statements

variable (hparts : c.Throughout (Phrase.Proceeds L))

include hparts

/-- A conditional statement. -/
theorem ifStatement : L.pair c.ifStatement c.ifStatement fun _ _ => True := by
  refine L.nests.block ?_
  refine L.part fun test htest => ?_
  refine L.seq ((hparts 0 test htest).self.condition .truth) fun _ _ _ => ?_
  refine L.part fun yes hyes => ?_
  refine L.seq (hparts 1 yes hyes).self.statement fun _ _ _ => ?_
  split
  · exact L.part fun no hno => (hparts 2 no hno).self.statement
  · exact L.ret trivial

/-- A switch. -/
theorem switchStatement : L.pair c.switchStatement c.switchStatement fun _ _ => True := by
  refine L.nests.block ?_
  refine L.part fun test htest => ?_
  refine L.seq ((hparts 0 test htest).self.condition .integer) fun _ _ _ => ?_
  unfold Clause.switchBody
  split
  next body hbody => exact L.nests.nested 0 1 (hparts 1 body hbody).self.statement
  next => exact L.nests.missingBody c

/-- The body of a loop. -/
theorem loopBody {i : Nat} :
    L.pair (do (← c.part i).loopBody) (do (← c.part i).loopBody) fun _ _ => True :=
  L.part fun body hbody => L.nests.nested 1 0 (hparts i body hbody).self.statement

/-- A loop with its condition in front. -/
theorem whileStatement : L.pair c.whileStatement c.whileStatement fun _ _ => True := by
  refine L.nests.block ?_
  refine L.part fun test htest => ?_
  exact L.seq ((hparts 0 test htest).self.condition .truth) fun _ _ _ => loopBody hparts

/-- A loop with its condition at the end. -/
theorem doWhileStatement : L.pair c.doWhileStatement c.doWhileStatement fun _ _ => True := by
  refine L.part fun body hbody => ?_
  refine L.seq (L.nests.nested 1 0 (hparts 0 body hbody).self.statement) fun _ _ _ => ?_
  exact L.part fun test htest => (hparts 1 test htest).self.condition .truth

/-- A loop with all its controls in front. -/
theorem forStatement : L.pair c.forStatement c.forStatement fun _ _ => True := by
  refine L.nests.block ?_
  refine L.seq (checkStatement (hparts 0)) fun _ _ _ => ?_
  refine L.seq (checkCondition (hparts 1)) fun _ _ _ => ?_
  exact L.seq (checkExpression (hparts 2)) fun _ _ _ => loopBody hparts

/-- A case label. -/
theorem caseLabel : L.pair c.caseLabel c.caseLabel fun _ _ => True := by
  refine jump (fun _ _ h => by rw [h.switches]) "case" c.position ?_
  refine L.part fun label hlabel => ?_
  refine L.seq (hparts 0 label hlabel).self.expression fun _ _ hty => ?_
  exact L.seq (L.checkIntegral label.position hty) fun _ _ _ => checkStatement (hparts 1)

/-- A return. -/
theorem returnStatement : L.pair c.returnStatement c.returnStatement fun _ _ => True := by
  unfold Clause.returnStatement
  split
  next p hp =>
    refine L.seq (hparts 0 p hp).self.expression fun a b hty => ?_
    exact checkReturned (.some (a := (a, p.position)) (b := (b, p.position)) ⟨hty, rfl⟩) c.position
  next => exact checkReturned .none c.position

/-- A statement whose parts proceed. -/
theorem statement {expression : Check Ty} {declaration : Check Unit}
    (hexpression : L.pair expression expression L.ty)
    (hdeclaration : L.pair declaration declaration fun _ _ => True) :
    L.pair (c.statement expression declaration) (c.statement expression declaration)
      fun _ _ => True := by
  have hitems : L.pair (c.items.forM fun item => item.roles.statement)
      (c.items.forM fun item => item.roles.statement) fun _ _ => True :=
    L.forM_same fun item hitem => (hparts.items item hitem).self.statement
  unfold Clause.statement
  split
  next => exact L.nests.block (checkStatements (hparts 0))
  next => exact hitems
  next => exact hitems
  next => exact ifStatement hparts
  next => exact ifStatement hparts
  next => exact switchStatement hparts
  next => exact whileStatement hparts
  next => exact doWhileStatement hparts
  next => exact forStatement hparts
  next => exact caseLabel hparts
  next => exact jump (fun _ _ h => by rw [h.switches]) _ _ (checkStatement (hparts 0))
  next => exact jump (fun _ _ h => by rw [h.loops, h.switches]) _ _ (L.ret trivial)
  next => exact jump (fun _ _ h => by rw [h.loops]) _ _ (L.ret trivial)
  next => exact returnStatement hparts
  next =>
    -- Only declarations and expressions are statements as they stand.
    split
    any_goals exact L.unexpected c _
    · exact hdeclaration
    · exact L.seq hexpression fun _ _ _ => L.ret trivial

end Statements

end StatementPairs

end CWithClasses
