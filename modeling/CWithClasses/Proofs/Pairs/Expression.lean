import CWithClasses.Proofs.Pairs.Basic

/-!
# Two runs of an expression

An expression checks its operands and then looks at their types. So two runs of an expression go
together if they do so once the types of the operands are there. `ExpressionPairs` lists what these
last steps are, and `ExpressionPairs.expression` puts them together for every production.

Productions that name a type are left open: what two runs have in common when they look up a type
differs from one property to another.
-/

namespace CWithClasses

open Check

/-! ### The last steps of the productions -/

/-- Whether an expression of the production names a type. -/
def Rule.namesType : Rule → Bool
  | .qualifiedId | .cast | .sizeofType | .newExpr => true
  | _ => false

/-- What has to be shown of the last steps of all productions. -/
structure ExpressionPairs extends PairRules where
  /-- Types that stand for one another. -/
  ty : Ty → Ty → Prop
  /-- The names that may occur. -/
  name : Token → Prop
  void : ty .void .void
  constant : ∀ {t : Token} {τ : Ty}, t.constantTy? = some τ → ty τ τ
  unsupported : ∀ (construct : String) (position : Position),
    pair (Check.reject (.unsupported construct) position)
      (Check.reject (.unsupported construct) position) ty
  resolveName : ∀ {t : Token}, name t → pair (CWithClasses.resolveName t)
    (CWithClasses.resolveName t) ty
  stepType : ∀ {a b : Ty} (position : Position), ty a b →
    pair (CWithClasses.stepType a position) (CWithClasses.stepType b position) ty
  indexType : ∀ {a b : Ty} (position : Position), ty a b →
    pair (CWithClasses.indexType a position) (CWithClasses.indexType b position) ty
  checkIntegral : ∀ {a b : Ty} (position : Position), ty a b →
    pair (CWithClasses.checkIntegral a position) (CWithClasses.checkIntegral b position)
      fun _ _ => True
  unaryType : ∀ {a b : Ty} (rule : Rule) (position : Position), ty a b →
    pair (CWithClasses.unaryType rule a position) (CWithClasses.unaryType rule b position) ty
  binaryType : ∀ {a b a' b' : Ty} (kind : BinaryKind) (rule : Rule) (position : Position),
    ty a a' → ty b b' → pair (CWithClasses.binaryType kind rule a b position)
      (CWithClasses.binaryType kind rule a' b' position) ty
  memberOf : ∀ {a b : Ty} (c : Clause) (member : Token), ty a b →
    pair (c.memberOf a member) (c.memberOf b member) ty
  callOf : ∀ {a b : Ty} {arguments arguments' : List Argument} (c : Clause), ty a b →
    List.Forall₂ (fun x y => ty x.ty y.ty ∧ y.position = x.position) arguments arguments' →
    pair (c.callOf a arguments) (c.callOf b arguments') ty
  deleteOf : ∀ {a b : Ty} (c : Clause), ty a b → pair (c.deleteOf a) (c.deleteOf b) ty
  checkTruth : ∀ {a b : Ty} (position : Position), ty a b →
    pair (Clause.checkTruth a position) (Clause.checkTruth b position) fun _ _ => True
  branches : ∀ {a b a' b' : Ty} (c : Clause), ty a a' → ty b b' →
    pair (c.branches a b) (c.branches a' b') ty
  assign : ∀ {a b a' b' : Ty} (c : Clause) (operator : Token) (target value : Position),
    ty a a' → ty b b' →
    pair (c.assign operator target value a b) (c.assign operator target value a' b') ty

namespace ExpressionPairs

variable (L : ExpressionPairs)

/-- The two runs of the phrase as an expression go together. -/
def Expression (q : Phrase) : Prop := L.pair q.roles.expression q.roles.expression L.ty

/-- Arguments of one call. -/
def Arguments (arguments arguments' : List Argument) : Prop :=
  List.Forall₂ (fun x y => L.ty x.ty y.ty ∧ y.position = x.position) arguments arguments'

variable {L} {c : Clause} {P : Phrase → Prop}

/-- An operand is checked before all else. -/
theorem operand {α β : Type} {i : Nat} {f : Ty → Check α} {g : Ty → Check β} {R : α → β → Prop}
    (hparts : c.Throughout L.Expression) (h : ∀ a b, L.ty a b → L.pair (f a) (g b) R) :
    L.pair (do f (← (← c.part i).roles.expression)) (do g (← (← c.part i).roles.expression)) R :=
  L.part fun q hq => L.seq (hparts i q hq).self h

/-- The arguments of a call. -/
theorem checkArguments {p : Option Phrase} (hp : ∀ r, p = some r → r.Throughout L.Expression) :
    L.pair (CWithClasses.checkArguments p) (CWithClasses.checkArguments p) L.Arguments := by
  refine L.mapM_same fun argument hargument => ?_
  have hexpression := (Phrase.throughout_flatten? hp argument hargument).self
  exact L.seq hexpression fun a b hab => L.ret ⟨hab, rfl⟩

/-- A literal. -/
theorem literal (c : Clause) : L.pair c.literal c.literal L.ty := by
  unfold Clause.literal
  refine L.lift fun t _ => ?_
  split
  next ty hty => exact L.ret (L.constant hty)
  next => exact L.unexpected c _

/-- A leaf. -/
theorem leaf (hname : ∀ t, c.node.token = some t → L.name t) : L.pair c.leaf c.leaf L.ty := by
  unfold Clause.leaf
  refine L.toPairRules.leaf fun t ht => ?_
  split
  next ty hty => exact L.ret (L.constant hty)
  next =>
    split
    · exact L.resolveName (hname t ht)
    · exact L.unexpected c _

section Productions

variable (hparts : c.Throughout L.Expression)

include hparts

/-- An increment or a decrement. -/
theorem step : L.pair c.step c.step L.ty :=
  operand hparts fun _ _ hab => L.stepType c.position hab

/-- A member of an object. -/
theorem memberAccess : L.pair c.memberAccess c.memberAccess L.ty := by
  unfold Clause.memberAccess
  refine operand hparts fun a b hab => ?_
  refine L.part fun q _ => ?_
  refine L.toPairRules.leaf fun member _ => ?_
  exact L.memberOf c member hab

/-- An element of an array. -/
theorem index : L.pair c.index c.index L.ty := by
  unfold Clause.index
  refine operand hparts fun a b hab => ?_
  refine L.part fun i hi => ?_
  refine L.seq (hparts 1 i hi).self fun _ _ hindex => ?_
  refine L.seq (L.checkIntegral i.position hindex) fun _ _ _ => ?_
  exact L.indexType c.position hab

/-- A call. -/
theorem call : L.pair c.call c.call L.ty := by
  unfold Clause.call
  refine operand hparts fun a b hab => ?_
  refine L.seq (checkArguments (hparts 1)) fun arguments arguments' harguments => ?_
  exact L.callOf c hab harguments

/-- A unary operator. -/
theorem unary : L.pair c.unary c.unary L.ty :=
  operand hparts fun _ _ hab => L.unaryType c.rule c.position hab

/-- A delete-expression. -/
theorem deleteExpr : L.pair c.deleteExpr c.deleteExpr L.ty := by
  unfold Clause.deleteExpr
  exact operand hparts fun a b hab => L.deleteOf c hab

/-- An operator on pointers to members. -/
theorem memberPointer : L.pair c.memberPointer c.memberPointer L.ty := by
  unfold Clause.memberPointer
  refine operand hparts fun _ _ _ => ?_
  exact operand hparts fun _ _ _ => L.unsupported _ _

/-- A binary operator. -/
theorem binary (kind : BinaryKind) : L.pair (c.binary kind) (c.binary kind) L.ty := by
  unfold Clause.binary
  refine operand hparts fun a a' ha => ?_
  exact operand hparts fun b b' hb => L.binaryType kind c.rule c.position ha hb

/-- A conditional expression. -/
theorem conditional : L.pair c.conditional c.conditional L.ty := by
  unfold Clause.conditional
  refine L.part fun test htest => ?_
  refine L.seq (hparts 0 test htest).self fun _ _ hcondition => ?_
  refine L.seq (L.checkTruth test.position hcondition) fun _ _ _ => ?_
  refine operand hparts fun a a' ha => ?_
  exact operand hparts fun b b' hb => L.branches c ha hb

/-- An assignment. -/
theorem assignment : L.pair c.assignment c.assignment L.ty := by
  unfold Clause.assignment
  refine L.part fun target htarget => ?_
  refine L.seq (hparts 0 target htarget).self fun a a' ha => ?_
  refine L.part fun q _ => ?_
  refine L.toPairRules.leaf fun operator _ => ?_
  refine L.part fun value hvalue => ?_
  refine L.seq (hparts 2 value hvalue).self fun b b' hb => ?_
  exact L.assign c operator _ _ ha hb

/-- Two expressions, of which the second one counts. -/
theorem comma : L.pair c.comma c.comma L.ty := by
  unfold Clause.comma
  refine operand hparts fun _ _ _ => ?_
  exact L.part fun q hq => (hparts 1 q hq).self

/-- A list of expressions, of which the last one counts. -/
theorem expressionList :
    L.pair (c.items.foldlM (fun _ item => item.roles.expression) Ty.void)
      (c.items.foldlM (fun _ item => item.roles.expression) Ty.void) L.ty :=
  L.foldlM L.void fun _ _ _ item hitem => (hparts.items item hitem).self

/-- The two runs of an expression go together if those of its parts do. -/
theorem expression (hname : ∀ t, c.node.token = some t → L.name t)
    (htypes : c.rule.namesType = true → L.pair c.expression c.expression L.ty) :
    L.pair c.expression c.expression L.ty := by
  by_cases hnames : c.rule.namesType = true
  · exact htypes hnames
  unfold Clause.expression
  split
  next => exact literal c
  next => exact leaf hname
  next hrule => exact absurd (by rw [hrule]; rfl) hnames
  next => exact index hparts
  next => exact call hparts
  next hrule => exact absurd (by rw [hrule]; rfl) hnames
  next => exact memberAccess hparts
  next => exact memberAccess hparts
  next => exact step hparts
  next => exact step hparts
  next => exact step hparts
  next => exact step hparts
  next hrule => exact absurd (by rw [hrule]; rfl) hnames
  next => exact unary hparts
  next => exact unary hparts
  next => exact unary hparts
  next => exact unary hparts
  next => exact unary hparts
  next => exact unary hparts
  next => exact unary hparts
  next hrule => exact absurd (by rw [hrule]; rfl) hnames
  next => exact deleteExpr hparts
  next => exact deleteExpr hparts
  next => exact memberPointer hparts
  next => exact memberPointer hparts
  next => exact conditional hparts
  next => exact assignment hparts
  next => exact comma hparts
  next => exact expressionList hparts
  next =>
    split
    next kind _ => exact binary hparts kind
    next => exact L.unexpected c _

end Productions

end ExpressionPairs

end CWithClasses
