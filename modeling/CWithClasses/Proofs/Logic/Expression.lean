import CWithClasses.Check.Expression
import CWithClasses.Proofs.Logic.Declarator

/-!
# Expressions in a step logic

The rules for expressions, one production at a time: if the operands of an expression are sound,
so is the expression, and its type is known unless something has been reported.
-/

namespace CWithClasses.StepLogic

open Check

variable (L : StepLogic) {p : Prop} {c : Clause}

/-! ### Literals and names -/

/-- The types of constants are known. -/
theorem known_of_constant {t : Token} {ty : Ty} (h : t.constantTy? = some ty) : ty.Known := by
  unfold Token.constantTy? at h
  split at h <;> cases h <;> simp

/-- A literal holds a constant. -/
theorem literal (htoken : ∀ e, c.node.literalToken = .error e → L.faults)
    (hconstant : ∀ t, c.node.literalToken = .ok t → t.constantTy? = none → L.faults) :
    L.triple p c.literal Ty.Known := by
  unfold Clause.literal
  refine L.lift htoken fun t ht => ?_
  split
  next ty hty => exact L.ret _ fun _ => known_of_constant hty
  next hty => exact L.fault _ (hconstant t ht hty)

/-- A leaf is a constant or a name. -/
theorem leafExpression (hleaf : L.Leaf c.node)
    (hname : ∀ t, c.node.token = some t → t.constantTy? = none → t.kind.isName = false → L.faults) :
    L.triple p c.leaf Ty.Known := by
  unfold Clause.leaf
  refine L.leaf hleaf fun t ht => ?_
  split
  next ty hty => exact L.ret _ fun _ => known_of_constant hty
  next hty =>
    split
    · exact L.resolveName t
    next hkind => exact L.fault _ (hname t ht hty (by simpa using hkind))

/-- A member that is named through its class. -/
theorem qualifiedId (hcls : L.Has c 0 fun q => L.Name q.node)
    (hmember : L.Has c 1 fun q => L.Leaf q.node) : L.triple p c.qualifiedId Ty.Known := by
  unfold Clause.qualifiedId
  refine L.part hcls fun q hq => ?_
  refine L.lift hq fun name _ => ?_
  refine L.bind (L.resolveClass name) fun cls => ?_
  refine L.part hmember fun r hr => ?_
  refine L.leaf hr fun member _ => ?_
  cases cls with
  | some cls => exact L.resolveMember cls member
  | none =>
    -- Without a class the type is unknown, but then the class has been reported.
    refine L.ret _ ?_
    rintro ⟨_, hsome⟩
    cases hsome

/-! ### Postfix operators -/

/-- An increment or a decrement. -/
theorem step (hoperand : L.Has c 0 L.Expression) : L.triple p c.step Ty.Known := by
  unfold Clause.step
  refine L.part hoperand fun q hq => ?_
  exact L.bind (hq p) fun operand => L.verdict (.stepType _ And.right)

/-- A member of an object. -/
theorem memberAccess (hbase : L.Has c 0 L.Expression)
    (hmember : L.Has c 1 fun q => L.Leaf q.node) : L.triple p c.memberAccess Ty.Known := by
  unfold Clause.memberAccess Clause.memberOf
  refine L.part hbase fun q hq => ?_
  refine L.bind (hq p) fun base => ?_
  refine L.part hmember fun r hr => ?_
  refine L.leaf hr fun member _ => ?_
  split
  · exact L.ret _ And.right
  · split
    · split
      · exact L.resolveMember _ member
      · exact L.mismatch _ _ _
    · split
      · exact L.resolveMember _ member
      · exact L.mismatch _ _ _

/-- An element of an array. -/
theorem index (hbase : L.Has c 0 L.Expression) (hindex : L.Has c 1 L.Expression) :
    L.triple p c.index Ty.Known := by
  unfold Clause.index
  refine L.part hbase fun q hq => ?_
  refine L.bind (hq p) fun base => ?_
  refine L.part hindex fun i hi => ?_
  refine L.next (hi _) fun ty => ?_
  refine L.next (L.looks (.checkIntegral ty _)) fun _ => ?_
  exact L.verdict (.indexType _ And.right)

/-- The arguments of a call. -/
theorem checkArguments {q : Option Phrase} (h : ∀ r, q = some r → r.Each L.Expression) :
    L.triple p (CWithClasses.checkArguments q) fun _ => True := by
  refine L.post (P := fun arguments => ∀ argument ∈ arguments, True) ?_ fun _ _ _ => trivial
  refine L.mapM fun item hitem => ?_
  have hexpression : L.Expression item := Phrase.Each.of_mem h hitem
  exact L.next (hexpression p) fun _ => L.ret _ fun _ => trivial

/-- A call. -/
theorem call (hcallee : L.Has c 0 L.Expression)
    (harguments : ∀ q, c.part? 1 = some q → q.Each L.Expression) :
    L.triple p c.call Ty.Known := by
  unfold Clause.call Clause.callOf
  refine L.part hcallee fun q hq => ?_
  refine L.bind (hq p) fun callee => ?_
  refine L.next (L.checkArguments harguments) fun arguments => ?_
  split
  · exact L.ret _ And.right
  · split
    next f hf =>
      refine L.next (L.looks (.checkCall f arguments _)) fun _ => L.ret _ ?_
      rintro ⟨_, hcallee⟩
      exact (hcallee.asFunction hf).1
    next => exact L.mismatch _ _ _

/-- A cast that is written like a call. -/
theorem cast (htype : L.Has c 0 (Phrase.Each L.Specifier))
    (harguments : ∀ q, c.part? 1 = some q → q.Each L.Expression) :
    L.triple p c.cast Ty.Known := by
  unfold Clause.cast
  refine L.part htype fun q hq => ?_
  refine L.bind (L.specifiers hq) fun ty => ?_
  refine L.next (L.checkArguments harguments) fun arguments => ?_
  split
  · exact L.ret _ And.right
  · split
    next cls _ => exact L.next (L.looks (.checkConstructor cls _ _)) fun _ => L.ret _ And.right
    next => exact L.next (L.looks (.convert _ _)) fun _ => L.ret _ And.right

/-! ### Unary operators, allocation and deletion -/

/-- A unary operator. -/
theorem unary (hoperand : L.Has c 0 L.Expression) : L.triple p c.unary Ty.Known := by
  unfold Clause.unary
  refine L.part hoperand fun q hq => ?_
  exact L.bind (hq p) fun operand => L.verdict (.unaryType _ _ And.right)

/-- The type of an expression does not matter for the size of it. -/
theorem sizeofType (htype : L.Has c 0 L.TypeName) :
    L.triple p (do let _ ← (← c.part 0).typeName; return Ty.int) Ty.Known :=
  L.part htype fun _ hq => L.next (hq p) fun _ => L.ret _ fun _ => Ty.known_int

/-- The phrase is sound as what a new-expression allocates. -/
def Allocated (q : Phrase) : Prop := ∀ p, L.triple p (Clause.allocated q) Ty.Known

/-- What is allocated is spelled by specifiers with a declarator of its own, or by a type name. -/
theorem allocated {q : Phrase}
    (hnew : q.rule = .newTypeId → L.Has q.clause 0 (Phrase.Each L.Specifier) ∧
      ∀ d, q.part? 1 = some d → L.NewDeclarator d)
    (hother : q.rule ≠ .newTypeId → L.TypeName q) : L.Allocated q := by
  intro p
  unfold Clause.allocated
  split
  next hrule =>
    refine L.part (hnew hrule).1 fun r hr => ?_
    refine L.bind (L.specifiers hr) fun base => ?_
    split
    next d hd => exact (hnew hrule).2 d hd _ _ And.right
    next => exact L.ret _ And.right
  next hrule => exact hother hrule p

/-- A new-expression. -/
theorem newExpr (htype : L.Has c 0 L.Allocated)
    (harguments : ∀ q, c.part? 1 = some q → q.Each L.Expression) :
    L.triple p c.newExpr Ty.Known := by
  unfold Clause.newExpr
  refine L.part htype fun q hq => ?_
  refine L.bind (hq p) fun ty => ?_
  refine L.next (L.checkArguments harguments) fun arguments => ?_
  have hresult : L.triple (p ∧ ty.Known) (pure (.pointer ty)) Ty.Known :=
    L.ret _ fun hp => Ty.known_pointer.mpr hp.2
  dsimp only
  split
  · exact L.next (L.looks (.checkConstruction _ _ _)) fun _ => hresult
  · split
    next cls _ => exact L.next (L.looks (.checkConstructor cls _ _)) fun _ => hresult
    next => exact hresult

/-- A delete-expression. -/
theorem deleteExpr (hoperand : L.Has c 0 L.Expression) : L.triple p c.deleteExpr Ty.Known := by
  unfold Clause.deleteExpr
  refine L.part hoperand fun q hq => ?_
  exact L.next (hq p) fun operand => L.verdict (.deleteOf c operand)

/-! ### Operators with more than one operand -/

/-- An operator on pointers to members, which is always rejected. -/
theorem memberPointer (hlhs : L.Has c 0 L.Expression) (hrhs : L.Has c 1 L.Expression) :
    L.triple p c.memberPointer Ty.Known := by
  unfold Clause.memberPointer
  refine L.part hlhs fun q hq => ?_
  refine L.next (hq p) fun _ => ?_
  refine L.part hrhs fun r hr => ?_
  exact L.next (hr p) fun _ => L.reject _ _ nofun

/-- A binary operator. -/
theorem binary (kind : BinaryKind) (hlhs : L.Has c 0 L.Expression)
    (hrhs : L.Has c 1 L.Expression) : L.triple p (c.binary kind) Ty.Known := by
  unfold Clause.binary
  refine L.part hlhs fun q hq => ?_
  refine L.bind (hq p) fun lhs => ?_
  refine L.part hrhs fun r hr => ?_
  refine L.bind (hr _) fun rhs => ?_
  exact L.verdict (.binaryType _ (fun hp => hp.1.2) And.right kind _)

/-- A conditional expression. -/
theorem conditional (htest : L.Has c 0 L.Expression) (hyes : L.Has c 1 L.Expression)
    (hno : L.Has c 2 L.Expression) : L.triple p c.conditional Ty.Known := by
  unfold Clause.conditional
  refine L.part htest fun test hq => ?_
  refine L.next (hq p) fun condition => ?_
  refine L.next (L.looks (.checkTruth condition _)) fun _ => ?_
  refine L.part hyes fun q hq => ?_
  refine L.bind (hq p) fun yes => ?_
  refine L.part hno fun r hr => ?_
  exact L.bind (hr _) fun no => L.verdict (.branches (fun hp => hp.1.2) And.right c)

/-- The part is the token of an assignment operator. -/
def AssignOperator (q : Phrase) : Prop :=
  L.Leaf q.node ∧ ∀ t, q.node.token = some t → t.kind.assignKind?.isNone → L.faults

/-- An assignment. -/
theorem assignment (htarget : L.Has c 0 L.Expression) (hoperator : L.Has c 1 L.AssignOperator)
    (hvalue : L.Has c 2 L.Expression) : L.triple p c.assignment Ty.Known := by
  unfold Clause.assignment
  refine L.part htarget fun target hq => ?_
  refine L.bind (hq p) fun lhs => ?_
  refine L.part hoperator fun q hq => ?_
  refine L.leaf hq.1 fun operator htoken => ?_
  refine L.part hvalue fun value hr => ?_
  exact L.next (hr _) fun rhs => L.verdict (.assign c _ _ rhs And.right (hq.2 operator htoken))

/-- Two expressions, of which the second one counts. -/
theorem comma (hfirst : L.Has c 0 L.Expression) (hsecond : L.Has c 1 L.Expression) :
    L.triple p c.comma Ty.Known := by
  unfold Clause.comma
  refine L.part hfirst fun q hq => ?_
  refine L.next (hq p) fun _ => ?_
  exact L.part hsecond fun r hr => hr p

/-- A list of expressions, of which the last one counts. -/
theorem expressionList (hitems : ∀ item ∈ c.items, L.Expression item) :
    L.triple p (c.items.foldlM (fun _ item => item.roles.expression) .void) Ty.Known :=
  L.foldlM (fun _ => Ty.known_void) fun _ item hitem => hitems item hitem _

end CWithClasses.StepLogic
