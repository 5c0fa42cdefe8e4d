import CWithClasses.Proofs.Pairs.Declarator

/-!
# Two runs that look up names

Two runs go together if they look up names in tables that are seen alike, and if the few steps that
change a state go together. `ReadingPairs` lists these steps. The rules for operators, calls and
constructions ask about types only what renumbering leaves as it is, so their last steps follow, and
with them all expressions that name no type.
-/

namespace CWithClasses

open Check

namespace FunctionTy

variable {σ : Renaming}

/-- Renumbering keeps the number of parameters. -/
@[simp] theorem takes_rename (f : FunctionTy) (n : Nat) : (f.rename σ).takes n = f.takes n := by
  unfold takes rename
  rw [List.length_map]

/-- Renumbering keeps the wording of the number of parameters. -/
@[simp] theorem arity_rename (f : FunctionTy) : (f.rename σ).arity = f.arity := by
  simp [arity, rename]

end FunctionTy

/-- What has to be shown of steps that look up names. -/
structure ReadingPairs extends DeclaratorPairs where
  symbols : ∀ {α β : Type} {k : SymbolTable → Check α} {k' : SymbolTable → Check β}
    {R : α → β → Prop}, (∀ t u, t.Seen toView u → pair (k t) (k' u) R) →
    pair (Check.symbols >>= k) (Check.symbols >>= k') R
  log : ∀ e e' : Event, pair (Check.log e) (Check.log e') fun _ _ => True
  resolve : ∀ (name : String) (position : Position) (ty : Ty),
    pair (Check.resolve name position ty)
      (Check.resolve name position (ty.rename toRenaming)) fun _ _ => True
  newClass : ∀ name : String,
    pair (Check.newClass name) (Check.newClass name) fun c d => d = c.rename toRenaming
  declare : ∀ {name : String}, name ∉ hidden → ∀ (position : Position) (ty : Ty),
    pair (Check.declare name position ty)
      (Check.declare name position (ty.rename toRenaming)) fun _ _ => True

namespace ReadingPairs

open DeclaratorPairs

variable {L : ReadingPairs}

/-! ### Names -/

/-- Recording the type of a use of a name. -/
theorem recorded (name : String) (position : Position) {x y : Check Ty} (h : L.pair x y L.ty) :
    L.pair (do let ty ← x; Check.resolve name position ty; return ty)
      (do let ty ← y; Check.resolve name position ty; return ty) L.ty := by
  refine L.seq h ?_
  rintro ty _ rfl
  exact L.seq (L.resolve name position ty) fun _ _ _ => L.ret rfl

/-- Making a class and binding its name. -/
theorem declareClass {name : String} (hname : name ∉ L.hidden) (position : Position) :
    L.pair (Check.declareClass name position) (Check.declareClass name position)
      fun c d => d = c.rename L.toRenaming := by
  unfold Check.declareClass
  refine L.seq (L.newClass name) ?_
  rintro c _ rfl
  exact L.seq (L.declare hname position (.object c)) fun _ _ _ => L.ret rfl

/-- The type of a member. -/
theorem resolveMember (c : ClassRef) (name : Token) :
    L.pair (Check.resolveMember c name)
      (Check.resolveMember (c.rename L.toRenaming) name) L.ty := by
  unfold Check.resolveMember
  refine L.symbols fun t u h => ?_
  rw [h.memberLookup]
  cases t.memberLookup c name.text (t.insideClass c) with
  | ok ty => exact recorded _ _ (L.ret rfl)
  | error e => exact recorded _ _ (reject e _)

/-- The type of a name in an expression. -/
theorem resolveName {name : Token} (hname : name.text ∉ L.hidden) :
    L.pair (CWithClasses.resolveName name) (CWithClasses.resolveName name) L.ty := by
  unfold CWithClasses.resolveName
  refine L.symbols fun t u h => ?_
  rw [h.lookup? hname]
  cases t.lookup? name.text with
  | some ty => exact recorded _ _ (L.ret rfl)
  | none => exact recorded _ _ (reject _ _)

/-- The type that a name stands for. -/
theorem resolveTypeName {name : Token} (hname : name.text ∉ L.hidden) :
    L.pair (Check.resolveTypeName name) (Check.resolveTypeName name) L.ty := by
  unfold Check.resolveTypeName
  refine L.symbols fun t u h => ?_
  rw [h.lookupTypeName hname]
  cases t.lookupTypeName name.text with
  | ok ty => exact L.ret rfl
  | error e => cases e <;> exact reject _ _

/-- The class that a name stands for. -/
theorem resolveClass {name : Token} (hname : name.text ∉ L.hidden) :
    L.pair (Check.resolveClass name) (Check.resolveClass name)
      fun c d => d = c.map (ClassRef.rename L.toRenaming) := by
  unfold Check.resolveClass
  refine L.seq (resolveTypeName hname) ?_
  rintro ty _ rfl
  exact L.ret (Ty.asClass?_rename ty)

/-- Arguments of one call. -/
def Arguments (L : ReadingPairs) (arguments arguments' : List Argument) : Prop :=
  List.Forall₂ (fun x y => L.ty x.ty y.ty ∧ y.position = x.position) arguments arguments'

variable {arguments arguments' : List Argument}

/-! ### Operators -/

/-- The type of an increment or a decrement. -/
theorem stepType (operand : Ty) (position : Position) :
    L.pair (CWithClasses.stepType operand position)
      (CWithClasses.stepType (operand.rename L.toRenaming) position) L.ty := by
  unfold CWithClasses.stepType
  simp only [Ty.isUnknown_rename, Ty.isArithmetic_rename, Ty.isPointer_rename]
  split
  · exact L.ret rfl
  · exact mismatch _ _ _

/-- The type of an element. -/
theorem indexType (base : Ty) (position : Position) :
    L.pair (CWithClasses.indexType base position)
      (CWithClasses.indexType (base.rename L.toRenaming) position) L.ty := by
  unfold CWithClasses.indexType
  rw [Ty.isUnknown_rename, Ty.pointee?_rename]
  split
  · exact L.ret rfl
  · cases base.pointee? with
    | some element => exact L.ret rfl
    | none => exact mismatch _ _ _

/-- The type of a unary operator. -/
theorem unaryType (rule : Rule) (operand : Ty) (position : Position) :
    L.pair (CWithClasses.unaryType rule operand position)
      (CWithClasses.unaryType rule (operand.rename L.toRenaming) position) L.ty := by
  unfold CWithClasses.unaryType
  simp only [Ty.isUnknown_rename, Ty.pointee?_rename, Ty.isArithmetic_rename, Ty.isScalar_rename,
    Ty.isIntegral_rename, unknownOperand_rename, promote_rename]
  have hchoice : ∀ (accepted : Bool) (result : Ty) (expected : String),
      L.pair
        (if accepted then return result else Check.mismatch expected operand position)
        (if accepted then return result.rename L.toRenaming
          else Check.mismatch expected (operand.rename L.toRenaming) position) L.ty := by
    intro accepted result expected
    split
    · exact L.ret rfl
    · exact mismatch _ _ _
  split
  · exact L.ret rfl
  · split
    next =>
      cases operand.pointee? with
      | some target => exact L.ret rfl
      | none => exact mismatch _ _ _
    next => exact L.ret rfl
    next => exact hchoice _ _ _
    next => exact hchoice _ _ _
    next => exact hchoice _ .bool _
    next => exact hchoice _ _ _
    next => exact L.ret rfl

/-- Which of two operands is to blame does not depend on numbers. -/
theorem mismatchOf {p q : Prop} [Decidable p] [Decidable q] (hpq : p ↔ q) (expected : String)
    (lhs rhs : Ty) (position : Position) :
    L.pair (Check.mismatch expected (if p then lhs else rhs) position)
      (Check.mismatch expected
        (if q then lhs.rename L.toRenaming else rhs.rename L.toRenaming) position) L.ty := by
  by_cases hp : p
  · rw [if_pos hp, if_pos (hpq.mp hp)]
    exact mismatch _ _ _
  · rw [if_neg hp, if_neg fun hq => hp (hpq.mpr hq)]
    exact mismatch _ _ _

/-- The type of an arithmetic operator on values. -/
theorem commonOperands (lhs rhs : Ty) (position : Position) :
    L.pair (CWithClasses.commonOperands lhs rhs position)
      (CWithClasses.commonOperands (lhs.rename L.toRenaming) (rhs.rename L.toRenaming) position)
      L.ty := by
  unfold CWithClasses.commonOperands
  rw [commonArithmetic?_rename, Ty.isArithmetic_rename]
  cases commonArithmetic? lhs rhs with
  | some ty => exact L.ret rfl
  | none => exact mismatchOf .rfl _ _ _ _

/-- The type of an arithmetic operator. -/
theorem arithmeticType (rule : Rule) (lhs rhs : Ty) (position : Position) :
    L.pair (CWithClasses.arithmeticType rule lhs rhs position)
      (CWithClasses.arithmeticType rule (lhs.rename L.toRenaming)
        (rhs.rename L.toRenaming) position)
      L.ty := by
  unfold CWithClasses.arithmeticType
  simp only [Ty.decay_rename, Ty.isPointer_rename, Ty.isIntegral_rename, sameType_rename,
    Ty.render_rename]
  split
  · exact L.ret rfl
  · split
    · exact L.ret rfl
    · split
      · split
        · exact L.ret rfl
        · exact reject _ _
      · exact commonOperands _ _ _

/-- The type of an operator on integers. -/
theorem integralType (rule : Rule) (lhs rhs : Ty) (position : Position) :
    L.pair (CWithClasses.integralType rule lhs rhs position)
      (CWithClasses.integralType rule (lhs.rename L.toRenaming) (rhs.rename L.toRenaming) position)
      L.ty := by
  unfold CWithClasses.integralType
  rw [Ty.isStream_rename, commonArithmetic?_rename, Ty.isIntegral_rename, Ty.isIntegral_rename]
  split
  · exact L.ret rfl
  · cases commonArithmetic? lhs rhs with
    | some ty =>
      dsimp only [Option.map_some]
      split
      · exact L.ret rfl
      · exact mismatchOf .rfl _ _ _ _
    | none => exact mismatchOf .rfl _ _ _ _

/-- The type of a binary operator. -/
theorem binaryType (kind : BinaryKind) (rule : Rule) (lhs rhs : Ty) (position : Position) :
    L.pair (CWithClasses.binaryType kind rule lhs rhs position)
      (CWithClasses.binaryType kind rule (lhs.rename L.toRenaming)
        (rhs.rename L.toRenaming) position)
      L.ty := by
  unfold CWithClasses.binaryType
  simp only [Ty.isUnknown_rename, unknownOperands_rename, comparable_rename, Ty.isScalar_rename,
    Ty.render_rename]
  split
  · exact L.ret rfl
  · cases kind with
    | arithmetic => exact arithmeticType rule lhs rhs position
    | integral => exact integralType rule lhs rhs position
    | relational =>
      dsimp only
      split
      · exact L.ret rfl
      · exact reject _ _
    | logical =>
      dsimp only
      split
      · exact L.ret rfl
      · exact mismatchOf .rfl _ _ _ _

/-! ### Calls -/

/-- One argument against its parameter. -/
theorem checkArgument (param : Ty) {x y : Argument} (hty : L.ty x.ty y.ty)
    (hposition : y.position = x.position) :
    L.pair (CWithClasses.checkArgument param x)
      (CWithClasses.checkArgument (param.rename L.toRenaming) y) fun _ _ => True := by
  unfold CWithClasses.checkArgument
  rw [hty, hposition]
  simp only [compatible_rename, Ty.render_rename]
  split
  · exact L.ret trivial
  · exact L.report _ _

/-- The arguments of a call against the parameters. -/
theorem checkCall (f : FunctionTy) (hargs : L.Arguments arguments arguments')
    (position : Position) :
    L.pair (CWithClasses.checkCall f arguments position)
      (CWithClasses.checkCall (f.rename L.toRenaming) arguments' position) fun _ _ => True := by
  unfold CWithClasses.checkCall
  rw [FunctionTy.takes_rename, FunctionTy.arity_rename, hargs.length_eq]
  split
  · have hparams : List.Forall₂ (fun a b => b = a.rename L.toRenaming) f.params
        (f.rename L.toRenaming).params := by
      change List.Forall₂ _ _ (f.params.map (Ty.rename L.toRenaming))
      rw [List.forall₂_map_right_iff]
      exact List.forall₂_same.mpr fun _ _ => rfl
    refine L.forM (forall₂_zip hparams hargs) ?_
    rintro ⟨param, x⟩ ⟨_, y⟩ ⟨rfl, hty, hposition⟩
    exact checkArgument param hty hposition
  · exact L.report _ _

/-- Whether the arguments are a single object of the class. -/
theorem isCopy_rename (c : ClassRef) (hargs : L.Arguments arguments arguments') :
    isCopy (c.rename L.toRenaming) arguments' = isCopy c arguments := by
  cases hargs with
  | nil => rfl
  | @cons x y _ _ hxy hrest =>
    cases hrest with
    | cons _ _ => rfl
    | nil =>
      change y.ty.objectClass?.any (fun d => d.id == L.cls c.id) = x.ty.objectClass?.any _
      rw [hxy.1, Ty.objectClass?_rename, Option.any_map]
      congr
      funext d
      change (L.cls d.id == L.cls c.id) = (d.id == c.id)
      rw [Bool.eq_iff_iff, beq_iff_eq, beq_iff_eq]
      exact L.toRenaming.cls_inj

/-- The construction of an object of a class. -/
theorem checkConstructor (c : ClassRef) (hargs : L.Arguments arguments arguments')
    (position : Position) :
    L.pair (CWithClasses.checkConstructor c arguments position)
      (CWithClasses.checkConstructor (c.rename L.toRenaming) arguments' position)
      fun _ _ => True := by
  unfold CWithClasses.checkConstructor
  refine L.symbols fun t u h => ?_
  have hlookup := h.memberLookup c c.name
  change u.memberLookup (c.rename L.toRenaming) (c.rename L.toRenaming).name _ = _ at hlookup
  have hempty : arguments'.isEmpty = arguments.isEmpty := by cases hargs <;> rfl
  rw [hlookup, isCopy_rename c hargs, hempty, ← hargs.length_eq]
  cases t.memberLookup c c.name (t.insideClass c) with
  | ok ty =>
    dsimp only [Except.map]
    rw [Ty.function?_rename]
    cases ty.function? with
    | some f => exact checkCall f hargs position
    | none => exact L.ret trivial
  | error e =>
    cases e with
    | notFound name =>
      dsimp only [Except.map]
      split
      · exact L.ret trivial
      · exact L.report _ _
    | _ => exact L.report _ _

/-- The construction of an object of any type. -/
theorem checkConstruction (ty : Ty) (hargs : L.Arguments arguments arguments')
    (position : Position) :
    L.pair (CWithClasses.checkConstruction ty arguments position)
      (CWithClasses.checkConstruction (ty.rename L.toRenaming) arguments' position)
      fun _ _ => True := by
  unfold CWithClasses.checkConstruction
  rw [Ty.isUnknown_rename, Ty.objectClass?_rename]
  split
  · exact L.ret trivial
  · cases ty.objectClass? with
    | some c => exact checkConstructor c hargs position
    | none =>
      cases hargs with
      | nil => exact L.ret trivial
      | @cons x y _ _ hxy hrest =>
        cases hrest with
        | nil =>
          dsimp only [Option.map_none]
          rw [hxy.1, hxy.2]
          simp only [initializable_rename, Ty.render_rename]
          split
          · exact L.ret trivial
          · exact L.report _ _
        | cons _ hrest =>
          dsimp only [Option.map_none]
          simp only [List.length_cons, hrest.length_eq]
          exact L.report _ _

/-! ### Productions -/

/-- A member of a base whose type is known. -/
theorem memberOf (c : Clause) (base : Ty) (member : Token) :
    L.pair (c.memberOf base member) (c.memberOf (base.rename L.toRenaming) member) L.ty := by
  unfold Clause.memberOf
  rw [Ty.isUnknown_rename, Ty.decay_rename]
  split
  · exact L.ret rfl
  · split
    · cases base.decay with
      | pointer target =>
        cases target with
        | object cls => exact resolveMember cls member
        | _ => exact mismatch _ _ _
      | _ => exact mismatch _ _ _
    · cases base with
      | object cls => exact resolveMember cls member
      | _ => exact mismatch _ _ _

/-- A call whose arguments have been checked. -/
theorem callOf (c : Clause) (callee : Ty) (hargs : L.Arguments arguments arguments') :
    L.pair (c.callOf callee arguments) (c.callOf (callee.rename L.toRenaming) arguments')
      L.ty := by
  unfold Clause.callOf
  rw [Ty.isUnknown_rename, Ty.asFunction?_rename]
  split
  · exact L.ret rfl
  · cases callee.asFunction? with
    | some f => exact L.seq (checkCall f hargs c.position) fun _ _ _ => L.ret rfl
    | none => exact mismatch _ _ _

/-- The deletion of an operand. -/
theorem deleteOf (c : Clause) (operand : Ty) :
    L.pair (c.deleteOf operand) (c.deleteOf (operand.rename L.toRenaming)) L.ty := by
  unfold Clause.deleteOf
  rw [Ty.isPointer_rename, Ty.isUnknown_rename]
  split
  · exact L.ret rfl
  · exact mismatch _ _ _

/-- A type that is used as a truth value. -/
theorem checkTruth (condition : Ty) (position : Position) :
    L.pair (Clause.checkTruth condition position)
      (Clause.checkTruth (condition.rename L.toRenaming) position) fun _ _ => True := by
  unfold Clause.checkTruth
  simp only [Ty.isScalar_rename, Ty.isUnknown_rename, Ty.render_rename]
  split
  · exact L.ret trivial
  · exact L.report _ _

/-- The type of two branches. -/
theorem branches (c : Clause) (yes no : Ty) :
    L.pair (c.branches yes no)
      (c.branches (yes.rename L.toRenaming) (no.rename L.toRenaming)) L.ty := by
  unfold Clause.branches
  rw [commonType?_rename, Ty.render_rename, Ty.render_rename]
  cases commonType? yes no with
  | some ty => exact L.ret rfl
  | none => exact reject _ _

/-- An assignment between operands whose types are known. -/
theorem assign (c : Clause) (operator : Token) (target value : Position) (lhs rhs : Ty) :
    L.pair (c.assign operator target value lhs rhs)
      (c.assign operator target value (lhs.rename L.toRenaming) (rhs.rename L.toRenaming))
      L.ty := by
  unfold Clause.assign
  simp only [Ty.isUnknown_rename, Ty.isAssignable_rename, AssignKind.accepts_rename,
    Ty.render_rename]
  split
  · exact L.ret rfl
  · split
    · exact mismatch _ _ _
    · split
      · exact L.ret rfl
      · cases operator.kind.assignKind? with
        | none => exact L.unexpected c _
        | some kind =>
          dsimp only
          split
          · exact L.ret rfl
          · exact reject _ _

/-- Expressions without hidden names. -/
def expressions (L : ReadingPairs) : ExpressionPairs where
  toPairRules := L.toPairRules
  ty := L.ty
  name t := t.text ∉ L.hidden
  void := rfl
  constant := constant
  unsupported construct := reject (.unsupported construct)
  resolveName := resolveName
  stepType position := by
    rintro rfl
    exact stepType _ position
  indexType position := by
    rintro rfl
    exact indexType _ position
  checkIntegral position := by
    rintro rfl
    exact DeclaratorPairs.checkIntegral _ position
  unaryType rule position := by
    rintro rfl
    exact unaryType rule _ position
  binaryType kind rule position := by
    rintro rfl rfl
    exact binaryType kind rule _ _ position
  memberOf c member := by
    rintro rfl
    exact memberOf c _ member
  callOf c := by
    rintro rfl hargs
    exact callOf c _ hargs
  deleteOf c := by
    rintro rfl
    exact deleteOf c _
  checkTruth position := by
    rintro rfl
    exact checkTruth _ position
  branches c := by
    rintro rfl rfl
    exact branches c _ _
  assign c operator target value := by
    rintro rfl rfl
    exact assign c operator target value _ _

end ReadingPairs

end CWithClasses
