import CWithClasses.Proofs.Logic.Basic
import CWithClasses.Proofs.Pairs.Specifier
import CWithClasses.Proofs.Pairs.Statement

/-!
# Two runs of declarations and statements

A phrase runs alike if its two runs go together in all of its roles: also as an initializer, as a
declaration and as a statement. Declarations look at members without asking whether they are
private, so no class may be veiled.

Definitions of functions and classes stay hypotheses here.
-/

namespace CWithClasses

open Check

/-- What has to be shown of the steps of declarations and statements. -/
structure RunningPairs extends ReadingPairs where
  unveiled : ∀ i, ¬ veiled i
  nests : toPairRules.Nests toView.ty

variable {L : RunningPairs}

/-- The two runs of the phrase go together in all of its roles. -/
structure Phrase.Runs (L : RunningPairs) (p : Phrase) : Prop extends p.Reads L.toReadingPairs where
  initializer : ∀ ty, L.pair (p.roles.initializer ty)
    (p.roles.initializer (ty.rename L.toRenaming)) L.ty
  declaration : L.pair p.roles.declaration p.roles.declaration fun _ _ => True
  statement : L.pair p.roles.statement p.roles.statement fun _ _ => True

/-- What runs alike reads alike. -/
theorem Phrase.Throughout.reads {p : Phrase} (hp : p.Throughout (Phrase.Runs L)) :
    p.Throughout (Phrase.Reads L.toReadingPairs) :=
  hp.mono fun _ h => h.toReads

namespace RunningPairs

open DeclaratorPairs ReadingPairs

/-- The phrase runs alike, and so does all that it is made of. -/
abbrev Runs (L : RunningPairs) (p : Phrase) : Prop := p.Throughout (Phrase.Runs L)

variable {p : Phrase} {c : Clause} {items : List Phrase} {q : Option Phrase}

/-! ### Initializers -/

/-- A list that is too long. -/
theorem reportSurplus (declared : Ty) (count : Nat) (position : Position) :
    L.pair (CWithClasses.reportSurplus declared count position)
      (CWithClasses.reportSurplus (declared.rename L.toRenaming) count position)
      fun _ _ => True := by
  unfold CWithClasses.reportSurplus
  rw [Ty.render_rename]
  exact L.report _ _

/-- All items of a list against one type. -/
theorem initializeAll (hitems : ∀ item ∈ items, L.Runs item) (ty : Ty) :
    L.pair (CWithClasses.initializeAll ty items)
      (CWithClasses.initializeAll (ty.rename L.toRenaming) items) fun _ _ => True := by
  refine L.forM_same fun item hitem => ?_
  exact L.seq ((hitems item hitem).self.initializer ty) fun _ _ _ => L.ret trivial

/-- A list in braces. -/
theorem checkBraces (hitems : ∀ item ∈ items, L.Runs item) (declared : Ty) (position : Position) :
    L.pair (CWithClasses.checkBraces declared items position)
      (CWithClasses.checkBraces (declared.rename L.toRenaming) items position) L.ty := by
  have hsingle : ∀ ty : Ty,
      L.pair
        (do CWithClasses.initializeAll ty items
            if 1 < items.length then CWithClasses.reportSurplus ty items.length position
            return ty)
        (do CWithClasses.initializeAll (ty.rename L.toRenaming) items
            if 1 < items.length then
              CWithClasses.reportSurplus (ty.rename L.toRenaming) items.length position
            return (ty.rename L.toRenaming)) L.ty := by
    intro ty
    refine L.seq (initializeAll hitems ty) fun _ _ _ => ?_
    split
    · exact L.seq (reportSurplus _ _ _) fun _ _ _ => L.ret rfl
    · exact L.ret rfl
  cases declared with
  | array element size =>
    refine L.seq (initializeAll hitems element) fun _ _ _ => ?_
    split
    · exact L.ret rfl
    · split
      · exact L.seq (reportSurplus (.array element size) _ _) fun _ _ _ => L.ret rfl
      · exact L.ret rfl
  | object d => exact L.seq (initializeAll hitems .unknown) fun _ _ _ => L.ret rfl
  | function id result params required => exact hsingle (.function id result params required)
  | int => exact hsingle .int
  | double => exact hsingle .double
  | char => exact hsingle .char
  | bool => exact hsingle .bool
  | void => exact hsingle .void
  | unknown => exact hsingle .unknown
  | pointer target => exact hsingle (.pointer target)

/-- An initializer whose parts run alike. -/
theorem initializer (hparts : c.Throughout (Phrase.Runs L)) {expression : Check Ty}
    (hexpression : L.pair expression expression L.ty) (declared : Ty) :
    L.pair (c.initializer expression declared)
      (c.initializer expression (declared.rename L.toRenaming)) L.ty := by
  unfold Clause.initializer
  split
  next => exact L.part fun p hp => (hparts 0 p hp).self.initializer declared
  next => exact L.part fun p hp => (hparts 0 p hp).self.initializer declared
  next => exact checkBraces (Phrase.throughout_flatten? (hparts 0)) declared c.position
  next =>
    refine L.seq (ReadingPairs.checkArguments fun r hr => (hparts 0 r hr).reads) fun _ _ hargs => ?_
    exact L.seq (ReadingPairs.checkConstruction declared hargs c.position) fun _ _ _ => L.ret rfl
  next =>
    refine L.seq hexpression ?_
    rintro value _ rfl
    simp only [Ty.isUnknown_rename, initializable_rename, Ty.render_rename]
    split
    · exact L.ret rfl
    · exact L.seq (L.report _ _) fun _ _ _ => L.ret rfl

/-! ### Declarations -/

variable {name : DeclaredName}

/-- The declaration of a function. -/
theorem declareFunction (hname : name.Avoids L.hidden) (ty : Ty) :
    L.pair (CWithClasses.declareFunction name ty)
      (CWithClasses.declareFunction name (ty.rename L.toRenaming)) L.ty := by
  have hdeclare : L.pair
      (do Check.declare name.name name.position ty
          return ty)
      (do Check.declare name.name name.position (ty.rename L.toRenaming)
          return (ty.rename L.toRenaming)) L.ty :=
    L.seq (L.declare hname.name name.position ty) fun _ _ _ => L.ret rfl
  unfold CWithClasses.declareFunction
  refine L.symbols fun t u h => ?_
  rw [h.lookupLocal? hname.name]
  cases t.lookupLocal? name.name with
  | none => exact hdeclare
  | some existing =>
    dsimp only [Option.map_some]
    rw [sameSignature_rename]
    split
    · exact L.ret rfl
    · exact hdeclare

/-- The construction of an object without an initializer. -/
theorem checkDefaultConstruction (ty : Ty) (position : Position) :
    L.pair (CWithClasses.checkDefaultConstruction ty position)
      (CWithClasses.checkDefaultConstruction (ty.rename L.toRenaming) position)
      fun _ _ => True := by
  unfold CWithClasses.checkDefaultConstruction
  refine L.symbols fun t u h => ?_
  rw [Ty.objectClass?_rename]
  cases ty.objectClass? with
  | none => exact L.ret trivial
  | some d =>
    dsimp only [Option.map_some]
    rw [h.current.isClassBody_eq, h.isComplete_eq]
    split
    · exact L.ret trivial
    · exact ReadingPairs.checkConstructor d .nil position

/-- The initializer of an object, or its default construction. -/
theorem checkInit (hq : ∀ r, q = some r → L.Runs r) (ty : Ty) (position : Position) :
    L.pair (CWithClasses.checkInit ty position q)
      (CWithClasses.checkInit (ty.rename L.toRenaming) position q) L.ty := by
  cases q with
  | none =>
    exact L.seq (checkDefaultConstruction ty position) fun _ _ _ => L.ret rfl
  | some r => exact (hq r rfl).self.initializer ty

/-- The member that a qualified name refers to. -/
theorem resolveQualified (name : DeclaredName) {cls : Token} (hcls : cls.text ∉ L.hidden) :
    L.pair (CWithClasses.resolveQualified cls name) (CWithClasses.resolveQualified cls name)
      fun a b => b = a.map fun m =>
        (m.1.rename L.toRenaming, m.2.map (Ty.rename L.toRenaming)) := by
  unfold CWithClasses.resolveQualified
  refine L.seq (resolveTypeName hcls) ?_
  rintro ty _ rfl
  rw [Ty.asClass?_rename]
  cases ty.asClass? with
  | none => exact L.ret rfl
  | some d =>
    refine L.symbols fun t u h => ?_
    rw [h.member? (L.unveiled d.id)]
    cases t.member? d name.name with
    | some m => exact L.ret rfl
    | none => exact L.seq (L.report _ _) fun _ _ _ => L.ret rfl

/-- A declaration of a member outside of its class. -/
theorem checkAgainstMember (name : DeclaredName) {cls : Token} (hcls : cls.text ∉ L.hidden)
    {agrees : Ty → Ty → Bool}
    (hagrees : ∀ a b : Ty, agrees (a.rename L.toRenaming) (b.rename L.toRenaming) = agrees a b)
    (ty : Ty) :
    L.pair (CWithClasses.checkAgainstMember cls name ty agrees)
      (CWithClasses.checkAgainstMember cls name (ty.rename L.toRenaming) agrees)
      fun _ _ => True := by
  unfold CWithClasses.checkAgainstMember
  refine L.seq (resolveQualified name hcls) ?_
  rintro found _ rfl
  cases found with
  | none => exact L.ret trivial
  | some m =>
    obtain ⟨d, member⟩ := m
    cases member with
    | none => exact L.ret trivial
    | some member =>
      dsimp only [Option.map_some]
      rw [hagrees, Ty.render_rename, Ty.render_rename]
      split
      · exact L.ret trivial
      · exact L.report _ _

/-- The declaration of an object. -/
theorem declareObject (hname : name.Avoids L.hidden) (hq : ∀ r, q = some r → L.Runs r) (ty : Ty) :
    L.pair (CWithClasses.declareObject name ty q)
      (CWithClasses.declareObject name (ty.rename L.toRenaming) q) L.ty := by
  unfold CWithClasses.declareObject
  refine L.seq (DeclaratorPairs.checkObjectType (L := L.toDeclaratorPairs) ty name.position) ?_
  rintro ty _ rfl
  refine L.seq (checkInit hq ty name.position) ?_
  rintro ty _ rfl
  cases hcls : name.cls with
  | some cls =>
    have hmember := checkAgainstMember name (hname.cls cls hcls) compatible_rename ty
    exact L.seq hmember fun _ _ _ => L.ret rfl
  | none =>
    exact L.seq (L.declare hname.name name.position ty) fun _ _ _ => L.ret rfl

/-- What a declarator declares. -/
theorem initDeclarator (hp : L.Runs p) (hq : ∀ r, q = some r → L.Runs r) (base : Ty) :
    L.pair (p.initDeclarator base q) (p.initDeclarator (base.rename L.toRenaming) q) L.ty := by
  unfold Phrase.initDeclarator
  refine L.seq (hp.self.declarator base) fun d e hde => ?_
  rw [hde.name, hde.ty, Ty.function?_rename, Option.isSome_map]
  cases hname : d.name with
  | none => exact L.fault _
  | some name =>
    have havoids := hde.avoids name hname
    dsimp only
    split
    · cases hcls : name.cls with
      | some cls =>
        have hmember :=
          checkAgainstMember name (havoids.cls cls hcls) sameSignature_rename d.ty
        exact L.seq hmember fun _ _ _ => L.ret rfl
      | none => exact declareFunction havoids d.ty
    · exact declareObject havoids hq d.ty

/-- One item of a declaration. -/
theorem initDeclItem (hp : L.Runs p) (base : Ty) :
    L.pair (p.initDeclItem base) (p.initDeclItem (base.rename L.toRenaming))
      fun _ _ => True := by
  unfold Phrase.initDeclItem
  split
  · refine L.part fun d hd => ?_
    refine L.seq (initDeclarator (hp.part hd) (fun r hr => hp.part hr) base) ?_
    exact fun _ _ _ => L.ret trivial
  · refine L.seq (initDeclarator hp Phrase.throughout_none base) ?_
    exact fun _ _ _ => L.ret trivial

/-- A declaration of objects and functions. -/
theorem simpleDeclaration (hparts : c.Throughout (Phrase.Runs L)) :
    L.pair c.simpleDeclaration c.simpleDeclaration fun _ _ => True := by
  unfold Clause.simpleDeclaration
  refine L.part fun p hp => ?_
  refine L.seq (specifiers (hparts 0 p hp).reads) ?_
  rintro base _ rfl
  refine L.forM_same fun item hitem => ?_
  exact initDeclItem (Phrase.throughout_flatten? (hparts 1) item hitem) base

/-- A member initializer. -/
theorem memberInit (hp : L.Runs p) (cls : Option ClassRef) :
    L.pair (p.memberInit cls) (p.memberInit (cls.map (ClassRef.rename L.toRenaming)))
      fun _ _ => True := by
  unfold Phrase.memberInit
  split
  · exact L.fault _
  · refine L.part fun id hid => ?_
    have harguments : L.pair (CWithClasses.checkArguments (p.part? 1))
        (CWithClasses.checkArguments (p.part? 1)) L.Arguments :=
      ReadingPairs.checkArguments fun r hr => (hp.part hr).reads
    refine L.seq harguments fun arguments arguments' hargs => ?_
    split
    · refine L.part fun member _ => ?_
      refine L.leaf fun name _ => ?_
      refine L.symbols fun t u h => ?_
      cases cls with
      | none => exact L.report _ _
      | some d =>
        simp only [Option.map_some, Option.bind_some]
        rw [h.member? (L.unveiled d.id)]
        cases t.member? d name.text with
        | none => exact L.report _ _
        | some m => exact ReadingPairs.checkConstruction m.2 hargs id.position
    · exact L.report _ _
    · exact L.fault _

/-- The member initializers of a constructor. -/
theorem ctorInit (hp : L.Runs p) : L.pair p.ctorInit p.ctorInit fun _ _ => True := by
  have hlist : ∀ list : Phrase, L.Runs list →
      L.pair
        (do let cls := (← Check.symbols).currentClass?
            list.flatten.forM fun init => init.memberInit cls)
        (do let cls := (← Check.symbols).currentClass?
            list.flatten.forM fun init => init.memberInit cls) fun _ _ => True := by
    intro list hruns
    refine L.symbols fun t u h => ?_
    rw [h.currentClass?]
    exact L.forM_same fun init hinit => memberInit (hruns.flatten init hinit) _
  unfold Phrase.ctorInit
  split
  · exact L.part fun list hpart => hlist list (hp.part hpart)
  · exact hlist p hp

/-- Binding the parameters of a function. -/
theorem bindParameters {params params' : List Parameter}
    (hparams : List.Forall₂ (Parameter.Alike L.toView) params params') (types : List Ty) :
    L.pair (FunctionBody.bindParameters params types)
      (FunctionBody.bindParameters params' (types.map (Ty.rename L.toRenaming)))
      fun _ _ => True := by
  have htypes : List.Forall₂ L.ty types (types.map (Ty.rename L.toRenaming)) := by
    rw [List.forall₂_map_right_iff]
    exact List.forall₂_same.mpr fun _ _ => rfl
  refine L.forM (forall₂_zip hparams htypes) ?_
  rintro ⟨param, ty⟩ ⟨param', _⟩ ⟨hparam, rfl⟩
  dsimp only at hparam ⊢
  rw [hparam.name]
  cases hname : param.name with
  | none => exact L.ret trivial
  | some name => exact L.declare (hparam.avoids name hname).name name.position ty

/-! ### Statements -/

/-- The type of a condition. -/
theorem conditionType (hp : L.Runs p) : L.pair p.conditionType p.conditionType L.ty := by
  unfold Phrase.conditionType
  split
  · refine L.part fun r hr => ?_
    refine L.seq (specifiers (hp.part hr).reads) ?_
    rintro base _ rfl
    refine L.part fun d hd => ?_
    refine L.part fun init hinit => ?_
    exact initDeclarator (hp.part hd) (hp.part hinit).of_some base
  · exact hp.self.expression

/-- A condition. -/
theorem condition (hp : L.Runs p) (kind : ConditionKind) :
    L.pair (p.condition kind) (p.condition kind) fun _ _ => True := by
  unfold Phrase.condition
  refine L.seq (conditionType hp) ?_
  rintro ty _ rfl
  have haccepts : kind.accepts (ty.rename L.toRenaming) = kind.accepts ty := by
    cases kind <;> simp [ConditionKind.accepts]
  rw [haccepts, Ty.render_rename]
  split
  · exact L.ret trivial
  · exact L.report _ _

/-- Whether a returned value fits does not depend on numbers. -/
theorem returns_rename {σ : Renaming} (expected received : Ty) :
    Clause.returns (expected.rename σ) (received.rename σ) = Clause.returns expected received := by
  unfold Clause.returns
  rw [Ty.isVoid_rename, Ty.isVoid_rename, compatible_rename]

/-- A returned value against the result type of the function. -/
theorem checkReturn {v w : Option (Ty × Position)}
    (hvalue : Option.Rel (fun x y => L.ty x.1 y.1 ∧ y.2 = x.2) v w) (expected : Ty)
    (position : Position) :
    L.pair (Clause.checkReturn expected v position)
      (Clause.checkReturn (expected.rename L.toRenaming) w position) fun _ _ => True := by
  unfold Clause.checkReturn
  rw [Ty.isUnknown_rename, Ty.isVoid_rename, Ty.render_rename]
  split
  · exact L.ret trivial
  · cases hvalue with
    | none =>
      dsimp only
      split
      · exact L.ret trivial
      · exact L.report _ _
    | @some x y h =>
      obtain ⟨hty, hplace⟩ := h
      dsimp only
      rw [hty, hplace, returns_rename, Ty.isUnknown_rename, Ty.render_rename]
      split
      · exact L.ret trivial
      · exact L.report _ _

/-- The steps of statements. -/
def statements (L : RunningPairs) : StatementPairs where
  toExpressionPairs := L.expressions
  nests := L.nests
  illegalJump statement := L.report (.illegalJump statement)
  checkReturn position := by
    rintro rfl hvalue
    exact checkReturn hvalue _ position

/-- What runs alike proceeds. -/
theorem proceeds (hp : L.Runs p) : p.Throughout (Phrase.Proceeds L.statements) :=
  hp.derive fun _ hq => ⟨hq.self.expression, condition hq, hq.self.statement⟩

/-- The statements of a function body. -/
theorem functionBlock (hp : L.Runs p) :
    L.pair p.functionBlock p.functionBlock fun _ _ => True :=
  StatementPairs.functionBlock (proceeds hp)

/-- A declaration whose parts run alike. -/
theorem declaration (hparts : c.Throughout (Phrase.Runs L))
    (hfunction : c.rule = .functionDef ∨ c.rule = .constructorDef →
      L.pair c.functionDefinition c.functionDefinition fun _ _ => True) :
    L.pair c.declaration c.declaration fun _ _ => True := by
  unfold Clause.declaration
  split
  next => exact L.forM_same fun item hitem => (hparts.items item hitem).self.declaration
  next => exact simpleDeclaration hparts
  next hrule => exact hfunction (.inl hrule)
  next hrule => exact hfunction (.inr hrule)
  next => exact L.unexpected c _

end RunningPairs

/-- A tree runs alike if all that it is made of does, given what is needed about classes and
functions. -/
theorem Node.runs {n : Node} (hparts : n.clause.Throughout (Phrase.Runs L)) (hn : n.Avoids L.hidden)
    (hclass : n.rule = .classSpec → L.pair n.clause.classSpec n.clause.classSpec L.ty)
    (hfunction : n.rule = .functionDef ∨ n.rule = .constructorDef →
      L.pair n.clause.functionDefinition n.clause.functionDefinition fun _ _ => True) :
    n.phrase.Runs L := by
  have hreads : n.phrase.Reads L.toReadingPairs :=
    reads (fun i q hq => (hparts i q hq).reads) hn hclass
  have hexpression : L.pair n.clause.expression n.clause.expression L.ty := by
    have hrole := hreads.expression
    rwa [n.phrase_roles_eq] at hrole
  have hdeclaration := RunningPairs.declaration hparts hfunction
  refine ⟨hreads, ?_, ?_, ?_⟩
  all_goals rw [n.phrase_roles_eq]
  · exact RunningPairs.initializer hparts hexpression
  · exact hdeclaration
  · exact L.statements.statement (fun i q hq => RunningPairs.proceeds (hparts i q hq)) hexpression
      hdeclaration

/-- A tree runs alike, whatever it is checked as. -/
theorem Node.check_runs {n : Node} (hruns : n.phrase.Throughout (Phrase.Runs L))
    (hclass : L.pair n.checkClassSpec n.checkClassSpec L.ty) : L.pair n.check n.check L.ty := by
  have hvoid : ∀ x : Check Unit, L.pair x x (fun _ _ => True) →
      L.pair (do x; return Ty.void) (do x; return Ty.void) L.ty :=
    fun x hx => L.seq hx fun _ _ _ => L.ret rfl
  unfold check
  split
  next =>
    cases hchild : n.child? 0 with
    | none => exact L.ret rfl
    | some m => exact hvoid _ (hruns.child hchild).self.declaration
  next => exact hvoid _ hruns.self.declaration
  next => exact hvoid _ hruns.self.declaration
  next => exact hvoid _ hruns.self.statement
  next =>
    split
    · exact hclass
    · exact hruns.self.expression
  next => exact hruns.self.expression

end CWithClasses
