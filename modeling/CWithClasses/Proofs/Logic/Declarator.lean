import CWithClasses.Proofs.Logic.Step

/-!
# Specifiers and declarators in a step logic

A phrase is sound in one of its roles if checking it in this role keeps to the logic. The rules
for specifiers, type names, parameters and declarators make a phrase sound whose parts are. They
are stated production by production, each with the parts that it asks for.
-/

namespace CWithClasses

/-- All items of a list are of a certain kind. -/
def Phrase.Each (P : Phrase → Prop) (q : Phrase) : Prop := ∀ item ∈ q.flatten, P item

/-- All items of an optional list are of a certain kind if the list is. -/
theorem Phrase.Each.of_mem {P : Phrase → Prop} {q : Option Phrase} {item : Phrase}
    (h : ∀ r, q = some r → r.Each P) (hitem : item ∈ Phrase.flatten? q) : P item := by
  cases q with
  | none => cases hitem
  | some r => exact h r rfl item hitem

namespace StepLogic

open Check

variable (L : StepLogic) {p : Prop}

/-! ### Sound phrases -/

/-- The phrase is sound as an expression. -/
def Expression (q : Phrase) : Prop := ∀ p, L.triple p q.roles.expression Ty.Known

/-- The phrase is sound as a statement. -/
def Statement (q : Phrase) : Prop := ∀ p, L.triple p q.roles.statement fun _ => True

/-- The phrase is sound as a declaration. -/
def Declaration (q : Phrase) : Prop := ∀ p, L.triple p q.roles.declaration fun _ => True

/-- The phrase is sound as a single specifier. -/
def Specifier (q : Phrase) : Prop :=
  ∀ p, L.triple p q.roles.specifier fun ty => ∀ t, ty = some t → t.Known

/-- The phrase is sound as a declarator, whatever type it is applied to. -/
def Declarator (q : Phrase) : Prop :=
  ∀ (p : Prop) (ty : Ty), (p → ty.Known) → L.triple p (q.roles.declarator ty) fun d => d.ty.Known

/-- The phrase is sound as a declarator of a new-expression. -/
def NewDeclarator (q : Phrase) : Prop :=
  ∀ (p : Prop) (ty : Ty), (p → ty.Known) → L.triple p (q.roles.newDeclarator ty) Ty.Known

/-- The phrase is sound as an initializer. It may be checked against an unknown type. -/
def Initializer (q : Phrase) : Prop :=
  ∀ (p : Prop) (ty : Ty), L.triple p (q.roles.initializer ty) fun t => ty.Known → t.Known

/-- The phrase is sound as a type name. -/
def TypeName (q : Phrase) : Prop := ∀ p, L.triple p q.typeName Ty.Known

/-- The phrase is sound as a pointer operator. -/
def PointerOperator (q : Phrase) : Prop :=
  ∀ (p : Prop) (ty : Ty), (p → ty.Known) → L.triple p (q.pointerOperator ty) Ty.Known

/-- The phrase is sound as a parameter. -/
def Parameter (q : Phrase) : Prop := ∀ p, L.triple p q.parameter fun param => param.ty.Known

/-! ### Specifiers -/

/-- A sequence of specifiers chooses a known type. -/
theorem specifiers {q : Phrase} (h : q.Each L.Specifier) : L.triple p q.specifiers Ty.Known := by
  unfold Phrase.specifiers
  refine L.bind (P := fun base => ∀ t, base = some t → t.Known) ?_ fun base => L.ret _ ?_
  · refine L.foldlM (fun _ t ht => by cases ht) fun base item hitem => ?_
    unfold Phrase.specifierAfter
    refine L.bind (h item hitem _) fun ty => ?_
    split
    next => exact L.ret _ fun hp => hp.1.2
    next ty =>
      refine L.ret _ fun hp t ht => ?_
      exact hp.2 t ht
    next previous ty =>
      refine L.next (L.report _ _ nofun) fun _ => L.ret _ ?_
      exact fun hp => hp.1.2
  · rintro ⟨_, hbase⟩
    cases base with
    | none => exact Ty.known_int
    | some t => exact hbase t rfl

/-- Specifiers may be left out altogether. -/
theorem checkSpecifiers {q : Option Phrase} (h : ∀ r, q = some r → r.Each L.Specifier) :
    L.triple p (checkSpecifiers? q) Ty.Known := by
  cases q with
  | none => exact L.ret _ fun _ => Ty.known_void
  | some r => exact L.specifiers (h r rfl)

/-- A type name with an optional declarator. -/
theorem clauseTypeName {c : Clause} (hbase : L.Has c 0 (Phrase.Each L.Specifier))
    (hdeclarator : ∀ d, c.part? 1 = some d → L.Declarator d) :
    L.triple p c.typeName Ty.Known := by
  unfold Clause.typeName
  refine L.part hbase fun q hq => ?_
  refine L.bind (L.specifiers hq) fun base => ?_
  split
  next d hd =>
    refine L.bind (hdeclarator d hd _ _ And.right) fun declared => L.ret _ ?_
    exact And.right
  next => exact L.ret _ And.right

/-- A type name is built by its production, or a mere sequence of specifiers. -/
theorem typeName {q : Phrase}
    (htypeId : q.rule = .typeId → L.Has q.clause 0 (Phrase.Each L.Specifier) ∧
      ∀ d, q.part? 1 = some d → L.Declarator d)
    (hother : q.rule ≠ .typeId → q.Each L.Specifier) : L.TypeName q := by
  intro p
  unfold Phrase.typeName
  split
  next hrule => exact L.clauseTypeName (htypeId hrule).1 (htypeId hrule).2
  next hrule => exact L.specifiers (hother hrule)

/-! ### Array sizes and pointers -/

/-- The size of an array dimension, which is an expression if it is there. -/
theorem checkArraySize {q : Option Phrase} (h : ∀ r, q = some r → L.Expression r) :
    L.triple p (CWithClasses.checkArraySize q) fun _ => True := by
  unfold CWithClasses.checkArraySize
  split
  · exact L.ret _ fun _ => trivial
  next r =>
    split
    · exact L.ret _ fun _ => trivial
    · split
      · exact L.next (L.report _ _ nofun) fun _ => L.ret _ fun _ => trivial
      · refine L.next (h r rfl p) fun ty => ?_
        exact L.next (L.looks (.checkIntegral _ _)) fun _ => L.ret _ fun _ => trivial

/-- A pointer operator is a star, an ampersand, or one of two productions. -/
theorem pointerOperator {q : Phrase}
    (htoken : q.rule = .token → L.Leaf q.node ∧
      ∀ t, q.node.token = some t → t.kind ≠ .star → t.kind ≠ .ampersand → L.faults)
    (hother : q.rule ≠ .qualifiedPointer → q.rule ≠ .memberPointer → q.rule ≠ .token →
      L.faults) : L.PointerOperator q := by
  intro p ty hty
  unfold Phrase.pointerOperator
  split
  next => exact L.ret _ fun hp => Ty.known_pointer.mpr (hty hp)
  next => exact L.reject _ _ nofun
  next hrule =>
    refine L.leaf (htoken hrule).1 fun t ht => ?_
    split
    · exact L.ret _ fun hp => Ty.known_pointer.mpr (hty hp)
    · exact L.ret _ hty
    next hstar hampersand => exact L.fault _ ((htoken hrule).2 t ht hstar hampersand)
  next hqualified hmember hrule => exact L.fault _ (hother hqualified hmember hrule)

/-! ### Parameters -/

/-- The type of a function with known parts. -/
theorem newFunctionType {result : Ty} {params : List CWithClasses.Parameter}
    (h : p → result.Known ∧ ∀ param ∈ params, param.ty.Known) :
    L.triple p (CWithClasses.newFunctionType result params) Ty.Known := by
  refine L.newFunction _ fun hp => ⟨(h hp).1, ?_⟩
  intro t ht
  obtain ⟨param, hparam, rfl⟩ := List.mem_map.mp ht
  exact (h hp).2 param hparam

/-- A default argument is checked against the parameter. -/
theorem checkDefault (ty : Ty) {e : Option Phrase} (h : ∀ r, e = some r → L.Expression r) :
    L.triple p (CWithClasses.checkDefault ty e) fun _ => True := by
  unfold CWithClasses.checkDefault
  split
  · exact L.ret _ fun _ => trivial
  next r =>
    refine L.next (h r rfl p) fun value => ?_
    split
    · exact L.ret _ fun _ => trivial
    · exact L.looks (.report _ rfl)

section

variable {q : Phrase}

/-- A parameter whose slots have been found. -/
theorem parameterOf {declarator default : Option Phrase}
    (hspecifiers : L.Has q.clause 0 (Phrase.Each L.Specifier))
    (hdeclarator : ∀ d, declarator = some d → L.Declarator d)
    (hdefault : ∀ e, default = some e → L.Expression e) :
    L.triple p (do
      let base ← (← q.part 0).specifiers
      let declared ← match declarator with
        | some d => d.roles.declarator base
        | none => pure { ty := base }
      CWithClasses.checkDefault declared.ty.decay default
      return (⟨declared.name, declared.ty.decay, default.isSome⟩ : CWithClasses.Parameter))
      fun param => param.ty.Known := by
  refine L.part hspecifiers fun r hr => ?_
  refine L.bind (L.specifiers hr) fun base => ?_
  have hrest : ∀ declared : Declared, L.triple ((p ∧ base.Known) ∧ declared.ty.Known)
      (do CWithClasses.checkDefault declared.ty.decay default
          return (⟨declared.name, declared.ty.decay, default.isSome⟩ : CWithClasses.Parameter))
      fun param => param.ty.Known := by
    intro declared
    refine L.next (L.checkDefault _ hdefault) fun _ => ?_
    exact L.ret _ fun hp => hp.2.decay
  cases declarator with
  | none => exact L.pre (hrest { ty := base }) fun hp => ⟨hp, hp.2⟩
  | some d => exact L.bind (hdeclarator d rfl _ _ And.right) hrest

/-- A parameter with a name. -/
theorem parameter_named (hrule : q.rule = .namedParam)
    (hspecifiers : L.Has q.clause 0 (Phrase.Each L.Specifier))
    (hdeclarator : L.Has q.clause 1 L.Declarator) : L.Parameter q := by
  intro p
  unfold Phrase.parameter Phrase.parameterParts
  rw [hrule]
  simp only [bind_assoc, pure_bind]
  refine L.part hdeclarator fun d hd => ?_
  exact L.parameterOf hspecifiers (fun d' h => Option.some.inj h ▸ hd) fun e h => by cases h

/-- A parameter with a name and a default argument. -/
theorem parameter_namedDefault (hrule : q.rule = .namedParamDefault)
    (hspecifiers : L.Has q.clause 0 (Phrase.Each L.Specifier))
    (hdeclarator : L.Has q.clause 1 L.Declarator) (hdefault : L.Has q.clause 2 L.Expression) :
    L.Parameter q := by
  intro p
  unfold Phrase.parameter Phrase.parameterParts
  rw [hrule]
  simp only [bind_assoc, pure_bind]
  refine L.part hdeclarator fun d hd => ?_
  refine L.part hdefault fun e he => ?_
  exact L.parameterOf hspecifiers (fun d' h => Option.some.inj h ▸ hd)
    fun e' h => Option.some.inj h ▸ he

/-- A parameter that need not have a name. -/
theorem parameter_abstract (hrule : q.rule = .abstractParam)
    (hspecifiers : L.Has q.clause 0 (Phrase.Each L.Specifier))
    (hdeclarator : ∀ d, q.part? 1 = some d → L.Declarator d) : L.Parameter q := by
  intro p
  unfold Phrase.parameter Phrase.parameterParts
  rw [hrule]
  simp only [pure_bind]
  exact L.parameterOf hspecifiers hdeclarator fun e h => by cases h

/-- A parameter that need not have a name, with a default argument. -/
theorem parameter_abstractDefault (hrule : q.rule = .abstractParamDefault)
    (hspecifiers : L.Has q.clause 0 (Phrase.Each L.Specifier))
    (hdeclarator : ∀ d, q.part? 1 = some d → L.Declarator d)
    (hdefault : L.Has q.clause 2 L.Expression) : L.Parameter q := by
  intro p
  unfold Phrase.parameter Phrase.parameterParts
  rw [hrule]
  simp only [bind_assoc, pure_bind]
  refine L.part hdefault fun e he => ?_
  exact L.parameterOf hspecifiers hdeclarator fun e' h => Option.some.inj h ▸ he

/-- No other phrase is a parameter. -/
theorem parameter_unexpected (hnamed : q.rule ≠ .namedParam)
    (hnamedDefault : q.rule ≠ .namedParamDefault) (habstract : q.rule ≠ .abstractParam)
    (habstractDefault : q.rule ≠ .abstractParamDefault) (hfaults : L.faults) : L.Parameter q := by
  intro p
  have hparts : q.parameterParts = q.unexpected "parameter" := by
    unfold Phrase.parameterParts
    split <;> first | contradiction | rfl
  unfold Phrase.parameter
  rw [hparts]
  exact L.fault _ hfaults

end

/-- No parameter has the type `void`. -/
theorem checkNotVoid (list : Position) {param : CWithClasses.Parameter} (h : p → param.ty.Known) :
    L.triple p (CWithClasses.checkNotVoid list param) fun param => param.ty.Known := by
  unfold CWithClasses.checkNotVoid
  split
  · exact L.bind (L.reject _ _ nofun) fun _ => L.ret _ And.right
  · exact L.ret _ h

/-- A list of parameters. -/
theorem checkParameters {q : Option Phrase} (h : ∀ r, q = some r → r.Each L.Parameter) :
    L.triple p (CWithClasses.checkParameters q) fun params => ∀ param ∈ params, param.ty.Known := by
  unfold CWithClasses.checkParameters
  split
  · exact L.ret _ fun _ param hparam => by cases hparam
  next r =>
    refine L.bind (L.mapM fun item hitem => h r rfl item hitem p) fun params => ?_
    split
    · exact L.ret _ fun _ param hparam => by cases hparam
    · exact L.mapM fun param hparam => L.checkNotVoid _ fun hp => hp.2 param hparam

/-! ### Declarators -/

section

variable {c : Clause} {ty : Ty}

/-- A declarator inside another one may be absent. -/
theorem declareInner {q : Option Phrase} (h : ∀ d, q = some d → L.Declarator d)
    (hty : p → ty.Known) : L.triple p (CWithClasses.declareInner q ty) fun d => d.ty.Known := by
  unfold CWithClasses.declareInner
  split
  next d => exact h d rfl p ty hty
  next => exact L.ret _ hty

/-- A name is a declarator. -/
theorem declarator_token (hrule : c.rule = .token) (hleaf : L.Leaf c.node)
    (hname : ∀ t, c.node.token = some t → t.kind.isName = false → L.faults)
    (hty : p → ty.Known) : L.triple p (c.declarator ty) fun d => d.ty.Known := by
  unfold Clause.declarator
  rw [hrule]
  refine L.leaf hleaf fun t ht => ?_
  split
  · exact L.ret _ hty
  next hkind => exact L.fault _ (hname t ht (by simpa using hkind))

/-- A pointer operator in front of a declarator. -/
theorem declarator_pointer (hrule : c.rule = .pointerDeclarator)
    (hoperator : L.Has c 0 L.PointerOperator) (hinner : L.Has c 1 L.Declarator)
    (hty : p → ty.Known) : L.triple p (c.declarator ty) fun d => d.ty.Known := by
  unfold Clause.declarator
  rw [hrule]
  refine L.part hoperator fun q hq => ?_
  refine L.bind (hq p ty hty) fun target => ?_
  exact L.part hinner fun d hd => hd _ _ And.right

/-- A pointer operator in front of a declarator that may be absent. -/
theorem declarator_abstractPointer (hrule : c.rule = .abstractPointer)
    (hoperator : L.Has c 0 L.PointerOperator)
    (hinner : ∀ d, c.part? 1 = some d → L.Declarator d) (hty : p → ty.Known) :
    L.triple p (c.declarator ty) fun d => d.ty.Known := by
  unfold Clause.declarator
  rw [hrule]
  refine L.part hoperator fun q hq => ?_
  exact L.bind (hq p ty hty) fun target => L.declareInner hinner And.right

/-- A function declarator. -/
theorem declarator_function
    (hrule : c.rule = .functionDeclarator ∨ c.rule = .constFunctionDeclarator)
    (hinner : L.Has c 0 L.Declarator)
    (hparams : ∀ q, c.part? 1 = some q → q.Each L.Parameter) (hty : p → ty.Known) :
    L.triple p (c.declarator ty) fun d => d.ty.Known := by
  have hbody : L.triple p (do
      let params ← CWithClasses.checkParameters (c.part? 1)
      let function ← CWithClasses.newFunctionType ty params
      let declared ← (← c.part 0).roles.declarator function
      return declared.withParameters params) fun d => d.ty.Known := by
    refine L.bind (L.checkParameters hparams) fun params => ?_
    refine L.bind (L.newFunctionType fun hp => ⟨hty hp.1, hp.2⟩) fun function => ?_
    refine L.part hinner fun d hd => ?_
    exact L.bind (hd _ _ And.right) fun declared => L.ret _ And.right
  unfold Clause.declarator
  rcases hrule with hrule | hrule <;> rw [hrule] <;> exact hbody

/-- A function declarator without a name. -/
theorem declarator_abstractFunction (hrule : c.rule = .abstractFunction)
    (hinner : ∀ d, c.part? 0 = some d → L.Declarator d)
    (hparams : ∀ q, c.part? 1 = some q → q.Each L.Parameter) (hty : p → ty.Known) :
    L.triple p (c.declarator ty) fun d => d.ty.Known := by
  unfold Clause.declarator
  rw [hrule]
  refine L.bind (L.checkParameters hparams) fun params => ?_
  refine L.bind (L.newFunctionType fun hp => ⟨hty hp.1, hp.2⟩) fun function => ?_
  exact L.bind (L.declareInner hinner And.right) fun declared => L.ret _ And.right

/-- An array declarator. -/
theorem declarator_array (hrule : c.rule = .arrayDeclarator) (hinner : L.Has c 0 L.Declarator)
    (hsize : ∀ q, c.part? 1 = some q → L.Expression q) (hty : p → ty.Known) :
    L.triple p (c.declarator ty) fun d => d.ty.Known := by
  unfold Clause.declarator
  rw [hrule]
  refine L.next (L.checkArraySize hsize) fun size => ?_
  exact L.part hinner fun d hd => hd _ _ fun hp => Ty.known_array.mpr (hty hp)

/-- An array declarator without a name. -/
theorem declarator_abstractArray (hrule : c.rule = .abstractArray)
    (hinner : ∀ d, c.part? 0 = some d → L.Declarator d)
    (hsize : ∀ q, c.part? 1 = some q → L.Expression q) (hty : p → ty.Known) :
    L.triple p (c.declarator ty) fun d => d.ty.Known := by
  unfold Clause.declarator
  rw [hrule]
  refine L.next (L.checkArraySize hsize) fun size => ?_
  exact L.declareInner hinner fun hp => Ty.known_array.mpr (hty hp)

/-- A declarator in parentheses. -/
theorem declarator_parens (hrule : c.rule = .abstractParens)
    (hinner : ∀ d, c.part? 0 = some d → L.Declarator d) (hty : p → ty.Known) :
    L.triple p (c.declarator ty) fun d => d.ty.Known := by
  unfold Clause.declarator
  rw [hrule]
  exact L.declareInner hinner hty

/-- A constructor. -/
theorem declarator_constructor (hrule : c.rule = .constructorDeclarator)
    (hname : L.Has c 0 fun q => L.Leaf q.node)
    (hparams : ∀ q, c.part? 1 = some q → q.Each L.Parameter) :
    L.triple p (c.declarator ty) fun d => d.ty.Known := by
  unfold Clause.declarator
  rw [hrule]
  refine L.part hname fun q hq => ?_
  refine L.leaf hq fun t _ => ?_
  refine L.bind (L.checkParameters hparams) fun params => ?_
  refine L.bind (L.newFunctionType fun hp => ⟨Ty.known_void, hp.2⟩) fun function => ?_
  exact L.ret _ And.right

/-- A destructor. -/
theorem declarator_destructor (hrule : c.rule = .destructorDeclarator)
    (hname : L.Has c 0 fun q => L.Leaf q.node) :
    L.triple p (c.declarator ty) fun d => d.ty.Known := by
  unfold Clause.declarator
  rw [hrule]
  refine L.part hname fun q hq => ?_
  refine L.leaf hq fun t _ => ?_
  refine L.bind (L.newFunctionType fun _ => ⟨Ty.known_void, by simp⟩) fun function => ?_
  exact L.ret _ And.right

/-- A name that is qualified by a class. -/
theorem declarator_qualified (hrule : c.rule = .qualifiedDeclarator)
    (hcls : L.Has c 0 fun q => L.Name q.node) (hinner : L.Has c 1 L.Declarator)
    (hty : p → ty.Known) : L.triple p (c.declarator ty) fun d => d.ty.Known := by
  unfold Clause.declarator
  rw [hrule]
  refine L.part hcls fun q hq => ?_
  refine L.lift hq fun cls _ => ?_
  refine L.part hinner fun d hd => ?_
  exact L.bind (hd p ty hty) fun declared => L.ret _ And.right

/-! ### Declarators of new-expressions -/

/-- A pointer. -/
theorem newDeclarator_pointer (hrule : c.rule = .newPointer)
    (hinner : ∀ d, c.part? 1 = some d → L.NewDeclarator d) (hty : p → ty.Known) :
    L.triple p (c.newDeclarator ty) Ty.Known := by
  unfold Clause.newDeclarator
  rw [hrule]
  dsimp only
  split
  next d hd => exact hinner d hd _ _ fun hp => Ty.known_pointer.mpr (hty hp)
  next => exact L.ret _ fun hp => Ty.known_pointer.mpr (hty hp)

/-- The dimension that counts the elements. -/
theorem newDeclarator_bound (hrule : c.rule = .newBound) (hsize : L.Has c 0 L.Expression)
    (hty : p → ty.Known) : L.triple p (c.newDeclarator ty) Ty.Known := by
  unfold Clause.newDeclarator
  rw [hrule]
  refine L.part hsize fun q hq => ?_
  refine L.next (L.checkArraySize fun r hr => Option.some.inj hr ▸ hq) fun _ => ?_
  exact L.ret _ hty

/-- A further dimension. -/
theorem newDeclarator_array (hrule : c.rule = .newArray) (hinner : L.Has c 0 L.NewDeclarator)
    (hsize : L.Has c 1 L.Expression) (hty : p → ty.Known) :
    L.triple p (c.newDeclarator ty) Ty.Known := by
  unfold Clause.newDeclarator
  rw [hrule]
  refine L.part hsize fun q hq => ?_
  refine L.next (L.checkArraySize fun r hr => Option.some.inj hr ▸ hq) fun size => ?_
  exact L.part hinner fun d hd => hd _ _ fun hp => Ty.known_array.mpr (hty hp)

end

end StepLogic

/-! ### What declarators introduce

These hold in any case, since a fault yields nothing. -/

namespace Check.Yields

variable {c : Clause} {ty : Ty} {P R : Declared → Prop}

/-- The type of a function is that of a function. -/
theorem newFunctionType (result : Ty) (params : List Parameter) :
    (CWithClasses.newFunctionType result params).Yields fun t => t.function?.isSome :=
  Yields.next fun _ => Yields.next fun _ => .ret rfl

/-- A name introduces itself, with the type that it is given. -/
theorem declarator_token (hrule : c.rule = .token) :
    (c.declarator ty).Yields fun d => d.name.isSome ∧ d.ty = ty := by
  unfold Clause.declarator
  rw [hrule]
  refine Yields.next fun t => ?_
  split
  · exact .ret ⟨rfl, rfl⟩
  · exact .fault _

/-- A pointer operator introduces what the declarator behind it does. -/
theorem declarator_pointer (hrule : c.rule = .pointerDeclarator)
    (hinner : ∀ q, c.part? 1 = some q → ∀ t, (q.roles.declarator t).Yields R) :
    (c.declarator ty).Yields R := by
  unfold Clause.declarator
  rw [hrule]
  refine Yields.next fun operator => Yields.next fun target => ?_
  exact (Yields.part c 1).bind fun q hq => hinner q hq target

/-- A function layer hands a function to the declarator inside, and adds its parameters. -/
theorem declarator_function
    (hrule : c.rule = .functionDeclarator ∨ c.rule = .constFunctionDeclarator)
    (hinner : ∀ q, c.part? 0 = some q → ∀ t : Ty, t.function?.isSome →
      (q.roles.declarator t).Yields P)
    (hadd : ∀ d params, P d → R (d.withParameters params)) : (c.declarator ty).Yields R := by
  have hbody : Check.Yields (do
      let params ← checkParameters (c.part? 1)
      let function ← CWithClasses.newFunctionType ty params
      let declared ← (← c.part 0).roles.declarator function
      return declared.withParameters params) R := by
    refine Yields.next fun params => ?_
    refine (newFunctionType ty params).bind fun function hfunction => ?_
    refine (Yields.part c 0).bind fun q hq => ?_
    exact (hinner q hq function hfunction).bind fun d hd => .ret (hadd d params hd)
  unfold Clause.declarator
  rcases hrule with hrule | hrule <;> rw [hrule] <;> exact hbody

/-- An array layer introduces what the declarator inside does. -/
theorem declarator_array (hrule : c.rule = .arrayDeclarator)
    (hinner : ∀ q, c.part? 0 = some q → ∀ t, (q.roles.declarator t).Yields R) :
    (c.declarator ty).Yields R := by
  unfold Clause.declarator
  rw [hrule]
  refine Yields.next fun size => ?_
  exact (Yields.part c 0).bind fun q hq => hinner q hq _

/-- Constructors and destructors introduce functions. -/
theorem declarator_special
    (hrule : c.rule = .constructorDeclarator ∨ c.rule = .destructorDeclarator) :
    (c.declarator ty).Yields fun d =>
      d.name.isSome ∧ d.parameters.isSome ∧ d.ty.function?.isSome := by
  unfold Clause.declarator
  rcases hrule with hrule | hrule <;> rw [hrule]
  · refine Yields.next fun q => Yields.next fun cls => Yields.next fun params => ?_
    exact (newFunctionType _ _).bind fun t ht => .ret ⟨rfl, rfl, ht⟩
  · refine Yields.next fun q => Yields.next fun cls => ?_
    exact (newFunctionType _ _).bind fun t ht => .ret ⟨rfl, rfl, ht⟩

/-- A qualified name introduces what the declarator behind it does, with its class. -/
theorem declarator_qualified (hrule : c.rule = .qualifiedDeclarator)
    (hinner : ∀ q, c.part? 1 = some q → (q.roles.declarator ty).Yields P)
    (hadd : ∀ d cls, P d → R (d.withClass cls)) : (c.declarator ty).Yields R := by
  unfold Clause.declarator
  rw [hrule]
  refine Yields.next fun q => Yields.next fun cls => ?_
  refine (Yields.part c 1).bind fun q hq => ?_
  exact (hinner q hq).bind fun d hd => .ret (hadd d cls hd)

end Check.Yields

end CWithClasses
