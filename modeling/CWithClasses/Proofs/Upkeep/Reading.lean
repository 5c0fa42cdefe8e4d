import CWithClasses.Proofs.Upkeep.Basic

/-!
# What is read before anything is declared

The types that specifiers and declarators yield are made of classes, which are found by their names,
and of functions, which are made on the way. So they mention no functions but those of the base type
and new ones. A parameter or an object that is of a class as it stands gets its name from a
declarator that adds nothing to the base type.

A phrase obeys a `ReadingLogic` if it keeps to it in all the roles in which it is read. What is
needed of a class specification and of a class that is named with its key stays a hypothesis.
-/

namespace CWithClasses

open Check

variable {G : TypeGuard} {D : String → Prop}

/-! ### What has been read -/

/-- What holds of a parameter: its type may be bound and is no function, and if it is an object, its
name is a given one. -/
structure Parameter.Sound (G : TypeGuard) (D : String → Prop) (param : Parameter) : Prop where
  permitted : G.types param.ty
  function : param.ty.function? = none
  object : ∀ c name, param.ty = .object c → param.name = some name → D name.name

/-- What holds of a declarator that has been applied to its base type. If it has come across
parameters and declares a function, these are its parameters; otherwise it declares a function only
if the base type is one. -/
structure Declared.Sound (G : TypeGuard) (D : String → Prop) (base : Ty) (d : Declared) : Prop where
  permitted : G.types d.ty
  parameters : ∀ params, d.parameters = some params → ∀ param ∈ params, param.Sound G D
  function : ∀ params f, d.parameters = some params → d.ty.function? = some f →
    f.params = params.map (·.ty)
  bare : d.parameters = none → ∀ f, d.ty.function? = some f → base.function? = some f

namespace Declared.Sound

variable {base base' : Ty} {d : Declared} {params : List Parameter}

/-- A declarator that adds nothing to its base type. -/
theorem plain (name : Option DeclaredName) (h : G.types base) :
    Declared.Sound G D base { name, ty := base } where
  permitted := h
  parameters _ hparams := by cases hparams
  function _ _ hparams := by cases hparams
  bare _ _ hf := hf

/-- A base type that is no function unless the other one is the same. -/
theorem rebase (h : d.Sound G D base')
    (hbase : ∀ f, base'.function? = some f → base.function? = some f) : d.Sound G D base where
  permitted := h.permitted
  parameters := h.parameters
  function := h.function
  bare hnone f hf := hbase f (h.bare hnone f hf)

/-- The parameters of an outer function layer. -/
theorem withParameters (h : d.Sound G D base')
    (hbase : ∀ f, base'.function? = some f → f.params = params.map (·.ty))
    (hparams : ∀ param ∈ params, param.Sound G D) : (d.withParameters params).Sound G D base := by
  cases hinner : d.parameters with
  | none =>
    have hsome : (d.withParameters params).parameters = some params := by
      simp [Declared.withParameters, hinner]
    refine ⟨h.permitted, fun ps hps => ?_, fun ps f hps hf => ?_, fun hnone => ?_⟩
    · exact Option.some.inj (hsome.symm.trans hps) ▸ hparams
    · rw [← Option.some.inj (hsome.symm.trans hps)]
      exact hbase f (h.bare hinner f hf)
    · rw [hsome] at hnone
      cases hnone
  | some inner =>
    have hsome : (d.withParameters params).parameters = d.parameters := by
      simp [Declared.withParameters, hinner]
    refine ⟨h.permitted, hsome ▸ h.parameters, hsome ▸ h.function, fun hnone => ?_⟩
    rw [hsome, hinner] at hnone
    cases hnone

/-- A name qualified by a class. -/
theorem withClass (h : d.Sound G D base) (cls : Token) : (d.withClass cls).Sound G D base :=
  ⟨h.permitted, h.parameters, h.function, h.bare⟩

end Declared.Sound

/-- The declarators by which an item of a declaration may declare an object. -/
def Phrase.itemDeclarators (q : Phrase) : List Phrase :=
  match q.rule with
  | .initDecl | .pureMember | .initializedMember | .bitField => q :: (q.part? 0).toList
  | _ => [q]

/-- The declarators by which a construct may declare objects. Its specifiers stand in front. -/
def Phrase.declarators (q : Phrase) : List Phrase :=
  match q.rule with
  | .conditionDecl | .namedParam | .namedParamDefault | .abstractParam | .abstractParamDefault =>
      (q.part? 1).toList
  | .simpleDecl | .memberDecl => (Phrase.flatten? (q.part? 1)).flatMap Phrase.itemDeclarators
  | _ => []

/-- An object that the declarator makes of the base type has a given name. -/
def Phrase.Names (D : String → Prop) (base : Ty) (q : Phrase) : Prop :=
  (q.roles.declarator base).Yields fun d =>
    ∀ c name, d.ty = .object c → d.name = some name → D name.name

/-- Objects that the construct declares have given names. -/
def Phrase.NamesObjects (D : String → Prop) (q : Phrase) : Prop :=
  (checkSpecifiers? (q.part? 0)).Yields fun base => ∀ d ∈ q.declarators, d.Names D base

/-- An item of a declaration may be a mere declarator. -/
theorem Phrase.mem_itemDeclarators (q : Phrase) : q ∈ q.itemDeclarators := by
  unfold itemDeclarators
  split <;> simp

/-- The base type of a construct is that of its specifiers. -/
theorem Phrase.NamesObjects.specifiers {D : String → Prop} {q r : Phrase} (h : q.NamesObjects D)
    (hr : q.part? 0 = some r) :
    r.specifiers.Yields fun base => ∀ d ∈ q.declarators, d.Names D base := by
  rwa [NamesObjects, hr] at h

/-- Each item of a declaration is given the base type of the declaration. -/
theorem Phrase.NamesObjects.items {D : String → Prop} {q : Phrase} (h : q.NamesObjects D)
    (hrule : q.rule = .simpleDecl ∨ q.rule = .memberDecl) :
    (checkSpecifiers? (q.part? 0)).Yields fun base =>
      ∀ item ∈ Phrase.flatten? (q.part? 1), ∀ d ∈ item.itemDeclarators, d.Names D base := by
  have hdeclarators : q.declarators = (Phrase.flatten? (q.part? 1)).flatMap itemDeclarators := by
    unfold declarators
    rcases hrule with hrule | hrule <;> rw [hrule]
  refine h.mono fun base hbase item hitem d hd => hbase d ?_
  rw [hdeclarators]
  exact List.mem_flatMap.mpr ⟨item, hitem, hd⟩

/-- The phrase keeps to the logic wherever it is read. -/
structure Phrase.Obeys (L : ReadingLogic) (q : Phrase) : Prop where
  names : q.NamesObjects L.names
  expression : L.Idle q.roles.expression
  specifier : ∀ p, L.triple p q.roles.specifier fun ty => ∀ t, ty = some t → L.guard.types t
  declarator : ∀ (p : Prop) (base : Ty), (p → L.guard.types base) →
    L.triple p (q.roles.declarator base) (Declared.Sound L.guard L.names base)
  newDeclarator : ∀ base, L.Idle (q.roles.newDeclarator base)

namespace ReadingLogic

variable {L : ReadingLogic} {p : Prop} {q : Phrase} {c : Clause} {o : Option Phrase} {base : Ty}

/-- The phrase obeys the logic, and so does all that it is made of. -/
abbrev Obeys (L : ReadingLogic) (q : Phrase) : Prop := q.Throughout (Phrase.Obeys L)

/-! ### Specifiers -/

/-- A name that is looked up as a type. -/
theorem resolveTypeName (name : Token) :
    L.triple p (Check.resolveTypeName name) L.guard.types := by
  have hreject : ∀ {q : Prop} {e : Problem}, ¬ e.isRedeclaration = true →
      L.triple q (Check.reject e name.position) L.guard.types := by
    intro q e he
    refine L.post (reject _ he) ?_
    rintro _ - rfl
    exact L.guard.unknown
  unfold Check.resolveTypeName
  refine L.bind L.symbols fun table => ?_
  split
  next ty hfound =>
    obtain ⟨c, rfl⟩ := SymbolTable.lookupTypeName_object hfound
    exact L.ret _ fun hp => L.guard.object (hp.2.names _ c hfound)
  next => exact hreject nofun
  next e _ hfound => exact hreject (SymbolTable.failure_of_lookupTypeName hfound).2

/-- A name that is looked up as a class. -/
theorem resolveClass (name : Token) : L.Idle (Check.resolveClass name) :=
  .bind (.of fun _ => resolveTypeName name) fun _ => .ret _

/-- A specifier that is a single token. -/
theorem specifierToken :
    L.triple p c.specifierToken fun ty => ∀ t, ty = some t → L.guard.types t := by
  have hnone : ∀ t : Ty, none = some t → L.guard.types t := by
    intro t ht
    cases ht
  unfold Clause.specifierToken
  refine L.lift fun t => ?_
  split
  · refine L.bind (resolveTypeName t) fun ty => L.ret _ ?_
    rintro ⟨-, hty⟩ _ ht
    exact Option.some.inj ht ▸ hty
  · split
    · exact L.next (L.report _ nofun) fun _ => L.ret _ fun _ => hnone
    · split
      · exact L.ret _ fun _ => hnone
      · split
        next ty hty =>
          refine L.ret _ fun _ t ht => ?_
          exact Option.some.inj ht ▸ L.guard.primitive hty
        next => exact L.unexpected c _

/-- A sequence of specifiers. -/
theorem specifiers (hq : L.Obeys q) : L.triple p q.specifiers L.guard.types := by
  unfold Phrase.specifiers
  refine L.bind (P := fun base => ∀ t, base = some t → L.guard.types t) ?_ fun base => ?_
  · refine L.foldlM (fun _ t ht => by cases ht) fun base item hitem => ?_
    unfold Phrase.specifierAfter
    refine L.bind ((hq.flatten item hitem).self.specifier _) fun ty => ?_
    split
    · exact L.ret _ fun h => h.1.2
    · exact L.ret _ fun h => h.2
    · exact L.next (L.report _ nofun) fun _ => L.ret _ fun h => h.1.2
  · refine L.ret _ fun h => ?_
    cases base with
    | none => exact L.guard.int
    | some t => exact h.2 t rfl

/-- A sequence of specifiers that may be left out. -/
theorem checkSpecifiers (ho : ∀ r, o = some r → L.Obeys r) :
    L.triple p (checkSpecifiers? o) L.guard.types := by
  cases o with
  | none => exact L.ret _ fun _ => L.guard.void
  | some r => exact specifiers (ho r rfl)

/-- A type name with an optional declarator. -/
theorem clauseTypeName (hparts : c.Throughout (Phrase.Obeys L)) :
    L.triple p c.typeName L.guard.types := by
  unfold Clause.typeName
  refine L.part fun q hq => ?_
  refine L.bind (specifiers (hparts 0 q hq)) fun base => ?_
  cases hpart : c.part? 1 with
  | none => exact L.ret _ And.right
  | some d =>
    refine L.bind ((hparts 1 d hpart).self.declarator _ base And.right) fun declared => ?_
    exact L.ret _ fun h => h.2.permitted

/-- A type name, which may be a mere sequence of specifiers. -/
theorem typeName (hq : L.Obeys q) : L.triple p q.typeName L.guard.types := by
  unfold Phrase.typeName
  split
  · exact clauseTypeName hq.clause
  · exact specifiers hq

/-- A class that is a member of another class. -/
theorem nestedClass (outer inner : Phrase) :
    L.triple p (CWithClasses.nestedClass outer inner) L.guard.types := by
  have hunknown : ∀ {q : Prop} {x : Check Ty}, L.triple q x (· = .unknown) →
      L.triple q x L.guard.types := by
    intro q x hx
    refine L.post hx ?_
    rintro _ - rfl
    exact L.guard.unknown
  unfold CWithClasses.nestedClass
  refine L.lift fun name => ?_
  refine L.next (resolveClass name p) fun cls? => ?_
  refine L.lift fun member => ?_
  split
  · exact L.ret _ fun _ => L.guard.unknown
  · refine L.bind L.symbols fun table => ?_
    split
    next hfound => exact L.ret _ fun hp => L.guard.object (hp.2.members _ _ _ _ hfound)
    · exact hunknown (mismatch _ _ _)
    next e hfound =>
      exact hunknown (reject _ (SymbolTable.failure_of_memberLookup hfound).2)

/-- A specifier whose parts obey. What is needed of classes is a hypothesis. -/
theorem specifier (hparts : c.Throughout (Phrase.Obeys L))
    (hclass : c.rule = .classSpec → ∀ p, L.triple p c.classSpec L.guard.types)
    (helaborated : c.rule = .elaborated → ∀ p r name, c.part? 1 = some r →
      r.node.token = some name → L.triple p (elaborate name) L.guard.types) :
    L.triple p c.specifier fun ty => ∀ t, ty = some t → L.guard.types t := by
  have hsome : ∀ {x : Check Ty}, L.triple p x L.guard.types →
      L.triple p (some <$> x) fun ty => ∀ t, ty = some t → L.guard.types t := by
    intro x hx
    refine L.bind hx fun ty => L.ret _ ?_
    rintro ⟨-, hty⟩ _ ht
    exact Option.some.inj ht ▸ hty
  unfold Clause.specifier
  split
  next => exact specifierToken
  next hrule => exact hsome (hclass hrule p)
  next hrule =>
    refine L.part fun r hr => ?_
    exact L.leaf fun name hname => hsome (helaborated hrule p r name hr hname)
  next =>
    refine L.part fun outer _ => ?_
    exact L.part fun inner _ => hsome (nestedClass outer inner)
  next =>
    refine L.part fun outer _ => ?_
    exact L.part fun inner _ => hsome (nestedClass outer inner)
  next => exact hsome (clauseTypeName hparts)
  next => exact L.unexpected c _

/-! ### Parameters -/

/-- The size of an array dimension. -/
theorem checkArraySize (ho : ∀ r, o = some r → L.Obeys r) :
    L.Idle (CWithClasses.checkArraySize o) := by
  unfold CWithClasses.checkArraySize
  split
  · exact .ret _
  next r =>
    split
    · exact .ret _
    · split
      · exact .bind (.report _ nofun) fun _ => .ret _
      · exact (ho r rfl).self.expression.bind fun ty =>
          (Idle.looks (.checkIntegral ty _)).bind fun _ => .ret _

/-- The type of a function over the parameters. -/
theorem newFunctionType {result : Ty} {params : List Parameter}
    (h : p → L.guard.types result ∧ ∀ param ∈ params, param.Sound L.guard L.names) :
    L.triple p (CWithClasses.newFunctionType result params) L.guard.types := by
  refine L.newFunction _ fun hp => ⟨(h hp).1, fun t ht => ?_⟩
  obtain ⟨param, hparam, rfl⟩ := List.mem_map.mp ht
  exact ((h hp).2 param hparam).permitted

/-- A default argument against its parameter. -/
theorem checkDefault (ty : Ty) (ho : ∀ r, o = some r → L.Obeys r) :
    L.Idle (CWithClasses.checkDefault ty o) := by
  cases o with
  | none => exact .ret _
  | some r =>
    refine (ho r rfl).self.expression.bind fun value => ?_
    split
    · exact .ret _
    · exact .report _ nofun

/-- The declarator and the default argument of a parameter are parts of it. -/
theorem parameterParts (q : Phrase) :
    L.expressions.pair q.parameterParts q.parameterParts fun parts _ =>
      (∀ d, parts.1 = some d → d ∈ q.declarators ∧ q.part? 1 = some d) ∧
        ∀ d, parts.2 = some d → q.part? 2 = some d := by
  have hfirst : q.declarators = (q.part? 1).toList → ∀ d, q.part? 1 = some d →
      d ∈ q.declarators ∧ q.part? 1 = some d :=
    fun hrule d hd => ⟨by simp [hrule, hd], hd⟩
  have hnone : ∀ d, none = some d → q.part? 2 = some d := by
    intro d hd
    cases hd
  unfold Phrase.parameterParts
  split
  next hrule =>
    have hone := hfirst (by simp [Phrase.declarators, hrule])
    refine L.expressions.part fun d hd => ?_
    exact L.expressions.ret ⟨fun _ hd' => hone _ (hd' ▸ hd), hnone⟩
  next hrule =>
    have hone := hfirst (by simp [Phrase.declarators, hrule])
    refine L.expressions.part fun d hd => ?_
    refine L.expressions.part fun e he => ?_
    exact L.expressions.ret
      ⟨fun _ hd' => hone _ (hd' ▸ hd), fun _ he' => he' ▸ he⟩
  next hrule =>
    have hone := hfirst (by simp [Phrase.declarators, hrule])
    exact L.expressions.ret ⟨hone, hnone⟩
  next hrule =>
    have hone := hfirst (by simp [Phrase.declarators, hrule])
    refine L.expressions.part fun e he => ?_
    exact L.expressions.ret ⟨hone, fun _ he' => he' ▸ he⟩
  next => exact L.expressions.fault _

/-- A single parameter. -/
theorem parameter (hq : L.Obeys q) :
    L.triple p q.parameter (Parameter.Sound L.guard L.names) := by
  unfold Phrase.parameter
  obtain ⟨hidle, hyields⟩ := parameterParts (L := L) q
  refine L.seq hyields (hidle p) ?_
  rintro ⟨declarator, default⟩ ⟨_, hdeclarator, hdefault⟩
  refine L.part fun r hr => ?_
  refine L.seq (hq.self.names.specifiers hr) (specifiers (hq.part hr)) fun base hobjects => ?_
  have hrest : ∀ {q' : Prop} (d : Declared), (q' → L.guard.types d.ty) →
      (∀ c name, d.ty = .object c → d.name = some name → L.names name.name) →
      L.triple q'
        (do CWithClasses.checkDefault d.ty.decay default
            return Parameter.mk d.name d.ty.decay default.isSome)
        (Parameter.Sound L.guard L.names) := by
    intro q' d hover hobject
    have hchecked := checkDefault (L := L) d.ty.decay fun r hr => hq.part (hdefault r hr)
    refine L.next (hchecked q') fun _ => L.ret _ fun h => ?_
    refine ⟨L.guard.decay (hover h), d.ty.function?_decay, fun c name hc hname => ?_⟩
    exact hobject c name (Ty.eq_of_decay_eq_object hc) hname
  cases declarator with
  | none => exact hrest { ty := base } And.right fun _ _ _ hname => by cases hname
  | some d =>
    obtain ⟨hmem, hpart⟩ := hdeclarator d rfl
    refine L.seq (hobjects d hmem) ((hq.part hpart).self.declarator _ base And.right) ?_
    exact fun declared hobject => hrest declared (fun h => h.2.permitted) hobject

/-- A parameter is not void. -/
theorem checkNotVoid (list : Position) {param : Parameter}
    (h : p → param.Sound L.guard L.names) :
    L.triple p (CWithClasses.checkNotVoid list param) (Parameter.Sound L.guard L.names) := by
  unfold CWithClasses.checkNotVoid
  split
  · refine L.bind (reject _ nofun) fun ty => L.ret _ ?_
    rintro ⟨-, rfl⟩
    exact ⟨L.guard.unknown, rfl, fun _ _ hc => by cases hc⟩
  · exact L.ret _ h

/-- The parameters of a function. -/
theorem checkParameters (ho : ∀ r, o = some r → L.Obeys r) :
    L.triple p (CWithClasses.checkParameters o)
      fun params => ∀ param ∈ params, param.Sound L.guard L.names := by
  cases o with
  | none => exact L.ret _ fun _ _ hparam => by cases hparam
  | some r =>
    refine L.bind (L.mapM fun item hitem => parameter ((ho r rfl).flatten item hitem))
      fun params => ?_
    split
    · exact L.ret _ fun _ _ hparam => by cases hparam
    · exact L.mapM fun param hparam => checkNotVoid _ fun h => h.2 param hparam

/-! ### Declarators -/

/-- A pointer operator. -/
theorem pointerOperator {ty : Ty} (h : p → L.guard.types ty) :
    L.triple p (q.pointerOperator ty) fun t =>
      L.guard.types t ∧ ∀ f, t.function? = some f → ty.function? = some f := by
  have hpointer : p → L.guard.types (.pointer ty) ∧
      ∀ f, (Ty.pointer ty).function? = some f → ty.function? = some f :=
    fun hp => ⟨L.guard.pointer (h hp), fun _ hf => by cases hf⟩
  unfold Phrase.pointerOperator
  split
  · exact L.ret _ hpointer
  · refine L.post (reject _ nofun) ?_
    rintro _ - rfl
    exact ⟨L.guard.unknown, fun _ hf => by cases hf⟩
  · refine L.lift fun t => ?_
    split
    · exact L.ret _ hpointer
    · exact L.ret _ fun hp => ⟨h hp, fun _ hf => hf⟩
    · exact L.fault _
  · exact L.fault _

/-- A declarator that may be left out. -/
theorem declareInner (ho : ∀ r, o = some r → L.Obeys r) {ty : Ty} (h : p → L.guard.types ty) :
    L.triple p (CWithClasses.declareInner o ty) (Declared.Sound L.guard L.names ty) := by
  cases o with
  | none => exact L.ret _ fun hp => .plain none (h hp)
  | some r => exact (ho r rfl).self.declarator p ty h

/-- The type of a function has the types of its parameters. -/
theorem newFunctionType_yields (result : Ty) (params : List Parameter) :
    (CWithClasses.newFunctionType result params).Yields fun t =>
      ∀ f, t.function? = some f → f.params = params.map (·.ty) := by
  refine Yields.next fun _ => Yields.next fun _ => .ret ?_
  rintro f hf
  cases hf
  rfl

/-- The parameters of a function layer are added to what is declared inside. -/
theorem addParameters {function : Ty} {params : List Parameter} {x : Check Declared}
    (hfunction : ∀ f, function.function? = some f → f.params = params.map (·.ty))
    (h : p → ∀ param ∈ params, param.Sound L.guard L.names)
    (hx : L.triple p x (Declared.Sound L.guard L.names function)) :
    L.triple p (do return (← x).withParameters params)
      (Declared.Sound L.guard L.names base) :=
  L.bind hx fun _ => L.ret _ fun hp => hp.2.withParameters hfunction (h hp.1)

/-- A constructor or a destructor. -/
theorem specialDeclarator {name : DeclaredName} {params : List Parameter} {function : Ty}
    (hfunction : ∀ f, function.function? = some f → f.params = params.map (·.ty))
    (h : p → (∀ param ∈ params, param.Sound L.guard L.names) ∧ L.guard.types function) :
    L.triple p (pure { name := some name, ty := function, parameters := some params })
      (Declared.Sound L.guard L.names base) := by
  refine L.ret _ fun hp => ⟨(h hp).2, fun ps hps => ?_, fun ps f hps hf => ?_, fun hnone => ?_⟩
  · exact Option.some.inj hps ▸ (h hp).1
  · exact Option.some.inj hps ▸ hfunction f hf
  · cases hnone

section Layers

variable (hparts : c.Throughout (Phrase.Obeys L))

include hparts

/-- A function layer: the parameters, then the function, and then the layers inside. -/
theorem functionLayer {result : Ty} (h : p → L.guard.types result)
    {k : List Parameter → Ty → Check Declared} {Q : Declared → Prop}
    (hk : ∀ params function, (∀ f, function.function? = some f → f.params = params.map (·.ty)) →
      L.triple ((p ∧ ∀ param ∈ params, param.Sound L.guard L.names) ∧
        L.guard.types function) (k params function) Q) :
    L.triple p
      (do let params ← CWithClasses.checkParameters (c.part? 1)
          k params (← CWithClasses.newFunctionType result params)) Q := by
  refine L.bind (checkParameters (hparts 1)) fun params => ?_
  refine L.seq (newFunctionType_yields result params) (newFunctionType fun hp => ⟨h hp.1, hp.2⟩) ?_
  exact fun function hfunction => hk params function hfunction

/-- A declarator whose parts obey. -/
theorem declarator (h : p → L.guard.types base) :
    L.triple p (c.declarator base) (Declared.Sound L.guard L.names base) := by
  have harray : ∀ size f, (Ty.array base size).function? = some f → base.function? = some f := by
    intro size f hf
    cases hf
  unfold Clause.declarator
  split
  next =>
    refine L.lift fun t => ?_
    split
    · exact L.ret _ fun hp => .plain _ (h hp)
    · exact L.unexpected c _
  next =>
    refine L.part fun r _ => ?_
    refine L.bind (pointerOperator h) fun ty => ?_
    refine L.part fun inner hinner => ?_
    refine L.post ((hparts 1 inner hinner).self.declarator _ ty fun hp => hp.2.1) fun d hp hd => ?_
    exact hd.rebase hp.2.2
  next =>
    refine L.part fun r _ => ?_
    refine L.bind (pointerOperator h) fun ty => ?_
    refine L.post (declareInner (hparts 1) fun hp => hp.2.1) fun d hp hd => ?_
    exact hd.rebase hp.2.2
  next =>
    refine functionLayer hparts h fun params function hfunction => ?_
    refine L.part fun inner hinner => addParameters hfunction (fun hp => hp.1.2) ?_
    exact (hparts 0 inner hinner).self.declarator _ function And.right
  next =>
    refine functionLayer hparts h fun params function hfunction => ?_
    refine L.part fun inner hinner => addParameters hfunction (fun hp => hp.1.2) ?_
    exact (hparts 0 inner hinner).self.declarator _ function And.right
  next =>
    refine functionLayer hparts h fun params function hfunction => ?_
    exact addParameters hfunction (fun hp => hp.1.2) (declareInner (hparts 0) And.right)
  next =>
    refine L.next (checkArraySize (hparts 1) p) fun size => ?_
    refine L.part fun inner hinner => ?_
    have hdeclared := (hparts 0 inner hinner).self.declarator p (.array base size) fun hp =>
      L.guard.array size (h hp)
    exact L.post hdeclared fun d _ hd => hd.rebase (harray size)
  next =>
    refine L.next (checkArraySize (hparts 1) p) fun size => ?_
    have hdeclared : L.triple p (CWithClasses.declareInner (c.part? 0) (.array base size)) _ :=
      declareInner (hparts 0) fun hp => L.guard.array size (h hp)
    exact L.post hdeclared fun d _ hd => hd.rebase (harray size)
  next => exact declareInner (hparts 0) h
  next =>
    refine L.part fun r _ => ?_
    refine L.lift fun cls => ?_
    refine functionLayer hparts (fun _ => L.guard.void) fun params function hfunction => ?_
    exact specialDeclarator hfunction fun hp => ⟨hp.1.2, hp.2⟩
  next =>
    have hnone : ∀ param : Parameter, param ∈ [] → param.Sound L.guard L.names := by
      intro param hparam
      cases hparam
    refine L.part fun r _ => ?_
    refine L.lift fun cls => ?_
    refine L.seq (newFunctionType_yields _ _)
      (newFunctionType fun _ => ⟨L.guard.void, hnone⟩) fun function hfunction => ?_
    exact specialDeclarator hfunction fun hp => ⟨hnone, hp.2⟩
  next =>
    refine L.part fun r _ => ?_
    refine L.lift fun cls => ?_
    refine L.part fun inner hpart => ?_
    refine L.bind ((hparts 1 inner hpart).self.declarator p base h) fun d => ?_
    exact L.ret _ fun hp => hp.2.withClass cls
  next => exact L.unexpected c _

/-- A declarator of a new-expression whose parts obey. -/
theorem newDeclarator (ty : Ty) : L.Idle (c.newDeclarator ty) := by
  intro p
  unfold Clause.newDeclarator
  split
  next =>
    cases hpart : c.part? 1 with
    | none => exact Idle.ret _ p
    | some inner => exact (hparts 1 inner hpart).self.newDeclarator _ p
  next =>
    refine L.part fun r hr => ?_
    exact L.next (checkArraySize (hparts 0 r hr).of_some p) fun _ => Idle.ret _ p
  next =>
    refine L.part fun r hr => ?_
    refine L.next (checkArraySize (hparts 1 r hr).of_some p) fun size => ?_
    exact L.part fun inner hinner => (hparts 0 inner hinner).self.newDeclarator _ p
  next => exact L.unexpected c _

end Layers

/-! ### Expressions that name types -/

/-- The arguments of a call. -/
theorem checkArguments (ho : ∀ r, o = some r → L.Obeys r) :
    L.Idle (CWithClasses.checkArguments o) := by
  refine .of fun p => L.mapM (Q := fun _ => True) fun argument hargument => ?_
  have hexpression := (Phrase.throughout_flatten? ho argument hargument).self.expression
  exact L.next (hexpression p) fun ty => L.ret _ fun _ => trivial

/-- The type that a new-expression allocates. -/
theorem allocated (hq : L.Obeys q) : L.Idle (Clause.allocated q) := by
  intro p
  unfold Clause.allocated
  split
  · refine L.part fun r hr => ?_
    refine L.next (specifiers (hq.part hr)) fun base => ?_
    cases hpart : q.part? 1 with
    | none => exact Idle.ret _ p
    | some d => exact (hq.part hpart).self.newDeclarator base p
  · exact Idle.of (fun _ => typeName hq) p

/-- A member that is named through its class. -/
theorem qualifiedId : L.Idle c.qualifiedId := by
  intro p
  unfold Clause.qualifiedId
  refine L.part fun r _ => ?_
  refine L.lift fun cls => ?_
  refine L.next (resolveClass cls p) fun cls? => ?_
  refine L.part fun s _ => ?_
  refine L.lift fun member => ?_
  split
  · exact Idle.looks (.resolveMember _ member) p
  · exact Idle.ret _ p

section Naming

variable (hparts : c.Throughout (Phrase.Obeys L))

include hparts

/-- A cast that is written like a call. -/
theorem cast : L.Idle c.cast := by
  intro p
  unfold Clause.cast
  refine L.part fun r hr => ?_
  refine L.next (specifiers (hparts 0 r hr)) fun ty => ?_
  refine L.next (checkArguments (hparts 1) p) fun arguments => ?_
  split
  · exact Idle.ret _ p
  · split
    · exact L.next (Idle.looks (.checkConstructor _ arguments c.position) p) fun _ => Idle.ret _ p
    · exact L.next (Idle.looks (.convert c arguments) p) fun _ => Idle.ret _ p

/-- A new-expression. -/
theorem newExpr : L.Idle c.newExpr := by
  intro p
  unfold Clause.newExpr
  refine L.part fun r hr => ?_
  refine L.next (allocated (hparts 0 r hr) p) fun ty => ?_
  refine L.next (checkArguments (hparts 1) p) fun arguments => ?_
  split
  · exact L.next (Idle.looks (.checkConstruction ty arguments c.position) p) fun _ => Idle.ret _ p
  · split
    · exact L.next (Idle.looks (.checkConstructor _ [] c.position) p) fun _ => Idle.ret _ p
    · exact Idle.ret _ p

/-- An expression whose parts obey. -/
theorem expression : L.Idle c.expression := by
  have hexpressions : c.Throughout L.expressions.Expression :=
    fun i q hq => (hparts i q hq).mono fun _ h => ⟨h.expression, fun _ _ _ _ => ⟨.void, trivial⟩⟩
  have hnamed : c.rule.namesType = true → L.Idle c.expression := by
    intro hrule
    unfold Rule.namesType at hrule
    unfold Clause.expression
    split at hrule
    next h =>
      rw [h]
      exact qualifiedId
    next h =>
      rw [h]
      exact cast hparts
    next h =>
      rw [h]
      intro p
      refine L.part fun r hr => ?_
      exact L.next (typeName (hparts 0 r hr)) fun _ => Idle.ret _ p
    next h =>
      rw [h]
      exact newExpr hparts
    next => cases hrule
  exact (L.expressions.expression hexpressions (fun _ _ => trivial) fun hrule =>
    ⟨hnamed hrule, fun _ _ _ _ => ⟨.void, trivial⟩⟩).1

end Naming

end ReadingLogic

/-- A tree obeys if all that it is made of does, given what is needed about classes. -/
theorem Node.obeys {L : ReadingLogic} {n : Node} (hparts : n.clause.Throughout (Phrase.Obeys L))
    (hnames : n.phrase.NamesObjects L.names)
    (hclass : n.rule = .classSpec → ∀ p, L.triple p n.clause.classSpec L.guard.types)
    (helaborated : n.rule = .elaborated → ∀ p m name, n.child? 1 = some m → m.token = some name →
      L.triple p (elaborate name) L.guard.types) : n.phrase.Obeys L := by
  refine ⟨hnames, ?_, fun p => ?_, fun p base hbase => ?_, fun base => ?_⟩
  all_goals rw [n.phrase_roles_eq]
  · exact ReadingLogic.expression hparts
  · refine ReadingLogic.specifier hparts hclass fun hrule p r name hr hname => ?_
    obtain ⟨m, hm, rfl⟩ := n.child_of_part? hr
    exact helaborated hrule p m name hm (by rwa [m.phrase_node] at hname)
  · exact ReadingLogic.declarator hparts hbase
  · exact ReadingLogic.newDeclarator hparts base

end CWithClasses
