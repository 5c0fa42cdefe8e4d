import CWithClasses.Proofs.Pairs.Defining
import CWithClasses.Proofs.Sameness
import CWithClasses.Proofs.Upkeep.Running

/-!
# What whole trees bind

The parameters of a function are bound with the types that the function was declared with at first.
A later declaration of the same signature has the same classes in the same places, so a parameter
that is an object of a class comes from a declarator that is a mere name, whichever declaration is
the one that counts.

With functions and classes, all constructs uphold a `DeclaringLogic` if their parts do. So every
tree upholds it whose objects have given names.
-/

namespace CWithClasses

open Check

variable {G : TypeGuard} {D : String → Prop}

/-! ### Parameters of the same signature -/

/-- A function type is that of a function. -/
theorem Ty.asFunction?_of_function? {ty : Ty} {g : FunctionTy} (h : ty.function? = some g) :
    ty.asFunction? = some g := by
  unfold function? at h
  split at h
  · exact h
  · cases h

/-- If the second type is a function, then the first one is a function with the same parameters. -/
def Ty.SameParameters (a b : Ty) : Prop :=
  ∀ g, b.function? = some g → ∃ f, a.function? = some f ∧ sameTypes f.params g.params = true

/-- A function has its own parameters. -/
theorem Ty.sameParameters_refl (t : Ty) : t.SameParameters t :=
  fun g hg => ⟨g, hg, (sameTypes_iff _ _).mpr rfl⟩

/-- Functions of the same signature have the same parameters. -/
theorem Ty.sameParameters_of_sameSignature {a b : Ty} (h : sameSignature a b = true) :
    a.SameParameters b := by
  intro g hg
  unfold sameSignature at h
  split at h
  · cases hg
    rw [Bool.and_eq_true] at h
    exact ⟨_, rfl, h.2⟩
  · cases h

/-- Where a row of types has a class, a row of parameters of the same types has one too. -/
theorem exists_object_of_sameTypes {params : List Parameter} {types : List Ty}
    (h : sameTypes types (params.map (·.ty)) = true) {entry : Parameter × Ty} {c : ClassRef}
    (hentry : entry ∈ params.zip types) (hc : entry.2 = .object c) :
    entry.1 ∈ params ∧ ∃ d, entry.1.ty = .object d := by
  induction params generalizing types with
  | nil => cases hentry
  | cons param rest ih =>
    cases types with
    | nil => cases hentry
    | cons ty types =>
      rw [List.map_cons, sameTypes, Bool.and_eq_true] at h
      rcases List.mem_cons.mp hentry with rfl | hrest
      · refine ⟨List.mem_cons_self, ?_⟩
        replace hc : ty = .object c := hc
        obtain ⟨hsame, -⟩ := h
        rw [hc] at hsame
        change ∃ d, param.ty = .object d
        cases hty : param.ty with
        | object d => exact ⟨d, rfl⟩
        | _ =>
          rw [hty] at hsame
          cases hsame
      · obtain ⟨hmem, hobject⟩ := ih h.2 hrest
        exact ⟨List.mem_cons_of_mem _ hmem, hobject⟩

/-- What holds of the parameters of a function whose body is still to be checked: their types may be
bound, and objects have given names. -/
structure FunctionBody.Binds (G : TypeGuard) (D : String → Prop) (b : FunctionBody) : Prop where
  types : ∀ f, b.ty.asFunction? = some f → ∀ ty ∈ f.params, G.types ty
  objects : ∀ f, b.ty.asFunction? = some f → ∀ entry ∈ b.parameters.zip f.params, ∀ c name,
    entry.2 = .object c → entry.1.name = some name → D name.name

/-- The parameters of the function have the types of those that the declarator names, and none of
these is a function. -/
structure FunctionBody.Agrees (b : FunctionBody) : Prop where
  function : ∃ f, b.ty.function? = some f ∧ sameTypes f.params (b.parameters.map (·.ty)) = true
  parameters : ∀ param ∈ b.parameters, param.ty.function? = none

/-- What holds of the function that a definition introduces, and of the class around it. -/
structure Definition.Sound (G : TypeGuard) (declared : Ty) (d : Definition) : Prop where
  types : G.types d.ty
  parameters : d.ty.SameParameters declared
  cls : ∀ c, d.cls = some c → G.classes c

/-- What holds of a function whose body is still to be checked. -/
structure FunctionBody.Sound (G : TypeGuard) (D : String → Prop) (b : FunctionBody) : Prop
    extends b.Agrees, b.Binds G D where
  permitted : ∀ f, b.ty.asFunction? = some f → G.functions f.id
  whole : G.types b.ty
  cls : ∀ c, b.cls = some c → G.classes c

namespace DeclaringLogic

open ReadingLogic

variable {L : DeclaringLogic} {p : Prop} {q : Phrase} {c : Clause} {o : Option Phrase}
  {base ty : Ty}

/-! ### Function bodies -/

/-- A member initializer. -/
theorem memberInit (hq : L.Upholds q) (cls : Option ClassRef) : L.Idle (q.memberInit cls) := by
  intro p
  unfold Phrase.memberInit
  split
  · exact L.fault _
  · refine L.part fun id hid => ?_
    have harguments := ReadingLogic.checkArguments (L := L.toReadingLogic) (o := q.part? 1)
      fun r hr => (hq.part hr).obeys
    refine L.next (harguments p) fun arguments => ?_
    split
    · refine L.part fun member _ => ?_
      refine L.lift fun name => ?_
      refine L.next L.symbols fun table => ?_
      split
      · exact Idle.looks (.checkConstruction _ arguments id.position) p
      · exact L.report _ nofun
    · exact L.report _ nofun
    · exact L.fault _

/-- The member initializers of a constructor. -/
theorem ctorInit (hq : L.Upholds q) : L.Idle q.ctorInit := by
  have hlist : ∀ list : Phrase, L.Upholds list → L.Idle (do
      let cls := (← Check.symbols).currentClass?
      list.flatten.forM fun init => init.memberInit cls) := by
    intro list hupholds p
    refine L.next L.symbols fun table => ?_
    exact L.forM fun init hinit => memberInit (hupholds.flatten init hinit) _ p
  unfold Phrase.ctorInit
  split
  · exact fun p => L.part fun list hpart => hlist list (hq.part hpart) p
  · exact hlist q hq

/-- The statements of a function body. -/
theorem functionBlock (hq : L.Upholds q) : L.Idle q.functionBlock :=
  (StatementPairs.functionBlock (proceeds hq)).1

/-- Binding the parameters of a function. -/
theorem bindParameters {b : FunctionBody} {f : FunctionTy} (hf : b.ty.asFunction? = some f)
    (h : p → b.Binds L.guard L.names) :
    L.triple p (FunctionBody.bindParameters b.parameters f.params) fun _ => True := by
  refine L.forM ?_
  rintro ⟨param, ty⟩ hentry
  dsimp only
  split
  next name hname =>
    refine L.declare name.name name.position fun hp => ⟨?_, fun c hc => .inr ?_⟩
    · exact (h hp).types f hf ty (List.of_mem_zip hentry).2
    · exact (h hp).objects f hf _ hentry c name hc hname
  next => exact Idle.ret _ p

/-- The statements of a function body that is still to be checked keep to the logic if the
parameters do. -/
def Body (L : DeclaringLogic) (b : FunctionBody) : Prop :=
  ∀ (p : Prop) (f : FunctionTy), b.ty.asFunction? = some f → (p → b.Binds L.guard L.names) →
    L.triple p (b.checkStatements f) fun _ => True

/-- The statements of a function body whose parts uphold the logic. -/
theorem body_of_upholds {b : FunctionBody} (hinit : ∀ r, b.ctorInit = some r → L.Upholds r)
    (hbody : L.Upholds b.body) : L.Body b := by
  intro p f hf h
  have hrun : L.Idle b.run := by
    unfold FunctionBody.run
    cases hctor : b.ctorInit with
    | none => exact functionBlock hbody
    | some init => exact (ctorInit (hinit init hctor)).bind fun _ => functionBlock hbody
  rw [b.checkStatements_eq]
  exact L.next (bindParameters hf h) fun _ => L.inFunction _ (hrun p)

/-- The body of a function that has been declared. -/
theorem checkBody {b : FunctionBody} (hb : L.Body b) (h : p → b.Sound L.guard L.names) :
    L.triple p b.check fun _ => True := by
  cases hf : b.ty.asFunction? with
  | none =>
    unfold FunctionBody.check
    rw [hf]
    exact L.fault _
  | some f =>
    have hinner : L.triple p (Check.bracket .function (b.checkStatements f)) fun _ => True :=
      L.bracket (fun _ c hc => by cases hc) (hb p f hf fun hp => (h hp).toBinds)
    have hscope : L.triple p (b.scope f) fun _ => True := by
      unfold FunctionBody.scope
      cases hcls : b.cls with
      | none => exact L.next hinner fun r => Idle.ret _ p
      | some d =>
        have hopens : p → ∀ c, FrameKind.classBody d = .classBody c → L.guard.classes c := by
          rintro hp _ ⟨⟩
          exact (h hp).cls d hcls
        exact L.next (L.bracket hopens hinner) fun r => Idle.ret _ p
    rw [FunctionBody.check_eq hf]
    refine L.next hscope fun frame => ?_
    refine L.next (L.attachScope frame fun hp => (h hp).permitted f hf) fun _ => ?_
    exact L.log _

/-! ### Function definitions -/

/-- A definition with a plain name. -/
theorem defineLocal {name : DeclaredName} (hover : p → L.guard.types ty)
    (hfunction : ty.function?.isSome) :
    L.triple p (CWithClasses.defineLocal name ty) (Definition.Sound L.guard ty) := by
  unfold CWithClasses.defineLocal
  refine L.bind L.table fun table => ?_
  split
  next existing hexisting =>
    split
    next hsame =>
      rw [Bool.and_eq_true] at hsame
      exact L.ret _ fun hp => ⟨(hp.2.lookupLocal hexisting).types,
        Ty.sameParameters_of_sameSignature hsame.1, fun _ h => by cases h⟩
    next =>
      refine L.next (L.redeclared _ _) fun _ => L.ret _ fun hp => ?_
      exact ⟨hover hp.1, ty.sameParameters_refl, fun _ h => by cases h⟩
  next =>
    refine L.bind (declareFunction (fun hp => hover hp.1) hfunction) fun t => L.ret _ ?_
    rintro ⟨-, ht, rfl | hsame⟩
    · exact ⟨ht, Ty.sameParameters_refl _, fun _ h => by cases h⟩
    · exact ⟨ht, Ty.sameParameters_of_sameSignature hsame, fun _ h => by cases h⟩

/-- A definition with a qualified name. -/
theorem defineMember (cls : Token) (name : DeclaredName) (hover : p → L.guard.types ty) :
    L.triple p (CWithClasses.defineMember cls name ty) (Definition.Sound L.guard ty) := by
  -- Whatever the member is, the body is checked in the class that was found.
  have hclass : ∀ {q : Prop} {d : ClassRef} {member : Option Ty},
      (q → ∀ c m, some (d, member) = some (c, m) →
        L.guard.classes c ∧ ∀ ty, m = some ty → L.guard.types ty) →
      q → ∀ c, some d = some c → L.guard.classes c := by
    rintro q d member h hq _ ⟨⟩
    exact (h hq d member rfl).1
  unfold CWithClasses.defineMember
  refine L.bind (resolveQualified cls name) fun found => ?_
  split
  next d member =>
    split
    next =>
      refine L.next (L.report _ nofun) fun _ => L.ret _ fun hp => ?_
      exact ⟨hover hp.1, ty.sameParameters_refl, hclass And.right hp⟩
    next hsame =>
      rw [Bool.not_eq_true, Bool.not_eq_false'] at hsame
      refine L.next L.symbols fun table => ?_
      split
      · refine L.next (L.redeclared _ _) fun _ => L.ret _ fun hp => ?_
        exact ⟨hover hp.1, ty.sameParameters_refl, hclass And.right hp⟩
      · exact L.ret _ fun hp => ⟨(hp.2 d member rfl).2 member rfl,
          Ty.sameParameters_of_sameSignature hsame, hclass And.right hp⟩
  next =>
    exact L.ret _ fun hp => ⟨hover hp.1, ty.sameParameters_refl, hclass And.right hp⟩
  next => exact L.ret _ fun hp => ⟨hover hp.1, ty.sameParameters_refl, fun _ h => by cases h⟩

/-- The parts of a function definition. -/
theorem functionParts (c : Clause) : L.Idle c.functionParts := by
  intro p
  unfold Clause.functionParts
  split
  · exact L.part fun _ _ => L.part fun _ _ => Idle.ret _ p
  · exact L.part fun _ _ => L.part fun _ _ => L.part fun _ _ => Idle.ret _ p
  · exact L.fault _

/-- Declaring the function that a definition introduces. -/
theorem declareFunctionDef (hparts : c.Throughout (Phrase.Upholds L)) :
    L.triple p c.declareFunctionDef (FunctionBody.Sound L.guard L.names) := by
  unfold Clause.declareFunctionDef
  refine L.seq (Clause.functionParts_yields hparts) (functionParts c p) ?_
  rintro ⟨specifiers, declarator, init, body⟩ ⟨hspecifiers, hdeclarator, -, -⟩
  refine L.bind (checkSpecifiers fun r hr => (hspecifiers r hr).obeys) fun base => ?_
  refine L.bind (hdeclarator.self.declarator _ base And.right) fun declared => ?_
  split
  next name parameters f hname hparameters hf =>
    have hfunction : declared.ty.function?.isSome := by
      rw [hf]
      rfl
    -- The class of a parameter is found again in the declaration that counts.
    have hsound : ∀ d : Definition, declared.Sound L.guard L.names base →
        d.Sound L.guard declared.ty → FunctionBody.Sound L.guard L.names
          { name := name.qualified, ty := d.ty, parameters, cls := d.cls, ctorInit := init, body,
            attach := d.attach } := by
      rintro d hdeclared ⟨hty, hsame, hclass⟩
      obtain ⟨g, hg, htypes⟩ := hsame f hf
      rw [hdeclared.function parameters f hparameters hf] at htypes
      have hparams := hdeclared.parameters parameters hparameters
      have hnone : ∀ param ∈ parameters, param.ty.function? = none :=
        fun param hparam => (hparams param hparam).function
      have hunique : ∀ {g'}, d.ty.asFunction? = some g' → g' = g := fun hg' =>
        Option.some.inj (hg'.symm.trans (Ty.asFunction?_of_function? hg))
      refine ⟨⟨⟨g, hg, htypes⟩, hnone⟩, ⟨fun g' hg' => ?_,
        fun g' hg' entry hentry cls paramName hcls hparam => ?_⟩, fun g' hg' => ?_, hty, hclass⟩ <;>
        obtain rfl := hunique hg'
      · refine L.guard.parameters hty hg htypes fun u hu => ?_
        obtain ⟨param, hparam, rfl⟩ := List.mem_map.mp hu
        exact hnone param hparam
      · obtain ⟨hmem, e, he⟩ := exists_object_of_sameTypes htypes hentry hcls
        exact (hparams entry.1 hmem).object e paramName he hparam
      · exact L.guard.defines hty hg
    split
    next cls _ =>
      refine L.bind (defineMember cls name fun hp => hp.2.permitted) fun d => L.ret _ fun hp => ?_
      exact hsound d hp.1.2 hp.2
    next =>
      refine L.bind (defineLocal (fun hp => hp.2.permitted) hfunction) fun d => L.ret _ fun hp => ?_
      exact hsound d hp.1.2 hp.2
  next => exact L.fault _

/-- What a definition leaves to be checked. -/
theorem declareFunctionDef_yields (hparts : c.Throughout (Phrase.Upholds L)) :
    c.declareFunctionDef.Yields L.Body :=
  (Clause.declareFunctionDef_yields hparts).mono fun _ hb => body_of_upholds hb.ctorInit hb.body

/-- A function definition whose parts uphold the logic. -/
theorem functionDefinition (hparts : c.Throughout (Phrase.Upholds L)) :
    L.Idle c.functionDefinition :=
  fun _ => L.seq (declareFunctionDef_yields hparts) (declareFunctionDef hparts) fun _ hb =>
    checkBody hb And.right

/-! ### Classes -/

/-- Making a class and binding its name. -/
theorem declareClass (name : String) (position : Position) :
    L.triple p (Check.declareClass name position) fun c => c.name = name ∧ L.guard.classes c := by
  unfold Check.declareClass
  refine L.bind (L.newClass name) fun c => ?_
  refine L.next (L.declare name position fun hp => Ty.permitted_object hp.2.1 hp.2.2) fun _ => ?_
  exact L.ret _ And.right

/-- A class that is named with its key. -/
theorem elaborate (name : Token) :
    L.triple p (CWithClasses.elaborate name) L.guard.types := by
  unfold CWithClasses.elaborate
  refine L.bind L.symbols fun table => ?_
  split
  next ty hfound =>
    obtain ⟨c, rfl⟩ := SymbolTable.lookupTypeName_object hfound
    exact L.ret _ fun hp => L.guard.object (hp.2.names _ c hfound)
  next =>
    refine L.bind (declareClass name.text name.position) fun c => ?_
    exact L.next (L.log _) fun _ => L.ret _ fun hp => L.guard.object hp.2.2
  next e _ hfound =>
    refine L.post (reject _ (SymbolTable.failure_of_lookupTypeName hfound).2) ?_
    rintro _ - rfl
    exact L.guard.unknown

/-- The class that a class head opens may be opened, and has the name of the head unless an object
may have it. -/
theorem openNamed (name : Token) :
    L.triple p (CWithClasses.openClass name) fun c =>
      (c.name = name.text ∨ L.names name.text) ∧ L.guard.classes c := by
  unfold CWithClasses.openClass
  refine L.bind L.table fun table => ?_
  split
  · exact L.post (declareClass name.text name.position) fun _ _ h => ⟨.inl h.1, h.2⟩
  next existing hexisting =>
    split
    next c hc =>
      refine L.ret _ fun hp => ?_
      obtain ⟨hclass, -⟩ := Option.filter_eq_some_iff.mp hc
      have hobject : existing = .object c := by
        unfold Ty.objectClass? at hclass
        split at hclass
        · cases hclass
          rfl
        · cases hclass
      have hpermitted := hp.2.lookupLocal hexisting
      exact ⟨hpermitted.object c hobject, L.guard.opens hpermitted.types (by rw [hobject]; rfl)⟩
    next =>
      refine L.next (L.redeclared _ _) fun _ => ?_
      exact L.post (L.newClass name.text) fun _ _ h => ⟨.inl h.1, h.2⟩

/-- The class that a class head opens has the name of the head, unless an object may have it. -/
theorem openClass (name : Token) :
    L.triple p (CWithClasses.openClass name) fun c => c.name = name.text ∨ L.names name.text :=
  L.post (openNamed name) fun _ _ h => h.1

/-- The class of a class head. -/
theorem classHead : L.triple p q.classHead L.guard.classes := by
  unfold Phrase.classHead
  split
  · refine L.part fun r _ => ?_
    exact L.lift fun name => L.post (openNamed name) fun _ _ h => h.2
  · exact L.post (L.newClass _) fun _ _ h => h.2
  · exact L.fault _

/-- A bit field. -/
theorem bitField (hq : L.Upholds q) (hnames : ∀ d, q.part? 0 = some d → d.Names L.names base)
    (hbase : p → L.guard.types base) : L.triple p (q.bitField base) fun _ => True := by
  unfold Phrase.bitField
  refine L.part fun width hwidth => ?_
  refine L.next ((hq.part hwidth).self.expression p) fun ty => ?_
  refine L.next (Idle.looks (.checkIntegral base q.position) p) fun _ => ?_
  refine L.next (Idle.looks (.checkIntegral ty width.position) p) fun _ => ?_
  cases hname : q.part? 0 with
  | none => exact Idle.ret _ p
  | some d => exact declareItem (hq.part hname) (hnames d hname) Phrase.throughout_none hbase

/-- One member of a member declaration. -/
theorem memberDeclarator (hq : L.Upholds q) (hnames : ∀ d ∈ q.itemDeclarators, d.Names L.names base)
    (hbase : p → L.guard.types base) : L.triple p (q.memberDeclarator base) fun _ => True := by
  have hinner : q.itemDeclarators = q :: (q.part? 0).toList →
      ∀ d, q.part? 0 = some d → d.Names L.names base :=
    fun hitem d hd => hnames d (by simp [hitem, hd])
  unfold Phrase.memberDeclarator
  split
  next hrule =>
    refine L.part fun d hd => ?_
    replace hd : q.part? 0 = some d := hd
    exact declareItem (hq.part hd) (hinner (by simp [Phrase.itemDeclarators, hrule]) d hd)
      Phrase.throughout_none hbase
  next hrule =>
    refine L.part fun d hd => ?_
    refine L.part fun init hinit => ?_
    replace hd : q.part? 0 = some d := hd
    exact declareItem (hq.part hd) (hinner (by simp [Phrase.itemDeclarators, hrule]) d hd)
      (hq.part hinit).of_some hbase
  next hrule => exact bitField hq (hinner (by simp [Phrase.itemDeclarators, hrule])) hbase
  next => exact declareItem hq (hnames q q.mem_itemDeclarators) Phrase.throughout_none hbase

/-- The step leaves function bodies to be checked that keep to the logic. -/
structure Leaves (L : DeclaringLogic) (x : Check (List FunctionBody)) : Prop where
  sound : ∀ p, L.triple p x fun bodies => ∀ b ∈ bodies, b.Sound L.guard L.names
  bodies : x.Yields fun bodies => ∀ b ∈ bodies, L.Body b

/-- A step that leaves nothing to be checked. -/
theorem Leaves.nothing {x : Check Unit} (hx : L.Idle x) : L.Leaves (do x; return []) where
  sound p := L.next (hx p) fun _ => L.ret _ fun _ _ hb => by cases hb
  bodies := Yields.next fun _ => .ret fun _ hb => by cases hb

/-- Taking a part, and going on with it. -/
theorem Leaves.part {i : Nat} {f : Phrase → Check (List FunctionBody)}
    (hf : ∀ r, c.part? i = some r → L.Leaves (f r)) : L.Leaves (c.part i >>= f) where
  sound p := L.part fun r hr => (hf r hr).sound p
  bodies := (Yields.part c i).bind fun r hr => (hf r hr).bodies

/-- A fault leaves nothing. -/
theorem Leaves.fault (e : Fault) : L.Leaves (throw e) where
  sound _ := L.fault e
  bodies := .fault e

/-- A member declaration. -/
theorem memberDeclaration (hq : L.Upholds q) : L.Leaves q.memberDeclaration := by
  have hfunction : L.Leaves (do return [← q.clause.declareFunctionDef]) := by
    constructor
    · intro p
      refine L.bind (declareFunctionDef hq.clause) fun b => L.ret _ fun hp b' hb' => ?_
      exact List.mem_singleton.mp hb' ▸ hp.2
    · refine (declareFunctionDef_yields hq.clause).bind fun b hb => .ret fun b' hb' => ?_
      exact List.mem_singleton.mp hb' ▸ hb
  unfold Phrase.memberDeclaration
  split
  next => exact hfunction
  next => exact hfunction
  next hrule =>
    refine ⟨fun p => ?_, Yields.next fun _ => Yields.next fun _ => .ret fun _ hb => by cases hb⟩
    refine L.seq (hq.self.names.items (.inr hrule))
      (checkSpecifiers fun r hr => (hq.part hr).obeys) ?_
    refine fun base hitems => ?_
    refine L.next (P := fun _ => True) ?_ fun _ => L.ret _ fun _ _ hb => by cases hb
    refine L.forM fun item hitem => ?_
    exact memberDeclarator (Phrase.throughout_flatten? (fun r hr => hq.part hr) item hitem)
      (hitems item hitem) And.right
  next hrule =>
    exact .nothing (simpleDeclaration hq.clause (hq.self.names.items (.inl hrule)))
  next => exact .fault _

/-- An access specifier. -/
theorem accessSpecifier (q : Phrase) (key : Token) :
    L.Leaves (do
      match key.kind.access? with
      | some access => do
          modifySymbols (·.setAccess access)
          return []
      | none => q.unexpected "access specifier") := by
  cases key.kind.access? with
  | some access => exact .nothing fun _ => L.setAccess access
  | none => exact .fault _

/-- A link of a member specification. -/
theorem memberLink (hq : L.Upholds q) : L.Leaves q.memberLink := by
  unfold Phrase.memberLink
  split
  · exact .part fun d hd => memberDeclaration (hq.part hd)
  · refine .part fun _ _ => ⟨fun p => ?_, Yields.next fun key => (accessSpecifier q key).bodies⟩
    exact L.lift fun key => (accessSpecifier q key).sound p
  · exact memberDeclaration hq

/-- A member specification. -/
theorem members (ho : ∀ r, o = some r → L.Upholds r) : L.Leaves (Phrase.members o) := by
  cases o with
  | none => exact .nothing (.ret ())
  | some r =>
    have hlinks : ∀ link ∈ r.memberLinks, L.Leaves link.memberLink :=
      fun link hlink => memberLink ((ho r rfl).memberLinks link hlink)
    constructor
    · intro p
      refine L.bind (L.mapM fun link hlink => (hlinks link hlink).sound p) fun results => ?_
      refine L.ret _ fun hp b hb => ?_
      obtain ⟨bodies, hbodies, hb⟩ := List.mem_flatten.mp hb
      exact hp.2 bodies hbodies b hb
    · have hyields := StepRules.yields.mapM (p := True) fun link hlink _ =>
        (hlinks link hlink).bodies
      refine (hyields trivial).bind fun results hresults => .ret fun b hb => ?_
      obtain ⟨bodies, hbodies, hb⟩ := List.mem_flatten.mp hb
      exact hresults bodies hbodies b hb

/-- A class specification whose parts uphold the logic. -/
theorem classSpec (hparts : c.Throughout (Phrase.Upholds L)) :
    L.triple p c.classSpec L.guard.types := by
  unfold Clause.classSpec
  refine L.part fun head hhead => ?_
  refine L.part fun keyword _ => ?_
  refine L.lift fun key => ?_
  split
  · exact L.fault _
  · refine L.bind classHead fun cls => ?_
    -- From the opening of the scope to its end, the class body is a bracket.
    have hbody : L.triple (p ∧ L.guard.classes cls) (do
        modifySymbols (·.setAccess key.kind.defaultAccess)
        let bodies ← Phrase.members (c.part? 1)
        modifySymbols (·.markComplete cls)
        bodies.forM FunctionBody.check) fun _ => True := by
      have hmembers := members (hparts 1)
      refine L.next (L.setAccess _) fun _ => ?_
      refine L.seq hmembers.bodies (hmembers.sound _) fun bodies hbodies => ?_
      refine L.next (L.markComplete cls) fun _ => ?_
      exact L.forM fun b hb => checkBody (hbodies b hb) fun hp => hp.2 b hb
    have hrest : L.triple (p ∧ L.guard.classes cls) (do
        let body := (← Check.symbols).classBody cls
        Check.log (.definedClass (.object cls) body.publicMembers.length
          body.privateMembers.length)
        return Ty.object cls) L.guard.types := by
      refine L.next L.symbols fun table => ?_
      exact L.next (L.log _) fun _ => L.ret _ fun hp => L.guard.object hp.2
    have hopens : p ∧ L.guard.classes cls →
        ∀ c, FrameKind.classBody cls = .classBody c → L.guard.classes c := by
      rintro hp _ ⟨⟩
      exact hp.2
    have hclass : L.triple (p ∧ L.guard.classes cls) (do
        let r ← Check.bracket (.classBody cls) (do
          modifySymbols (·.setAccess key.kind.defaultAccess)
          let bodies ← Phrase.members (c.part? 1)
          modifySymbols (·.markComplete cls)
          bodies.forM FunctionBody.check)
        Check.discard r.2
        let body := (← Check.symbols).classBody cls
        Check.log (.definedClass (.object cls) body.publicMembers.length
          body.privateMembers.length)
        return Ty.object cls) L.guard.types := by
      refine L.next (L.bracket hopens hbody) fun r => ?_
      exact L.next (L.discard r.2) fun _ => hrest
    simp only [Check.bracket, bind_assoc, pure_bind] at hclass
    simp only [Check.dropScope, bind_assoc]
    exact hclass

end DeclaringLogic

/-! ### Trees -/

variable {L : DeclaringLogic} {n : Node}

/-- A tree upholds the logic, and so does all that it is made of, if its objects have given
names. -/
theorem Node.upholds_throughout
    (hnames : ∀ m ∈ n.subtrees, m.phrase.NamesObjects L.names) :
    n.phrase.Throughout (Phrase.Upholds L) := by
  refine throughout_phrase fun m hm hparts => ?_
  exact upholds hparts (hnames m hm) (fun _ _ => DeclaringLogic.classSpec hparts)
    (fun _ _ name => DeclaringLogic.elaborate name) fun _ =>
      DeclaringLogic.functionDefinition hparts

/-- A tree keeps to the logic if its objects have given names. -/
theorem Node.check_upholds
    (hnames : ∀ m ∈ n.subtrees, m.phrase.NamesObjects L.names) : L.Idle n.check := by
  have hupholds := upholds_throughout hnames
  have hvoid : ∀ x : Check Unit, L.Idle x → L.Idle (do x; return Ty.void) :=
    fun x hx => hx.bind fun _ => .ret _
  unfold check
  split
  next =>
    cases hchild : n.child? 0 with
    | none => exact .ret _
    | some m => exact hvoid _ (hupholds.child hchild).self.declaration
  next => exact hvoid _ hupholds.self.declaration
  next => exact hvoid _ hupholds.self.declaration
  next => exact hvoid _ hupholds.self.statement
  next =>
    split
    · exact .of fun _ => DeclaringLogic.classSpec hupholds.clause
    · exact hupholds.self.expression
  next => exact hupholds.self.expression

end CWithClasses
