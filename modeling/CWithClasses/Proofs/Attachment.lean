import CWithClasses.Proofs.Grounding.Rooting
import CWithClasses.Proofs.Prototypes
import CWithClasses.Proofs.Retention.Step

/-!
# The scope of a function body

A definition gives the function of its name a scope as its body, which binds the parameters. Their
names come from the declarator of the definition, but their types from the first declaration of the
function. The two rows fit together, since a definition with another signature is not attached.

Nothing else gives the function a body before its own scope is ready, unless a class has the
function as a member. A definition that is refused leaves the name as it was, with or without a
body. A member is defined outside of its class in the same way, except that it is not bound there.
-/

namespace CWithClasses

open Check
open Node (word tree)

/-! ### Parameters are bound -/

/-- Whether a parameter has the name. -/
def Parameter.isNamed (name : String) (param : Parameter) : Bool :=
  param.name.any (·.name == name)

/-- The scope of a function, in which the first parameter of each name is bound to the type that
stands in its place. -/
structure Frame.HoldsParameters (params : List Parameter) (types : List Ty)
    (frame : Frame) : Prop where
  kind : frame.kind = .function
  bound : ∀ name i, params.findIdx? (·.isNamed name) = some i →
    ∃ ty, types[i]? = some ty ∧ frame.bindings.lookup name = some ty

section Binding

variable {f other : String} {bound : Option Ty} {ty : Ty} {position : Position} {s s' : Checker}

/-- What another name is declared as does not matter. -/
theorem Checker.Has.declare_other (hs : s.Has f bound) (hne : f ≠ other)
    (h : Check.declare other position ty s = .ok () s') : s'.Has f bound := by
  have hkeeps := (Check.Keeps.declare other position ty).of_ok h
  refine ⟨hkeeps.limit.trans hs.limit, hkeeps.cls?.trans hs.cls?, ?_⟩
  rcases Check.declare_ok h with ⟨t, hinsert, rfl⟩ | hsame
  · rcases SymbolTable.insert_cases hinsert with ⟨c, b, hcls, -⟩ | ⟨-, -, rfl⟩
    · cases hs.cls?.symm.trans hcls
    · rw [List.lookup_cons, beq_false_of_ne hne]
      exact hs.lookup
  · rw [hsame]
    exact hs.lookup

namespace FunctionBody

variable {param : Parameter} {params : List Parameter} {types : List Ty}

/-- The first parameter is bound if it has a name, and the others after it. -/
theorem exists_of_bindParameters_cons
    (h : bindParameters (param :: params) (ty :: types) s = .ok () s') :
    ∃ s₁, bindParameters params types s₁ = .ok () s' ∧
      (param.name = none ∧ s₁ = s ∨
        ∃ name, param.name = some name ∧ declare name.name name.position ty s = .ok () s₁) := by
  obtain ⟨_, s₁, hfirst, hrest⟩ := exists_of_bind h
  refine ⟨s₁, hrest, ?_⟩
  dsimp only at hfirst
  cases hname : param.name with
  | none =>
    rw [hname] at hfirst
    cases hfirst
    exact .inl ⟨rfl, rfl⟩
  | some name =>
    rw [hname] at hfirst
    exact .inr ⟨name, rfl, hfirst⟩

/-- The first parameter of a name is bound to the type in its place. -/
theorem has_bindParameters {i : Nat} (hs : s.Has f none)
    (h : bindParameters params types s = .ok () s')
    (hi : params.findIdx? (·.isNamed f) = some i) (hty : types[i]? = some ty) :
    s'.Has f (some ty) := by
  induction params generalizing types s i with
  | nil => cases hi
  | cons param params ih =>
    cases types with
    | nil => cases hty
    | cons first types =>
      obtain ⟨s₁, hrest, hfirst⟩ := exists_of_bindParameters_cons h
      rw [List.findIdx?_cons] at hi
      split at hi
      next hnamed =>
        -- The parameters behind this one cannot bind the name again.
        cases hi
        cases hty
        obtain ⟨name, hname, hdeclare⟩ := hfirst.resolve_left fun hnone => by
          simp [Parameter.isNamed, hnone.1] at hnamed
        obtain rfl : name.name = f := by simpa [Parameter.isNamed, hname] using hnamed
        obtain ⟨s₂, hbound, hintroduces⟩ : ∃ s₂, declare name.name name.position ty s = .ok () s₂ ∧
            s.Introduces name.name ty s₂ := declare_vacant hs
        cases hdeclare.symm.trans hbound
        exact ((bindingsLogic.bindParameters params types).of_ok hrest).has hintroduces.has
      next hother =>
        obtain ⟨j, hj, rfl⟩ := Option.map_eq_some_iff.mp hi
        refine ih ?_ hrest hj hty
        rcases hfirst with ⟨-, rfl⟩ | ⟨name, hname, hdeclare⟩
        · exact hs
        · refine hs.declare_other (fun hsame => hother ?_) hdeclare
          simp [Parameter.isNamed, hname, hsame]

/-- The scope of a function body holds its parameters. -/
theorem scope_holdsParameters {b : FunctionBody} {g : FunctionTy} {scope : Option Frame}
    (h : b.scope g s = .ok scope s') (hcls : b.cls = none) (hlimit : s.limit = none)
    (hsound : bindingsLogic.toStepLogic.Body b) (hlength : b.parameters.length = g.params.length) :
    ∃ frame, scope = some frame ∧ frame.HoldsParameters b.parameters g.params := by
  have hrun : (inFunction g.result b.run).Keeps := bindingsLogic.inFunction g.result
    (bindingsLogic.run (fun init hinit => hsound.ctorInit init hinit True) (hsound.block True))
  have hstatements : (b.checkStatements g).Keeps := by
    rw [b.checkStatements_eq]
    exact (bindingsLogic.bindParameters _ _).bind fun _ => hrun
  unfold FunctionBody.scope at h
  rw [hcls] at h
  obtain ⟨r, s₁, hbracket, hret⟩ := exists_of_bind h
  cases hret
  obtain ⟨a, inside, hinside, hframe, -⟩ := hstatements.inside_bracket hbracket
  refine ⟨inside.symbols.current, hframe, (hstatements.of_ok hinside).kind, fun name i hi => ?_⟩
  have hlt : i < g.params.length := hlength ▸ (List.findIdx?_eq_some_iff_getElem.mp hi).1
  refine ⟨g.params[i], List.getElem?_eq_getElem hlt, ?_⟩
  rw [b.checkStatements_eq] at hinside
  obtain ⟨_, s₂, hparameters, hrest⟩ := exists_of_bind hinside
  have hnew : (s.opened .function).Has name none := ⟨hlimit, rfl, rfl⟩
  have hbound := has_bindParameters hnew hparameters hi (List.getElem?_eq_getElem hlt)
  exact ((hrun.of_ok hrest).has hbound).lookup

end FunctionBody

end Binding

/-! ### Functions that are no members -/

/-- A function that is a member of a class has the number. -/
def SymbolTable.HasMethod (t : SymbolTable) (i : Nat) : Prop :=
  ∃ c name access ty g, t.member? c name = some (access, ty) ∧ ty.function? = some g ∧ g.id = i

/-- The functions that are members of classes have been made, and so has the one that the name is
bound to, if it is bound to any. This one is no member. -/
structure SymbolTable.Separates (f : String) (t : SymbolTable) : Prop where
  made : ∀ i, t.HasMethod i → i < t.bodies.size
  bound : ∀ ty g, t.lookupLocal? f = some ty → ty.asFunction? = some g →
    g.id < t.bodies.size ∧ ¬ t.HasMethod g.id

namespace SymbolTable.Separates

variable {f : String} {ty : Ty} {s : Checker}

/-- Functions that are yet to be made are no members. -/
theorem vacant (h : s.symbols.Separates f) (hs : s.Has f none) :
    s.Vacant f s.symbols.bodies.size where
  toHas := hs
  size := Nat.le_refl _
  spares := {
    bodies i hi := by
      rw [Array.getElem?_eq_none (Nat.le_of_not_lt hi)]
      rfl
    members c name access ty hmember g hg :=
      h.made g.id ⟨c, name, access, ty, g, hmember, hg, rfl⟩ }

/-- The function of the name is no member. -/
theorem owns (h : s.symbols.Separates f) (hs : s.Has f (some ty)) : s.Owns f ty where
  toHas := hs
  pending g hg hdefined := by
    obtain ⟨hsize, hmethod⟩ := h.bound ty g hs.lookupLocal? hg
    unfold isDefined at hdefined
    rw [hg, Option.isSome_eq_false_iff, Option.isNone_iff_eq_none] at hdefined
    refine ⟨⟨fun i hi => ?_, fun c name access ty hmember g' hg' hid => ?_⟩, hsize⟩
    · rw [not_not.mp hi]
      exact hdefined
    · exact hmethod ⟨c, name, access, ty, g', hmember, hg', hid⟩

end SymbolTable.Separates

namespace SymbolTable

variable {t : SymbolTable} {i : Nat}

/-- The numbers of the functions that are members of classes. -/
def methods (t : SymbolTable) : List Nat :=
  t.classes.toList.flatMap fun b =>
    (b.publicMembers ++ b.privateMembers).filterMap fun entry => entry.2.function?.map (·.id)

/-- A function that is a member of a class is found among the members. -/
theorem HasMethod.mem_methods (h : t.HasMethod i) : i ∈ t.methods := by
  obtain ⟨c, name, access, ty, g, hmember, hg, rfl⟩ := h
  obtain ⟨b, hb, hm⟩ := exists_of_member? hmember
  refine List.mem_flatMap.mpr ⟨b, Array.mem_toList_iff.mpr (Array.mem_of_getElem? hb), ?_⟩
  refine List.mem_filterMap.mpr ⟨(name, ty), ?_, by simp [hg]⟩
  have hentry := Bindings.mem_of_lookup (ClassBody.lookup_table hm)
  cases access
  · exact List.mem_append_left _ hentry
  · exact List.mem_append_right _ hentry

end SymbolTable

/-- Wherever a check may stand, it only has to be found out whether the function that the name is
bound to is a member of a class. There is nothing to find out if the name is not bound. -/
theorem Checker.Reached.separates {config : Config} {D : String → Prop} {f : String} {s : Checker}
    (h : s.Reached config D) (hcls : s.symbols.current.cls? = none)
    (hbound : ∀ ty g, s.symbols.lookupLocal? f = some ty → ty.asFunction? = some g →
      g.id ∉ s.symbols.methods) : s.symbols.Separates f := by
  have habides := h.abides (F := (· < s.symbols.bodies.size)) fun _ => id
  refine ⟨?_, fun ty g hty hg => ⟨?_, fun hmethod => hbound ty g hty hg hmethod.mem_methods⟩⟩
  · rintro i ⟨c, name, access, ty, g, hmember, hg, rfl⟩
    exact ((habides.members c name access ty hmember).types.function? hg).1
  · rw [SymbolTable.lookupLocal?_eq hcls] at hty
    have hover := (habides.upheld.bindings f ty hty).types
    have hwithin : ty.Within (Sum.elim (· < s.symbols.bodies.size) fun _ => True) := by
      rintro (i | i) hi
      · exact hover i hi
      · trivial
    exact (hwithin.asFunction? hg).1

/-! ### A definition is checked -/

/-- Rows of types are the same if they have the same types in the same places. -/
theorem sameTypes_iff_forall₂ {as bs : List Ty} :
    sameTypes as bs = true ↔ List.Forall₂ (fun a b => sameType a b = true) as bs := by
  induction as generalizing bs with
  | nil => cases bs <;> simp [sameTypes]
  | cons a as ih => cases bs <;> simp [sameTypes, ih]

/-- No redeclaration is reported while something is only read. -/
theorem Checker.Reads.not_redeclared {f : String} {s s₀ s₁ : Checker} (h : s.Reads s₀)
    (hsame : s₁.diagnostics = s₀.diagnostics) : ¬ s₁.Redeclared s.diagnostics f := by
  rintro ⟨after, hafter, d, hd, hproblem⟩
  obtain ⟨new, hnew, hother⟩ := h.reports
  obtain rfl := List.append_cancel_left (hafter.symm.trans (hsame.trans hnew))
  refine hother d hd ?_
  rw [hproblem]
  rfl

section Checking

variable {n : Node} {f : String} {g : FunctionTy} {b : FunctionBody} {s s₁ s' : Checker}

/-- The function has the parameters that the declarator names, in the same places. -/
theorem FunctionBody.Agrees.forall₂ (h : b.Agrees) (hg : b.ty.function? = some g) :
    List.Forall₂ (fun ty param => sameType ty param.ty = true) g.params b.parameters := by
  obtain ⟨g', hg', hsame⟩ := h.function
  cases hg.symm.trans hg'
  exact List.forall₂_map_right_iff.mp (sameTypes_iff_forall₂.mp hsame)

/-- A definition is to become the body of the function that its name is bound to, which has none
yet, or it is reported, and the name means what it meant before. -/
theorem Checker.owns_of_declareFunctionDef (hlimit : s.limit = none)
    (hcls : s.symbols.current.cls? = none) (hs : s.symbols.Separates f)
    (hname : n.definedName? = some f) (hplain : n.isPlainDefinition = true)
    (hb : n.clause.declareFunctionDef s = .ok b s₁) :
    b.cls = none ∧
      (¬ s₁.Redeclared s.diagnostics f ∧ b.attach = true ∧ s₁.Owns f b.ty ∧
          s₁.symbols.isDefined b.ty = false ∨
        s₁.Redeclared s.diagnostics f ∧ b.attach = false ∧
          ∃ ty, s.symbols.lookupLocal? f = some ty ∧
          s₁.Owns f ty ∧ s₁.symbols.isDefined ty = s.symbols.isDefined ty) := by
  obtain ⟨declared, s₀, position, definition, hread, hdefine, hfunction, hty, hbcls, hattach, -⟩ :=
    Clause.exists_of_definedName hb hname
  -- The functions that the declarator makes are new.
  let made : Nat → Prop := fun i => s.symbols.bodies.size ≤ i ∧ i < s₀.symbols.bodies.size
  have hperuses := Node.peruses_definition (F := made) (p := True) hplain
  have hreads := hperuses.reads s declared s₀ hread
  cases hbound : s.symbols.lookupLocal? f with
  | none =>
    have hvacant := hs.vacant ⟨hlimit, hcls, (SymbolTable.lookupLocal?_eq hcls f).symm.trans hbound⟩
    have hvacant₀ := hreads.vacant hvacant
    obtain ⟨rfl, hintroduces⟩ := defineLocal_vacant hvacant₀.toHas hdefine
    obtain ⟨g, hg⟩ := Option.isSome_iff_exists.mp hfunction
    have hover := hperuses.result trivial s declared s₀ hread fun i hi hlt => ⟨hi, hlt⟩
    have hstands := hvacant₀.stands hintroduces hg hover
    refine ⟨hbcls, .inl ⟨hreads.not_redeclared hintroduces.diagnostics, hattach, ?_, ?_⟩⟩
    · rw [hty]
      exact hstands.toOwns
    · rw [hty]
      exact hstands.isDefined
  | some ty =>
    have howns := hs.owns ⟨hlimit, hcls, (SymbolTable.lookupLocal?_eq hcls f).symm.trans hbound⟩
    have howns₀ := howns.reads hreads
    have hcases := defineLocal_bound howns₀.toHas hdefine
    split at hcases
    next hfirst =>
      obtain ⟨rfl, rfl⟩ := hcases
      rw [Bool.and_eq_true, Bool.not_eq_true'] at hfirst
      refine ⟨hbcls, .inl ⟨hreads.not_redeclared rfl, hattach, ?_, ?_⟩⟩
      · rw [hty]
        exact howns₀
      · rw [hty]
        exact hfirst.2
    next =>
      obtain ⟨rfl, rfl⟩ := hcases
      obtain ⟨new, hnew, -⟩ := hreads.reports
      have hredeclared := redeclared_reported (f := f) howns₀.limit ⟨new, hnew.symm⟩ position
      refine ⟨hbcls, .inr ⟨hredeclared, hattach, ty, rfl, howns₀.reported _, ?_⟩⟩
      rw [s₀.symbols_reported]
      exact hreads.isDefined ty

/-- While the scope of the definition is checked, nothing else gives the function a body. So the
scope is never refused. -/
theorem Checker.Owns.define?_scope (hs : s₁.Owns f b.ty) (hfree : s₁.symbols.isDefined b.ty = false)
    (hb : n.clause.declareFunctionDef s = .ok b s₁) (hg : b.ty.function? = some g)
    (hcls : b.cls = none) {scope : Option Frame} {s₂ : Checker}
    (hscope : b.scope g s₁ = .ok scope s₂) :
    s₂.symbols.body? g = none ∧ ∀ frame, (s₂.symbols.define? g frame).isSome := by
  have hf := Ty.asFunction?_of_function? hg
  obtain ⟨hspares, hsize⟩ := hs.pending g hf hfree
  obtain ⟨hclosed, -⟩ := FunctionBody.spares_scope hscope hf hspares hsize
    (Clause.guarded_body hb _) (n.yields_agrees s b s₁ hb) hcls
  have hnone : s₂.symbols.body? g = none := hclosed.bodies g.id fun h => h rfl
  refine ⟨hnone, fun frame => ?_⟩
  by_contra hrefused
  rw [Option.not_isSome_iff_eq_none] at hrefused
  have hsome := SymbolTable.isSome_of_define? hrefused
  rw [hnone] at hsome
  cases hsome

/-- The function of the name gets the scope of the definition as its body. -/
theorem Checker.Owns.body?_check (hs : s₁.Owns f b.ty) (hfree : s₁.symbols.isDefined b.ty = false)
    (hb : n.clause.declareFunctionDef s = .ok b s₁) (h : b.check s₁ = .ok () s')
    (hg : b.ty.function? = some g) (hcls : b.cls = none) (hattach : b.attach = true) :
    ∃ frame, s'.symbols.body? g = some frame ∧ frame.HoldsParameters b.parameters g.params := by
  obtain ⟨hsound, -⟩ := Clause.keeps_body hb h
  have hagrees := n.yields_agrees s b s₁ hb
  rw [FunctionBody.check_eq (Ty.asFunction?_of_function? hg)] at h
  obtain ⟨scope, s₂, hscope, hrest⟩ := exists_of_bind h
  obtain ⟨_, s₃, hattached, hlog⟩ := exists_of_bind hrest
  obtain ⟨frame, rfl, hholds⟩ := FunctionBody.scope_holdsParameters hscope hcls hs.limit hsound
    (hagrees.forall₂ hg).length_eq.symm
  have hbody := FunctionBody.body?_attachScope hattached hattach
  rw [(hs.define?_scope hfree hb hg hcls hscope).1] at hbody
  cases hlog
  exact ⟨frame, hbody, hholds⟩

/-- Unless the name has been redeclared, the scope of a definition is never refused. -/
theorem Node.define?_of_not_redeclared (hlimit : s.limit = none)
    (hcls : s.symbols.current.cls? = none) (hs : s.symbols.Separates f)
    (hname : n.definedName? = some f) (hplain : n.isPlainDefinition = true)
    (hb : n.clause.declareFunctionDef s = .ok b s₁) (hnew : ¬ s₁.Redeclared s.diagnostics f)
    (hg : b.ty.function? = some g) {scope : Option Frame} {s₂ : Checker}
    (hscope : b.scope g s₁ = .ok scope s₂) (frame : Frame) :
    (s₂.symbols.define? g frame).isSome := by
  obtain ⟨hbcls, ⟨-, -, howns, hfree⟩ | ⟨hredeclared, -⟩⟩ :=
    Checker.owns_of_declareFunctionDef hlimit hcls hs hname hplain hb
  · exact (howns.define?_scope hfree hb hg hbcls hscope).2 frame
  · exact absurd hredeclared hnew

end Checking

/-! ### Members that are defined outside of their class -/

section Members

variable {cls : Token} {name : DeclaredName} {c : ClassRef} {access : Access} {m ty : Ty}
  {b : FunctionBody} {s s₀ s' : Checker}

/-- A definition with the qualified name and the signature of a member is reported if the member has
a body. -/
theorem defineMember_eq (hclass : s.symbols.lookupTypeName cls.text = .ok (.object c))
    (hmember : s.symbols.member? c name.name = some (access, m))
    (hsame : sameSignature m ty = true) :
    defineMember cls name ty s = if s.symbols.isDefined m then redefine name ty (some c) s
      else .ok { ty := m, cls := some c, attach := true } s := by
  have hresolve : resolveQualified cls name s = .ok (some (c, some m)) s := by
    have hname : resolveTypeName cls s = .ok (.object c) s := by
      unfold resolveTypeName
      rw [bind_symbols, hclass]
      rfl
    unfold resolveQualified
    rw [bind_ok hname]
    dsimp only [Ty.asClass?]
    rw [bind_symbols, hmember]
    rfl
  unfold defineMember
  rw [bind_ok hresolve]
  dsimp only
  rw [hsame]
  change (symbols >>= _) s = _
  rw [bind_symbols]
  split <;> rfl

/-- A member that a body is attached to has one afterwards, whether it is this one or not. -/
theorem FunctionBody.isDefined_check {member : String} (hs : s.Settled)
    (hmember : s.symbols.member? c member = some (access, b.ty))
    (hsound : (retentionLogic hs False).Body b) (hattach : b.attach = true)
    (h : b.check s = .ok () s') : s'.symbols.isDefined b.ty = true := by
  obtain ⟨f, hf⟩ := StepLogic.exists_asFunction hsound.function
  have hmentioned : s.allMentions.Has (.inl f.id) :=
    SymbolTable.Mentioned.allMentions (SymbolTable.mentioned_of_member? hmember
      (Ty.Within.asFunction? (fun _ hx => hx) hf).1)
  have hrun : Check.Retentive s False b.run :=
    .run (fun init hinit => hsound.ctorInit init hinit True) (hsound.block True)
  rw [FunctionBody.check_eq hf] at h
  obtain ⟨_, s₁, hscope, hrest⟩ := exists_of_bind h
  obtain ⟨_, s₂, hattached, hlog⟩ := exists_of_bind hrest
  obtain ⟨hretains, frame, rfl, hlate⟩ :=
    Check.Retentive.scope hrun f [] [] s _ s₁ (.refl s) hscope
  have hkept : (s₁.discard frame).symbols.isDefined b.ty = s₁.symbols.isDefined b.ty := by
    unfold SymbolTable.isDefined SymbolTable.body?
    rw [hf]
    dsimp only
    rw [hretains.bodies_discard hs hlate hmentioned]
  have hdefined :=
    FunctionBody.isDefined_attachScope hattached hattach hf fun hsome => hkept.trans hsome
  cases hlog
  exact hdefined

/-- A function is defined that has the qualified name of a member, and its signature. The member has
a body afterwards. If it had one before, the definition is not attached but a redeclaration is
reported, and otherwise nothing is reported of the name. As members and bodies stay, every
definition but the first one is reported. -/
theorem Node.checkFunctionDefinition_member {n : Node} {declared : Declared}
    (hread : n.clause.readDefinition s = .ok declared s₀) (hs₀ : s₀.Settled)
    (hname : declared.name = some name) (hcls : name.cls = some cls)
    (hclass : s₀.symbols.lookupTypeName cls.text = .ok (.object c))
    (hmember : s₀.symbols.member? c name.name = some (access, m))
    (hsame : sameSignature m declared.ty = true) (hrun : n.checkFunctionDefinition s = .ok () s') :
    s'.symbols.member? c name.name = some (access, m) ∧ s'.symbols.isDefined m = true ∧
      ∃ b s₁, n.clause.declareFunctionDef s = .ok b s₁ ∧ b.check s₁ = .ok () s' ∧
        b.attach = !s₀.symbols.isDefined m ∧
        s₁ = if s₀.symbols.isDefined m then
            s₀.reported ⟨.redeclaration name.qualified, name.position⟩
          else s₀ := by
  let L := retentionLogic hs₀ False
  rw [checkFunctionDefinition, n.phrase_clause] at hrun
  obtain ⟨b, s₁, hb, hcheck⟩ := exists_of_bind hrun
  have hsound : L.Body b := L.declareFunctionDef_yields (L.anyFunctionParts trivial n) s b s₁ hb
  have hretentive : Check.Retentive s₀ False b.check := L.checkBody (p := False) hsound False.elim
  obtain ⟨declared', s₀', name', d, hread', hname', hdefine, -, hty, -, hattach, -⟩ :=
    Clause.exists_of_declareFunctionDef hb
  cases hread.symm.trans hread'
  cases hname.symm.trans hname'
  rw [hcls] at hdefine
  replace hdefine := (defineMember_eq hclass hmember hsame).symm.trans hdefine
  cases hdefined : s₀.symbols.isDefined m with
  | true =>
    rw [hdefined] at hdefine
    cases hdefine
    obtain ⟨hretains, -⟩ :=
      hretentive [] [] False.elim _ () s' ((Checker.Retains.refl s₀).reported _) hcheck
    exact ⟨hretains.symbols.members hmember, hretains.symbols.isDefined hdefined, b, _, hb, hcheck,
      hattach, rfl⟩
  | false =>
    rw [hdefined] at hdefine
    cases hdefine
    obtain ⟨hretains, -⟩ := hretentive [] [] False.elim s₀ () s' (.refl s₀) hcheck
    refine ⟨hretains.symbols.members hmember, ?_, b, _, hb, hcheck, hattach, rfl⟩
    obtain rfl : b.ty = m := hty
    exact FunctionBody.isDefined_check hs₀ hmember hsound hattach hcheck

end Members

/-- A function with a plain name is defined in a scope that is no class body. Specifiers and
declarator contain no classes, and no class has the function of the name as a member. The function
whose body is checked has as many parameters as the declarator, of the same types in the same
places. Unless the name has been redeclared, it is bound to this function, whose body is a scope
that holds its parameters. If it has been redeclared, it means what it meant before, and what it
means has a body if and only if it had one. -/
theorem Node.checkFunctionDefinition_attaches {n : Node} {f : String} {s s' : Checker}
    (hlimit : s.limit = none) (hcls : s.symbols.current.cls? = none) (hs : s.symbols.Separates f)
    (hname : n.definedName? = some f) (hplain : n.isPlainDefinition = true)
    (hrun : n.checkFunctionDefinition s = .ok () s') :
    ∃ declared s₀ b s₁ g, n.clause.readDefinition s = .ok declared s₀ ∧
      n.clause.declareFunctionDef s = .ok b s₁ ∧ b.check s₁ = .ok () s' ∧
      declared.parameters = some b.parameters ∧ b.ty.function? = some g ∧
      List.Forall₂ (fun ty param => sameType ty param.ty = true) g.params b.parameters ∧
      (¬ s₁.Redeclared s.diagnostics f →
        s'.symbols.lookupLocal? f = some b.ty ∧
          ∃ frame, s'.symbols.body? g = some frame ∧ frame.HoldsParameters b.parameters g.params) ∧
      (s₁.Redeclared s.diagnostics f →
        s'.symbols.lookupLocal? f = s.symbols.lookupLocal? f ∧
          ∀ ty, s.symbols.lookupLocal? f = some ty →
            s'.symbols.isDefined ty = s.symbols.isDefined ty) := by
  rw [checkFunctionDefinition, n.phrase_clause] at hrun
  obtain ⟨b, s₁, hb, hcheck⟩ := exists_of_bind hrun
  obtain ⟨declared, s₀, -, -, hread, -, -, -, -, -, hparameters⟩ :=
    Clause.exists_of_definedName hb hname
  have hagrees := n.yields_agrees s b s₁ hb
  obtain ⟨g, hg, -⟩ := hagrees.function
  refine ⟨declared, s₀, b, s₁, g, hread, hb, hcheck, hparameters, hg, hagrees.forall₂ hg, ?_⟩
  obtain ⟨-, hkeeps⟩ := Clause.keeps_body hb hcheck
  obtain ⟨hbcls, ⟨hnot, hattach, howns, hfree⟩ |
    ⟨hredeclared, hattach, ty, hbound, howns, hsame⟩⟩ :=
    Checker.owns_of_declareFunctionDef hlimit hcls hs hname hplain hb
  · refine ⟨fun _ => ⟨(hkeeps.has howns.toHas).lookupLocal?, ?_⟩, fun h => absurd h hnot⟩
    exact howns.body?_check hfree hb hcheck hg hbcls hattach
  · refine ⟨fun h => absurd hredeclared h, fun _ => ⟨?_, fun ty' hty' => ?_⟩⟩
    · rw [hbound]
      exact (hkeeps.has howns.toHas).lookupLocal?
    · cases hbound.symm.trans hty'
      exact (howns.refused_body hb hcheck hbcls hattach).2.trans hsame

/-- The declarator of a function whose parameters have types of one word, each perhaps with a
name. -/
def functionOf (name : Node) (params : List (TokenKind × Option String)) : Node :=
  let param : TokenKind × Option String → Option Node
    | (kind, some name) =>
        tree .namedParam [word kind "type", word .identifier name]
    | (kind, none) => tree .abstractParam [word kind "type"]
  { rule := .functionDeclarator, children := [some name, tree .paramList (params.map param)] }

/-- The definition of a function with the result `int`. -/
def intDefinition (declarator : Node) (body : Option Node) : Node :=
  { rule := .functionDef
    children := [word .intType "int", some declarator, tree .compound [body]] }

/-- The prototype `int f(int, double, char);`. -/
def unnamedPrototype : FunctionDecl :=
  .prototypes (.leaf ⟨.intType, "int", ⟨1, "main.cpp"⟩⟩)
    [(functionOf (.leaf ⟨.identifier, "f", ⟨1, "main.cpp"⟩⟩)
      [(.intType, none), (.doubleType, none), (.charType, none)], none)]

/-- The definition `int f(int a, double, char a) {}`. -/
def repeatedParameter : Node :=
  intDefinition (functionOf (.leaf ⟨.identifier, "f", ⟨1, "main.cpp"⟩⟩)
    [(.intType, some "a"), (.doubleType, none), (.charType, some "a")]) none

/-- The definition becomes the body of the function that the prototype declares. The second
parameter of its name is reported and not bound, which is no redeclaration of the function. -/
theorem attached_repeatedParameter :
    let g : FunctionTy := ⟨0, .int, [.int, .double, .char], 3⟩
    ∃ s s' ty frame, unnamedPrototype.check (.start .bare) = .ok () s ∧
      repeatedParameter.checkFunctionDefinition s = .ok () s' ∧ s'.diagnostics.length = 1 ∧
      s.symbols.lookupLocal? "f" = some ty ∧ ty.function? = some g ∧ s.symbols.Separates "f" ∧
      s'.symbols.lookupLocal? "f" = some ty ∧ s'.symbols.body? g = some frame ∧
      frame.kind = .function ∧ frame.bindings.lookup "a" = some .int := by
  intro g
  obtain ⟨s, b, s₁, s', hprototype, hb, hrun, hreports, hclasses, hsize, hlimit, hcls, hbound, hty,
      hnone, hidx⟩ : ∃ s b s₁ s', unnamedPrototype.check (.start .bare) = .ok () s ∧
        repeatedParameter.clause.declareFunctionDef s = .ok b s₁ ∧
        repeatedParameter.checkFunctionDefinition s = .ok () s' ∧ s'.diagnostics.length = 1 ∧
        s.symbols.classes = #[] ∧ s.symbols.bodies.size = 1 ∧ s.limit = none ∧
        s.symbols.current.cls? = none ∧ s.symbols.lookupLocal? "f" = some b.ty ∧
        b.ty.function? = some g ∧ s₁.diagnostics = s.diagnostics ∧
        b.parameters.findIdx? (·.isNamed "a") = some 0 :=
    ⟨_, _, _, _, rfl, rfl, rfl, rfl, rfl, rfl, rfl, rfl, rfl, rfl, rfl, rfl⟩
  have hmethod : ∀ i, ¬ s.symbols.HasMethod i := by
    rintro i ⟨c, name, access, ty, h, hmember, -⟩
    unfold SymbolTable.member? SymbolTable.classBody at hmember
    rw [hclasses] at hmember
    cases hmember
  have hseparates : s.symbols.Separates "f" := by
    refine ⟨fun i hi => absurd hi (hmethod i), fun ty h hlookup hf => ⟨?_, hmethod h.id⟩⟩
    cases hbound.symm.trans hlookup
    cases (Ty.asFunction?_of_function? hty).symm.trans hf
    rw [hsize]
    decide
  have hnew : ¬ s₁.Redeclared s.diagnostics "f" := (Checker.Reads.refl s).not_redeclared hnone
  obtain ⟨declared, s₀, b', s₂, g', -, hb', -, -, hg', -, hattached, -⟩ :=
    Node.checkFunctionDefinition_attaches hlimit hcls hseparates rfl rfl hrun
  cases hb.symm.trans hb'
  cases hty.symm.trans hg'
  obtain ⟨hlookup, frame, hbody, hkind, hheld⟩ := hattached hnew
  obtain ⟨ty, hplace, ha⟩ := hheld "a" 0 hidx
  cases hplace
  exact ⟨s, s', b.ty, frame, hprototype, hrun, hreports, hbound, hty, hseparates, hlookup, hbody,
    hkind, ha⟩

/-- Makes a function that the name `f` is bound to, and that is also the member `g` of the class
`S`. -/
def shareFunction : Check Unit := do
  let position : Position := ⟨1, "main.cpp"⟩
  let function ← newFunction .int [.int] 1
  declare "f" position function
  let cls ← declareClass "S" position
  inClass cls .pub (declare "g" position function)

/-- The definition `int f(int a) { int S::g(int b) {} }`. -/
def definesMethod : Node :=
  let method : Node :=
    { rule := .qualifiedDeclarator, children := [word .className "S", word .identifier "g"] }
  let inner := intDefinition (functionOf method [(.intType, some "b")]) none
  let body := tree .statementSeq [tree .declSeq [some inner]]
  intDefinition (functionOf (.leaf ⟨.identifier, "f", ⟨1, "main.cpp"⟩⟩) [(.intType, some "a")]) body

/-- The definition `int (*f())[sizeof(struct f { int a; })] {}`. -/
def definesClass : Node := intDefinition sizedByClass none

/-- The names that are bound in the body of a function, if the name is that of a function with a
body. -/
def Checker.bodyNames? (f : String) (s : Checker) : Option (List String) := do
  let g ← (← s.symbols.lookupLocal? f).function?
  return (← s.symbols.body? g).bindings.map (·.1)

/-- There are exceptions of two kinds. A class in an array dimension may take the name of the
function: then the name has been redeclared and means the class, although it meant nothing before.
And a function that is a member of a class as well may get another body while its own is being
checked: then nothing is reported, but its scope does not bind the parameter `a`. -/
theorem unattached_definesClass_definesMethod :
    (definesClass.definedName? = some "f" ∧ (definesClass.child? 0).all Node.isClassFree = true ∧
      (∀ m ∈ definesClass.subtrees, m.rule = .functionDeclarator → m.child? 1 = none) ∧
      ∃ b s₁ s' c, definesClass.clause.declareFunctionDef (.start .bare) = .ok b s₁ ∧
        b.check s₁ = .ok () s' ∧ s₁.Redeclared (Checker.start .bare).diagnostics "f" ∧
        (Checker.start .bare).symbols.lookupLocal? "f" = none ∧
        s'.symbols.lookupLocal? "f" = some (.object c)) ∧
    definesMethod.definedName? = some "f" ∧ definesMethod.isPlainDefinition = true ∧
      (do shareFunction
          definesMethod.checkFunctionDefinition
          let s ← get
          return (s.diagnostics.length, s.bodyNames? "f") : Check _).run' (.start .bare) =
        some (0, some ["b"]) := by
  refine ⟨⟨rfl, rfl, by decide +kernel, ?_⟩, rfl, rfl, by decide +kernel⟩
  exact ⟨_, _, _, _, rfl, rfl, ⟨_, rfl, _, List.mem_singleton_self _, rfl⟩, rfl, rfl⟩

end CWithClasses
