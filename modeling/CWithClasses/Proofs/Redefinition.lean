import CWithClasses.Proofs.Bindings
import CWithClasses.Proofs.Logic.Weighed
import Mathlib.Algebra.Group.Prod
import Mathlib.Algebra.Order.Group.Multiset

/-!
# Second definitions

A function that has a body keeps it as long as a scope binds it. So a second definition of a name
in one scope finds either a function with a body or something else of that name, and is reported in
both cases, whatever its signature.

This is not so for the members of a class. Their bodies are checked when all members have been
declared, and until then no member has one.
-/

namespace CWithClasses

open Node (word tree)

/-! ### The names of definitions -/

namespace Node

mutual

/-- The plain name that a declarator introduces. There is none if a class qualifies the name. -/
def declaredName? : Node → Option String
  | ⟨rule, children, token⟩ =>
      match rule with
      | .token => token.map (·.text)
      | .constructorDeclarator => (children[0]?.join.bind (·.token)).map (·.text)
      | .destructorDeclarator => (children[0]?.join.bind (·.token)).map fun t => "~" ++ t.text
      | .pointerDeclarator | .abstractPointer => declaredNameIn 1 children
      | .functionDeclarator | .constFunctionDeclarator | .arrayDeclarator | .abstractFunction
      | .abstractArray | .abstractParens => declaredNameIn 0 children
      | _ => none

/-- The plain name that the declarator in a slot introduces. -/
def declaredNameIn : Nat → List (Option Node) → Option String
  | _, [] => none
  | 0, none :: _ => none
  | 0, some child :: _ => child.declaredName?
  | i + 1, _ :: rest => declaredNameIn i rest

end

/-- The plain name of the function that a tree defines. -/
def definedName? (n : Node) : Option String :=
  match n.rule with
  | .functionDef => (n.child? 1).bind declaredName?
  | .constructorDef => (n.child? 0).bind declaredName?
  | _ => none

/-- The name that a slot introduces is that of the tree in it. -/
theorem declaredNameIn_eq (i : Nat) (children : List (Option Node)) :
    declaredNameIn i children = children[i]?.join.bind declaredName? := by
  induction children generalizing i with
  | nil => rfl
  | cons child rest ih =>
    cases i with
    | zero => cases child <;> rfl
    | succ i => simpa [declaredNameIn] using ih i

end Node

/-- The names that occur more than once. -/
def repeated (names : Multiset String) : Multiset String :=
  names.filter fun f => 1 < names.count f

/-- Of a scope that is closed, only the names matter that it defines more than once. -/
def closeScope (w : Multiset String × Multiset String) : Multiset String × Multiset String :=
  (0, repeated w.1 + w.2)

/-- Weighs definitions by their plain names: those in the scope where a tree stands, and then those
that are repeated in a scope inside of it. The members of a class are not counted. -/
def definitionWeights : Weights (Multiset String × Multiset String) where
  jump _ := 0
  define n w := (n.definedName?.toList, w.2)
  block := closeScope
  loop w := w
  switch w := w
  function := closeScope
  members w := (0, w.2)

/-- The names that the tree defines more than once in one scope, be it the scope where the tree
stands or one inside of it. -/
def Node.redefined (n : Node) : Multiset String := (closeScope (definitionWeights.weight n)).2

/-! ### The name that a declarator introduces -/

/-- What is declared has the plain name that the declarator spells, if there is one. -/
def Declared.NamedBy (d : Declared) (n : Node) : Prop :=
  ∀ f, n.declaredName? = some f → ∃ position, d.name = some { name := f, position }

/-- The name of what is declared, unless a class qualifies it. -/
def Declared.plainName? (d : Declared) : Option String :=
  (d.name.filter (·.cls.isNone)).map (·.name)

/-- What is declared under a plain name has this name, and no class qualifies it. -/
theorem Declared.exists_of_plainName? {d : Declared} {f : String} (h : d.plainName? = some f) :
    ∃ position, d.name = some { name := f, position } := by
  obtain ⟨⟨cls, name, position⟩, hfilter, rfl⟩ := Option.map_eq_some_iff.mp h
  obtain ⟨hname, hcls⟩ := Option.filter_eq_some_iff.mp hfilter
  replace hcls : cls = none := Option.isNone_iff_eq_none.mp hcls
  exact ⟨position, by rw [hname, hcls]⟩

/-- The token of a leaf is the one that it carries. -/
theorem Check.Yields.leafToken (n : Node) :
    Check.Yields (liftM n.leafToken : Check Token) fun t => n.token = some t := by
  unfold Node.leafToken
  cases h : n.token with
  | none => exact .fault _
  | some t => exact .ret rfl

/-- A declarator inside of another one introduces the name of the other one. -/
theorem Node.yields_inner {n : Node} {i : Nat}
    (hname : n.declaredName? = (n.child? i).bind declaredName?)
    (ih : ∀ m, n.child? i = some m → ∀ ty,
      (m.phrase.roles.declarator ty).Yields fun d => d.plainName? = m.declaredName?) :
    ∀ q, n.clause.part? i = some q → ∀ ty,
      (q.roles.declarator ty).Yields fun d => d.plainName? = n.declaredName? := by
  intro q hq ty
  obtain ⟨m, hm, rfl⟩ := n.child_of_part? hq
  rw [hname, hm]
  exact ih m hm ty

/-- A declarator around another one, which may be left out, introduces the name of the other one. -/
theorem Node.yields_declareInner {n : Node} {i : Nat}
    (hname : n.declaredName? = (n.child? i).bind declaredName?)
    (ih : ∀ m, n.child? i = some m → ∀ ty,
      (m.phrase.roles.declarator ty).Yields fun d => d.plainName? = m.declaredName?) (ty : Ty) :
    (declareInner (n.clause.part? i) ty).Yields fun d => d.plainName? = n.declaredName? := by
  unfold declareInner
  cases hpart : n.clause.part? i with
  | some q => exact yields_inner hname ih q hpart ty
  | none =>
    rw [n.clause_part?, Option.map_eq_none_iff] at hpart
    rw [hname, hpart]
    exact .ret rfl

/-- The token of the part in a slot is that of the tree in it. -/
theorem Node.token_of_part {n : Node} {i : Nat} {q : Phrase} {t : Token}
    (hq : n.clause.part? i = some q) (ht : q.node.token = some t) :
    n.children[i]?.join.bind (·.token) = some t := by
  obtain ⟨m, hm, rfl⟩ := n.child_of_part? hq
  rw [m.phrase_node] at ht
  rw [child?] at hm
  simp [hm, ht]

/-- What a declarator declares has the plain name that the declarator spells, or none. -/
theorem Node.yields_plainName (n : Node) (ty : Ty) :
    (n.phrase.roles.declarator ty).Yields fun d => d.plainName? = n.declaredName? := by
  have ih : ∀ i m, n.child? i = some m → ∀ ty,
      (m.phrase.roles.declarator ty).Yields fun d => d.plainName? = m.declaredName? :=
    fun i m hm ty => have := sizeOf_child hm; yields_plainName m ty
  have hslot : ∀ i, n.declaredName? = declaredNameIn i n.children → ∀ q,
      n.clause.part? i = some q → ∀ ty,
        (q.roles.declarator ty).Yields fun d => d.plainName? = n.declaredName? := by
    intro i hname
    rw [declaredNameIn_eq] at hname
    exact yields_inner hname (ih i)
  have hinner : ∀ i, n.declaredName? = declaredNameIn i n.children → ∀ ty,
      (declareInner (n.clause.part? i) ty).Yields fun d => d.plainName? = n.declaredName? := by
    intro i hname
    rw [declaredNameIn_eq] at hname
    exact yields_declareInner hname (ih i)
  rw [n.phrase_roles_eq]
  change (n.clause.declarator ty).Yields fun d => d.plainName? = n.declaredName?
  obtain ⟨rule, children, token⟩ := n
  cases rule with
  | token =>
    refine (Check.Yields.leafToken _).bind fun t ht => ?_
    split
    · refine .ret ?_
      replace ht : token = some t := ht
      simp [declaredName?, ht, Declared.plainName?]
    · exact .fault _
  | pointerDeclarator => exact .declarator_pointer rfl (hslot 1 rfl)
  | abstractPointer =>
    exact Check.Yields.next fun operator => Check.Yields.next fun target => hinner 1 rfl target
  | functionDeclarator =>
    exact .declarator_function (.inl rfl) (fun q hq t _ => hslot 0 rfl q hq t) fun d _ hd => hd
  | constFunctionDeclarator =>
    exact .declarator_function (.inr rfl) (fun q hq t _ => hslot 0 rfl q hq t) fun d _ hd => hd
  | abstractFunction =>
    refine Check.Yields.next fun params => Check.Yields.next fun function => ?_
    exact (hinner 0 rfl function).bind fun d hd => .ret hd
  | arrayDeclarator => exact .declarator_array rfl (hslot 0 rfl)
  | abstractArray => exact Check.Yields.next fun size => hinner 0 rfl _
  | abstractParens => exact hinner 0 rfl ty
  | constructorDeclarator =>
    refine (Check.Yields.part _ 0).bind fun q hq => ?_
    refine (Check.Yields.leafToken q.node).bind fun t ht => ?_
    refine Check.Yields.next fun params => Check.Yields.next fun function => .ret ?_
    simp [declaredName?, token_of_part hq ht, Declared.plainName?]
  | destructorDeclarator =>
    refine (Check.Yields.part _ 0).bind fun q hq => ?_
    refine (Check.Yields.leafToken q.node).bind fun t ht => ?_
    refine Check.Yields.next fun function => .ret ?_
    simp [declaredName?, token_of_part hq ht, Declared.plainName?]
  | qualifiedDeclarator =>
    refine .declarator_qualified (P := fun _ => True) rfl
      (fun _ _ _ _ _ _ => trivial) fun d cls _ => ?_
    cases hd : d.name <;> simp [Declared.plainName?, Declared.withClass, hd, declaredName?]
  | _ => exact .fault _
termination_by sizeOf n

/-- A declarator introduces the name that it spells. -/
theorem Node.yields_declaredName (n : Node) (ty : Ty) :
    (n.phrase.roles.declarator ty).Yields fun d => d.NamedBy n :=
  (n.yields_plainName ty).mono fun _ hd _ hf => Declared.exists_of_plainName? (hd.trans hf)

/-! ### What a check has come across -/

/-- What the innermost scope binds is bound. -/
theorem SymbolTable.binds_current {t : SymbolTable} {f : String} {ty : Ty}
    (h : t.current.bindings.lookup f = some ty) : t.Binds ty :=
  ⟨(t.current.kind, t.current.bindings), by rw [t.bound_eq]; exact List.mem_cons_self, f, h⟩

/-- The innermost scope binds the name to a function with a body. -/
def Checker.Defines (f : String) (s : Checker) : Prop :=
  ∃ ty, s.symbols.current.bindings.lookup f = some ty ∧ s.symbols.isDefined ty = true

/-- Beyond what was reported before, a redeclaration of the name has been reported. -/
def Checker.Redeclared (before : List Diagnostic) (f : String) (s : Checker) : Prop :=
  ∃ after, s.diagnostics = before ++ after ∧ ∃ d ∈ after, d.problem = .redeclaration f

/-- What holds after a number of definitions of a name: after the first one, the name is that of a
function with a body, and after the second one it has been redeclared. -/
def Checker.HasMet (before : List Diagnostic) (f : String) (s : Checker) : Nat → Prop
  | 0 => True
  | 1 => s.Defines f ∨ s.Redeclared before f
  | _ + 2 => s.Redeclared before f

namespace Checker

variable {before : List Diagnostic} {f : String} {s s' : Checker}

namespace Keeps

/-- The innermost scope stays what it is. -/
theorem kind (h : Keeps [] s s') : s'.symbols.current.kind = s.symbols.current.kind := by
  obtain ⟨new, hbound, _⟩ := h.symbols.bound
  rw [SymbolTable.bound_eq, List.nil_append] at hbound
  exact (Prod.mk.inj (List.cons.inj hbound).1).1

/-- The innermost scope stays the body of its class, or of none. -/
theorem cls? (h : Keeps [] s s') : s'.symbols.current.cls? = s.symbols.current.cls? := by
  simp [Frame.cls?, h.kind]

/-- The innermost scope still binds what it did. -/
theorem lookup {ty : Ty} (h : Keeps [] s s')
    (hty : s.symbols.current.bindings.lookup f = some ty) :
    s'.symbols.current.bindings.lookup f = some ty := by
  obtain ⟨new, hbound, hextends⟩ := h.symbols.bound
  rw [SymbolTable.bound_eq, List.nil_append] at hbound
  have hbindings : s'.symbols.current.bindings = new := (Prod.mk.inj (List.cons.inj hbound).1).2
  rw [hbindings]
  exact hextends f ty hty

/-- A function with a body keeps it. -/
theorem defines (h : Keeps [] s s') (hs : s.Defines f) : s'.Defines f := by
  obtain ⟨ty, hty, hdefined⟩ := hs
  exact ⟨ty, h.lookup hty, h.symbols.defined ty (SymbolTable.binds_current hty) hdefined⟩

/-- What has been redeclared stays so. -/
theorem redeclared (h : Keeps [] s s') (hs : s.Redeclared before f) :
    s'.Redeclared before f := by
  obtain ⟨after, hafter, d, hd, hproblem⟩ := hs
  obtain ⟨more, hmore⟩ := h.diagnostics
  refine ⟨after ++ more, ?_, d, List.mem_append_left _ hd, hproblem⟩
  rw [← hmore, hafter, List.append_assoc]

/-- What holds after some definitions still holds later. -/
theorem hasMet {m : Nat} (h : Keeps [] s s') (hs : s.HasMet before f m) :
    s'.HasMet before f m := by
  cases m with
  | zero => trivial
  | succ m =>
    cases m with
    | zero => exact hs.imp h.defines h.redeclared
    | succ m => exact h.redeclared hs

end Keeps

/-- Once a name has been redeclared, any number of definitions may have been met. -/
theorem Redeclared.hasMet (h : s.Redeclared before f) (m : Nat) : s.HasMet before f m := by
  cases m with
  | zero => trivial
  | succ m =>
    cases m with
    | zero => exact .inr h
    | succ m => exact h

end Checker

namespace Check

variable {α : Type}

/-- What a step that ends well has kept. -/
theorem Keeps.of_ok {x : Check α} {s s' : Checker} {a : α} (hx : x.Keeps) (h : x s = .ok a s') :
    s.Keeps [] s' := by
  have hrun := hx s
  rw [h] at hrun
  exact hrun

end Check

/-! ### Definitions -/

namespace Checker

variable {before : List Diagnostic} {f : String} {s : Checker}

/-- Without a limit, a redeclaration is reported. -/
theorem redeclared_reported (hlimit : s.limit = none) (hbefore : before <+: s.diagnostics)
    (position : Position) : (s.reported ⟨.redeclaration f, position⟩).Redeclared before f := by
  obtain ⟨after, hafter⟩ := hbefore
  refine ⟨after ++ [⟨.redeclaration f, position⟩], ?_, ⟨.redeclaration f, position⟩, ?_, rfl⟩
  · rw [diagnostics_reported, hlimit, ← hafter]
    simp
  · simp

end Checker

/-- A name that is not bound yet can be bound, in a scope that is no class body. -/
theorem SymbolTable.insert_unbound {t : SymbolTable} {name : String} (ty : Ty)
    (hcls : t.current.cls? = none) (hnone : t.current.bindings.lookup name = none) :
    ∃ t', t.insert name ty = .ok t' ∧ t'.current.bindings.lookup name = some ty := by
  simp [SymbolTable.insert, hcls, hnone]

/-- A definition with a plain name is reported, or it will be the first body of the function that
the name is bound to. -/
theorem defineLocal_ok {before : List Diagnostic} {name : DeclaredName} {ty : Ty} {s s' : Checker}
    {d : Definition} (h : defineLocal name ty s = .ok d s') (hname : name.cls = none)
    (hlimit : s.limit = none) (hcls : s.symbols.current.cls? = none)
    (hbefore : before <+: s.diagnostics) :
    s'.Redeclared before name.name ∨
      ¬ s.Defines name.name ∧ d.attach = true ∧ d.cls = none ∧
        s'.symbols.current.bindings.lookup name.name = some d.ty := by
  have hlookup := SymbolTable.lookupLocal?_eq hcls name.name
  unfold defineLocal at h
  rw [Check.bind_symbols] at h
  cases hlocal : s.symbols.lookupLocal? name.name with
  | some existing =>
    rw [hlocal] at h
    rw [hlocal] at hlookup
    dsimp only at h
    split at h
    next hsame =>
      cases h
      refine .inr ⟨?_, rfl, rfl, hlookup.symm⟩
      rintro ⟨bound, hbound, hdefined⟩
      rw [← hlookup] at hbound
      cases hbound
      simp [hdefined] at hsame
    next =>
      cases h
      have hqualified : name.qualified = name.name := by simp [DeclaredName.qualified, hname]
      rw [hqualified]
      exact .inl (Checker.redeclared_reported hlimit hbefore _)
  | none =>
    rw [hlocal] at h
    rw [hlocal] at hlookup
    obtain ⟨t, hinsert, hbound⟩ := SymbolTable.insert_unbound ty hcls hlookup.symm
    have hfunction : declareFunction name ty s = .ok ty { s with symbols := t } := by
      unfold declareFunction
      rw [Check.bind_symbols, hlocal]
      exact Check.bind_ok (Check.declare_eq name.position hinsert) _
    dsimp only at h
    rw [Check.bind_ok hfunction] at h
    cases h
    refine .inr ⟨?_, rfl, rfl, hbound⟩
    rintro ⟨other, hother, _⟩
    simp [← hlookup] at hother

/-- The function that a scope is attached to has this one as its body if it had none. If it had one,
the scope goes. -/
theorem FunctionBody.body?_attachScope {b : FunctionBody} {f : FunctionTy} {frame : Frame}
    {s s' : Checker} (h : b.attachScope f (some frame) s = .ok () s') (hattach : b.attach = true) :
    s'.symbols.body? f =
      if (s.symbols.body? f).isSome then (s.discard frame).symbols.body? f else some frame := by
  unfold FunctionBody.attachScope at h
  rw [hattach] at h
  dsimp only at h
  rw [Check.bind_symbols] at h
  cases hdefine : s.symbols.define? f frame with
  | some table =>
    rw [hdefine] at h
    cases h
    rw [(SymbolTable.define?_rest hdefine).1]
    exact (SymbolTable.body?_define hdefine).trans (if_pos rfl)
  | none =>
    rw [hdefine] at h
    cases h
    rw [if_pos (SymbolTable.isSome_of_define? hdefine)]
    rfl

/-- The function that a scope is attached to is defined, unless it loses a body that it had. -/
theorem FunctionBody.isDefined_attachScope {b : FunctionBody} {f : FunctionTy} {frame : Frame}
    {s s' : Checker} (h : b.attachScope f (some frame) s = .ok () s') (hattach : b.attach = true)
    (hf : b.ty.asFunction? = some f)
    (hkept : s.symbols.isDefined b.ty = true → (s.discard frame).symbols.isDefined b.ty = true) :
    s'.symbols.isDefined b.ty = true := by
  unfold SymbolTable.isDefined at hkept ⊢
  rw [hf] at hkept ⊢
  dsimp only at hkept ⊢
  rw [FunctionBody.body?_attachScope h hattach]
  split
  next hsome => exact hkept hsome
  next => rfl

/-- A step in a scope of its own hands over the scope, and leaves those around it as before. -/
theorem Check.Keeps.exists_of_bracket {α : Type} {kind : FrameKind} {x : Check α} {s s' : Checker}
    {r : α × Option Frame} (hx : x.Keeps) (h : Check.bracket kind x s = .ok r s') :
    ∃ frame, r.2 = some frame := by
  have hinside := hx (s.opened kind)
  cases hrun : x (s.opened kind) with
  | error e s₁ =>
    rw [Check.bracket_error hrun] at h
    cases h
  | ok a s₁ =>
    rw [hrun] at hinside
    obtain ⟨frame, rest, hpop, _⟩ := hinside.symbols.of_push_pop
    rw [Check.bracket_ok hrun hpop] at h
    cases h
    exact ⟨frame, rfl⟩

/-- A function whose name is bound has a body once its body has been checked. -/
theorem FunctionBody.defines_check {b : FunctionBody} {name : String} {s s' : Checker}
    (h : b.check s = .ok () s') (hsound : bindingsLogic.toStepLogic.Body b)
    (hattach : b.attach = true) (hcls : b.cls = none)
    (hbound : s.symbols.current.bindings.lookup name = some b.ty) : s'.Defines name := by
  have hcheck : b.check.Keeps := bindingsLogic.toStepLogic.checkBody (p := False) hsound nofun
  refine ⟨b.ty, (hcheck.of_ok h).lookup hbound, ?_⟩
  cases hf : b.ty.asFunction? with
  | none =>
    unfold FunctionBody.check at h
    rw [hf] at h
    cases h
  | some f =>
    rw [FunctionBody.check_eq hf] at h
    obtain ⟨scope, s₁, hscope, hrest⟩ := Check.exists_of_bind h
    obtain ⟨_, s₂, hattached, hlog⟩ := Check.exists_of_bind hrest
    unfold FunctionBody.scope at hscope
    rw [hcls] at hscope
    obtain ⟨r, s₃, hbracket, hret⟩ := Check.exists_of_bind hscope
    cases hret
    have hstatements : (b.checkStatements f).Keeps :=
      bindingsLogic.checkStatements f (fun init hinit => hsound.ctorInit init hinit True)
        (hsound.block True)
    obtain ⟨frame, hframe⟩ := hstatements.exists_of_bracket hbracket
    rw [hframe] at hattached
    have hkeeps := (Check.Keeps.bracket .function hstatements).of_ok hbracket
    have hbinds := SymbolTable.binds_current (hkeeps.lookup hbound)
    have hdiscard := (Check.Keeps.discard (some frame)).of_ok (s := s₁) rfl
    have hdefined :=
      FunctionBody.isDefined_attachScope hattached hattach hf (hdiscard.symbols.defined b.ty hbinds)
    cases hlog
    exact hdefined

/-- The declarator of a definition is in its second slot, or in the first one of a constructor. -/
theorem Clause.functionParts_declarator (c : Clause) :
    c.functionParts.Yields fun parts =>
      c.rule = .functionDef ∧ c.part? 1 = some parts.2.1 ∨
        c.rule = .constructorDef ∧ c.part? 0 = some parts.2.1 := by
  unfold Clause.functionParts
  split
  next hrule =>
    refine (Check.Yields.part c 1).bind fun d hd => Check.Yields.next fun b => .ret ?_
    exact .inl ⟨hrule, hd⟩
  next hrule =>
    refine (Check.Yields.part c 0).bind fun d hd => ?_
    exact Check.Yields.next fun i => Check.Yields.next fun b => .ret (.inr ⟨hrule, hd⟩)
  next => exact .fault _

/-- The declarator of a definition spells the name that is defined. -/
theorem Node.exists_declarator {n : Node} {q : Phrase} {f : String}
    (hq : n.rule = .functionDef ∧ n.clause.part? 1 = some q ∨
      n.rule = .constructorDef ∧ n.clause.part? 0 = some q)
    (hf : n.definedName? = some f) : ∃ m : Node, q = m.phrase ∧ m.declaredName? = some f := by
  have hslot : ∀ i, (n.child? i).bind declaredName? = some f → n.clause.part? i = some q →
      ∃ m : Node, q = m.phrase ∧ m.declaredName? = some f := by
    intro i hname hpart
    obtain ⟨m, hm, rfl⟩ := n.child_of_part? hpart
    rw [hm] at hname
    exact ⟨m, rfl, hname⟩
  unfold definedName? at hf
  rcases hq with ⟨hrule, hpart⟩ | ⟨hrule, hpart⟩
  · rw [hrule] at hf
    exact hslot 1 hf hpart
  · rw [hrule] at hf
    exact hslot 0 hf hpart

/-- The declarator of a function definition, applied to the base type of its specifiers. -/
def Clause.readDefinition (c : Clause) : Check Declared := do
  let (specifiers, declarator, _, _) ← c.functionParts
  declarator.roles.declarator (← checkSpecifiers? specifiers)

/-- Reading the declarator of a definition keeps what scopes bind. -/
theorem Node.keeps_readDefinition (n : Node) : n.clause.readDefinition.Keeps := by
  let L := bindingsLogic.toStepLogic
  have hparts := L.anyFunctionParts trivial n
  unfold Clause.readDefinition
  change L.triple False _ fun d : Declared => d.ty.Known
  refine L.seq (L.functionParts_yields hparts) (L.functionParts hparts) ?_
  rintro ⟨specifiers, declarator, ctorInit, body⟩ ⟨hspecifiers, hdeclarator, -⟩
  refine L.bind (L.checkSpecifiers hspecifiers) fun base => ?_
  exact hdeclarator.1 _ base And.right

namespace Clause

variable {s s' : Checker} {b : FunctionBody}

/-- A function definition reads the declarator, relates its name to what was declared before, and
leaves the body. -/
theorem exists_of_declareFunctionDef {c : Clause} (h : c.declareFunctionDef s = .ok b s') :
    ∃ declared s₁ name d, c.readDefinition s = .ok declared s₁ ∧ declared.name = some name ∧
      name.cls.elim (defineLocal name declared.ty) (defineMember · name declared.ty) s₁ = .ok d s' ∧
      declared.ty.function?.isSome ∧ b.ty = d.ty ∧ b.cls = d.cls ∧ b.attach = d.attach ∧
      declared.parameters = some b.parameters := by
  unfold declareFunctionDef at h
  obtain ⟨⟨specifiers, declarator, init, body⟩, s₁, hparts, h⟩ := Check.exists_of_bind h
  obtain ⟨base, s₂, hbase, h⟩ := Check.exists_of_bind h
  obtain ⟨declared, s₃, hdeclared, h⟩ := Check.exists_of_bind h
  dsimp only at hbase hdeclared h
  have hread : c.readDefinition s = .ok declared s₃ := by
    unfold readDefinition
    rw [Check.bind_ok hparts]
    dsimp only
    rw [Check.bind_ok hbase, hdeclared]
  cases hname : declared.name with
  | none =>
    rw [hname] at h
    cases h
  | some name =>
    rcases hparameters : declared.parameters with _ | parameters <;>
      rcases hfunction : declared.ty.function? with _ | g <;>
      rw [hname, hparameters, hfunction] at h
    case some.some =>
      dsimp only at h
      cases hcls : name.cls <;>
      · rw [hcls] at h
        obtain ⟨d, s₄, hdefine, hret⟩ := Check.exists_of_bind h
        cases hret
        refine ⟨declared, s₃, name, d, hread, hname, ?_, ?_, rfl, rfl, rfl, hparameters⟩
        · rw [hcls]
          exact hdefine
        · rw [hfunction]
          rfl
    all_goals cases h

/-- A function definition whose declarator spells a plain name. -/
theorem exists_of_definedName {n : Node} {f : String} (h : n.clause.declareFunctionDef s = .ok b s')
    (hname : n.definedName? = some f) :
    ∃ declared s₁ position d, n.clause.readDefinition s = .ok declared s₁ ∧
      defineLocal { name := f, position } declared.ty s₁ = .ok d s' ∧
      declared.ty.function?.isSome ∧ b.ty = d.ty ∧ b.cls = d.cls ∧ b.attach = d.attach ∧
      declared.parameters = some b.parameters := by
  obtain ⟨declared, s₁, name, d, hread, hdeclared, hdefine, hrest⟩ := exists_of_declareFunctionDef h
  have hspelled := hread
  unfold readDefinition at hspelled
  obtain ⟨⟨specifiers, declarator, init, body⟩, s₂, hparts, hspelled⟩ :=
    Check.exists_of_bind hspelled
  obtain ⟨base, s₃, -, hspelled⟩ := Check.exists_of_bind hspelled
  obtain ⟨m, rfl, hm⟩ :=
    Node.exists_declarator (functionParts_declarator _ s _ s₂ hparts) hname
  obtain ⟨position, hposition⟩ := m.yields_declaredName base s₃ declared s₁ hspelled f hm
  cases hdeclared.symm.trans hposition
  exact ⟨declared, s₁, position, d, hread, hdefine, hrest⟩

/-- A function definition is reported, or it leaves the first body of the function that its name
is bound to. -/
theorem declareFunctionDef_ok {n : Node} {f : String} {before : List Diagnostic}
    (h : n.clause.declareFunctionDef s = .ok b s') (hf : n.definedName? = some f)
    (hlimit : s.limit = none) (hcls : s.symbols.current.cls? = none)
    (hbefore : before <+: s.diagnostics) :
    s'.Redeclared before f ∨
      ¬ s.Defines f ∧ b.attach = true ∧ b.cls = none ∧
        s'.symbols.current.bindings.lookup f = some b.ty := by
  obtain ⟨declared, s₁, position, d, hread, hdefine, -, hty, hbcls, hattach, -⟩ :=
    exists_of_definedName h hf
  rw [hty, hbcls, hattach]
  have hkeeps := n.keeps_readDefinition.of_ok hread
  rcases defineLocal_ok hdefine rfl (hkeeps.limit.trans hlimit) (hkeeps.cls?.trans hcls)
    (hbefore.trans hkeeps.diagnostics) with hredeclared | ⟨hnew, hrest⟩
  · exact .inl hredeclared
  · exact .inr ⟨fun hs => hnew (hkeeps.defines hs), hrest⟩

end Clause

/-- After a function definition, one more definition of its name has been met. -/
theorem Node.hasMet_functionDefinition {n : Node} {f : String} {before : List Diagnostic} {m : Nat}
    {s s' : Checker} (h : n.clause.functionDefinition s = .ok () s')
    (hf : n.definedName? = some f) (hlimit : s.limit = none)
    (hcls : s.symbols.current.cls? = none) (hbefore : before <+: s.diagnostics)
    (hs : s.HasMet before f m) : s'.HasMet before f (m + 1) := by
  let L := bindingsLogic.toStepLogic
  have hparts := L.anyFunctionParts trivial n
  have hkeeps : n.clause.functionDefinition.Keeps := L.functionDefinition (p := False) hparts
  have hagain : s.Redeclared before f → s'.HasMet before f (m + 1) :=
    fun hredeclared => ((hkeeps.of_ok h).redeclared hredeclared).hasMet _
  have hrun := h
  unfold Clause.functionDefinition at hrun
  obtain ⟨b, s₁, hdeclare, hcheck⟩ := Check.exists_of_bind hrun
  have hsound : L.Body b := L.declareFunctionDef_yields hparts s b s₁ hdeclare
  have hcheckKeeps : b.check.Keeps := L.checkBody (p := False) hsound nofun
  rcases Clause.declareFunctionDef_ok hdeclare hf hlimit hcls hbefore with
    hredeclared | ⟨hnew, hattach, hnoClass, hbound⟩
  · exact ((hcheckKeeps.of_ok hcheck).redeclared hredeclared).hasMet _
  · cases m with
    | zero => exact .inl (FunctionBody.defines_check hcheck hsound hattach hnoClass hbound)
    | succ m =>
      cases m with
      | zero => exact hagain (hs.resolve_left hnew)
      | succ m => exact hagain hs

/-! ### Definitions along a run -/

/-- From one state to a later one: in a scope that is no class body, the definitions of the scope
have been met, and what is repeated in the scopes inside has been redeclared, apart from what is
still owed. -/
structure Checker.Meets (before : List Diagnostic) (w owed : Multiset String × Multiset String)
    (s s' : Checker) : Prop where
  keeps : s.Keeps [] s'
  here : s.symbols.current.cls? = none → ∀ f m, s.HasMet before f m →
    ∃ k, w.1.count f ≤ k + owed.1.count f ∧ s'.HasMet before f (m + k)
  inside : ∀ f ∈ w.2, f ∈ owed.2 ∨ s'.Redeclared before f

namespace Checker.Meets

variable {before : List Diagnostic} {s s₁ s' : Checker}
  {w v owed owing : Multiset String × Multiset String}

/-- Nothing has been met, and all is still owed. -/
theorem of_keeps (h : s.Keeps [] s') (w : Multiset String × Multiset String) :
    s.Meets before w w s' where
  keeps := h
  here _ f m hs := ⟨0, by omega, h.hasMet hs⟩
  inside f hf := .inl hf

/-- What is owed at first may be met later. -/
theorem trans (h₁ : s.Meets before w owed s₁) (h₂ : s₁.Meets before (v + owed) owing s') :
    s.Meets before (w + v) owing s' where
  keeps := h₁.keeps.trans h₂.keeps
  here hcls f m hs := by
    obtain ⟨k₁, hk₁, hs₁⟩ := h₁.here hcls f m hs
    obtain ⟨k₂, hk₂, hs'⟩ := h₂.here (h₁.keeps.cls?.trans hcls) f (m + k₁) hs₁
    rw [Prod.fst_add, Multiset.count_add] at hk₂
    refine ⟨k₁ + k₂, ?_, by rwa [← Nat.add_assoc]⟩
    rw [Prod.fst_add, Multiset.count_add]
    omega
  inside f hf := by
    have hlater : ∀ f ∈ (v + owed).2, f ∈ owing.2 ∨ s'.Redeclared before f := h₂.inside
    rw [Prod.snd_add, Multiset.mem_add] at hf
    rcases hf with hfirst | hsecond
    · rcases h₁.inside f hfirst with howed | hredeclared
      · exact hlater f (by rw [Prod.snd_add]; exact Multiset.mem_add.mpr (.inr howed))
      · exact .inr (h₂.keeps.redeclared hredeclared)
    · exact hlater f (by rw [Prod.snd_add]; exact Multiset.mem_add.mpr (.inl hsecond))

/-- What is repeated in a scope inside has been redeclared. -/
theorem redeclared_inside {f : String} (h : s.Meets before w 0 s') (hf : f ∈ w.2) :
    s'.Redeclared before f :=
  (h.inside f hf).resolve_left (by simp)

/-- What is repeated in the scope itself has been redeclared as well, if it is no class body. -/
theorem redeclared {f : String} (h : s.Meets before w 0 s') (hcls : s.symbols.current.cls? = none)
    (hf : f ∈ (closeScope w).2) : s'.Redeclared before f := by
  rcases Multiset.mem_add.mp hf with hrepeated | hinside
  · have hcount : 1 < w.1.count f := (Multiset.mem_filter.mp hrepeated).2
    obtain ⟨k, hk, hmet⟩ := h.here hcls f 0 trivial
    have htwice : 2 ≤ k := by
      simp only [Prod.fst_zero, Multiset.count_zero] at hk
      omega
    obtain ⟨j, rfl⟩ := Nat.exists_eq_add_of_le' htwice
    rwa [Nat.zero_add] at hmet
  · exact h.redeclared_inside hinside

end Checker.Meets

/-- Without a limit on reports, the step meets the definitions that a weight tells, apart from what
its result owes. -/
def Check.Meets {α : Type} (w : Multiset String × Multiset String) (x : Check α)
    (owed : α → Multiset String × Multiset String) : Prop :=
  ∀ before s a s', s.limit = none → before <+: s.diagnostics → x s = .ok a s' →
    s.Meets before w (owed a) s'

namespace Check.Meets

variable {α β : Type} {w v : Multiset String × Multiset String}

/-- A step that meets no definition. -/
theorem zero {x : Check α} (hx : x.Keeps) : Check.Meets 0 x fun _ => 0 :=
  fun _ _ _ _ _ _ hrun => .of_keeps (hx.of_ok hrun) 0

/-- A step that only has a result. -/
theorem ret (a : α) (owed : α → Multiset String × Multiset String) :
    Check.Meets (owed a) (pure a) owed := by
  intro before s a s' _ _ hrun
  cases hrun
  exact .of_keeps (.refl s) _

/-- One step after another, given what the first one yields. -/
theorem seq {x : Check α} {g : α → Check β} {R : α → Prop}
    {owed : α → Multiset String × Multiset String} {owing : β → Multiset String × Multiset String}
    (hR : x.Yields R) (hx : Check.Meets w x owed)
    (hg : ∀ a, R a → Check.Meets (v + owed a) (g a) owing) :
    Check.Meets (w + v) (x >>= g) owing := by
  intro before s b s' hlimit hbefore hrun
  obtain ⟨a, s₁, hfirst, hrest⟩ := exists_of_bind hrun
  have hmet := hx before s a s₁ hlimit hbefore hfirst
  have hlater := hg a (hR s a s₁ hfirst) before s₁ b s' (hmet.keeps.limit.trans hlimit)
    (hbefore.trans hmet.keeps.diagnostics) hrest
  exact hmet.trans hlater

/-- The rules for meeting definitions. -/
def rules : WeightRules (Multiset String × Multiset String) where
  does := Check.Meets
  ret := ret
  seq := seq

/-- A step inside of loops and switches. -/
theorem nested (loops switches : Nat) {x : Check Unit} (hx : Check.Meets w x fun _ => 0) :
    Check.Meets w (Check.nested loops switches x) fun _ => 0 := by
  have henter : Check.Keeps (modify (·.nested loops switches)) := fun _ => .of_eq rfl rfl rfl rfl
  refine rules.next (zero henter) fun _ => ?_
  intro before s a s' hlimit hbefore hrun
  obtain ⟨s₁, hbody, rfl⟩ := exists_of_afterwards hrun
  have hkeeps : s₁.Keeps [] (s₁.unnested loops switches) := .of_eq rfl rfl rfl rfl
  have hafter : s₁.Meets before (0 + 0) 0 (s₁.unnested loops switches) := by
    rw [add_zero]
    exact .of_keeps hkeeps 0
  have hmet := (hx before s a s₁ hlimit hbefore hbody).trans hafter
  rwa [add_zero] at hmet

/-- A step inside of a function. -/
theorem inFunction (result : Ty) {x : Check Unit} (hx : Check.Meets w x fun _ => 0) :
    Check.Meets w (Check.inFunction result x) fun _ => 0 := by
  have henter : Check.Keeps (modify (·.enterFunction result)) := fun _ => .of_eq rfl rfl rfl rfl
  have hleave : Check.Keeps (modify (·.leaveFunction)) := fun _ => .of_eq rfl rfl rfl rfl
  exact rules.next (zero henter) fun _ => rules.before hx fun _ => zero hleave

/-- A step in a scope of its own. What it leaves to the scopes around has been redeclared. -/
theorem bracket {kind : FrameKind} {x : Check α} {names : Multiset String}
    (hx : Check.Meets w x fun _ => 0)
    (hnames : ∀ f ∈ names, f ∈ w.2 ∨ (∀ c, kind ≠ .classBody c) ∧ f ∈ (closeScope w).2) :
    Check.Meets (0, names) (Check.bracket kind x) fun _ => 0 := by
  intro before s r s' hlimit hbefore hrun
  obtain ⟨_, _, hopen, hrun⟩ := exists_of_bind hrun
  cases hopen
  obtain ⟨a, s₁, hinside, hrun⟩ := exists_of_bind hrun
  have hmet := hx before (s.opened kind) a s₁ hlimit hbefore hinside
  obtain ⟨frame, rest, hpop, _, hkeeps⟩ := hmet.keeps.closed
  obtain ⟨_, _, hclose, hret⟩ := exists_of_bind hrun
  rw [popScope_eq hpop] at hclose
  cases hclose
  cases hret
  have hredeclared : ∀ f ∈ names, s₁.Redeclared before f := by
    intro f hf
    rcases hnames f hf with hinner | ⟨hkind, hclosed⟩
    · exact hmet.redeclared_inside hinner
    · have hcls : (s.opened kind).symbols.current.cls? = none := by
        cases kind with
        | classBody c => exact absurd rfl (hkind c)
        | _ => rfl
      exact hmet.redeclared hcls hclosed
  exact ⟨hkeeps, fun _ f m hs => ⟨0, by simp, hkeeps.hasMet hs⟩,
    fun f hf => .inr (hredeclared f hf)⟩

/-- A block, or the body of a function. -/
theorem inScope (kind : FrameKind) {x : Check α} (hx : Check.Meets w x fun _ => 0)
    (hkind : ∀ c, kind ≠ .classBody c) :
    Check.Meets (closeScope w) (Check.bracket kind x) fun _ => 0 :=
  hx.bracket fun _ hf => .inr ⟨hkind, hf⟩

/-- The body of a class. -/
theorem classBody (c : ClassRef) {x : Check α} (hx : Check.Meets w x fun _ => 0) :
    Check.Meets (0, w.2) (Check.bracket (.classBody c) x) fun _ => 0 :=
  hx.bracket fun _ hf => .inl hf

/-- A jump or a label, and what comes after it. -/
theorem illegalJump {c : Checker → Prop} [DecidablePred c] (statement : String)
    (position : Position) {x : Check Unit} {y : Checker → Check Unit}
    (hx : Check.Meets w x fun _ => 0) (hy : ∀ s, Check.Meets w (y s) fun _ => 0) :
    Check.Meets w (do
      let s ← get
      if c s then do
        CWithClasses.illegalJump statement position
        x
      else y s) fun _ => 0 := by
  have hreport : Check.Meets w (do CWithClasses.illegalJump statement position; x) fun _ => 0 :=
    rules.next (zero (.change fun s => .reported s _)) fun _ => hx
  intro before s a s' hlimit hbefore hrun
  change (if c s then (do CWithClasses.illegalJump statement position; x) else y s) s = _ at hrun
  split at hrun
  · exact hreport before s a s' hlimit hbefore hrun
  · exact hy s before s a s' hlimit hbefore hrun

/-- A function definition is met in its scope. -/
theorem functionDefinition {n : Node}
    (hx : Check.Meets w n.clause.functionDefinition fun _ => 0) :
    Check.Meets (n.definedName?.toList, w.2) n.clause.functionDefinition fun _ => 0 := by
  intro before s a s' hlimit hbefore hrun
  have hmet := hx before s a s' hlimit hbefore hrun
  refine ⟨hmet.keeps, fun hcls f m hs => ?_, hmet.inside⟩
  by_cases hf : n.definedName? = some f
  · refine ⟨1, by simp [hf], ?_⟩
    exact Node.hasMet_functionDefinition hrun hf hlimit hcls hbefore hs
  · refine ⟨0, ?_, hmet.keeps.hasMet hs⟩
    cases hname : n.definedName? with
    | none => simp
    | some g =>
      have hne : f ≠ g := by
        rintro rfl
        exact hf hname
      simp [hne]

end Check.Meets

/-- Checks meet the definitions of the tree. -/
def definitionTally : Tally (Multiset String × Multiset String) where
  toWeights := definitionWeights
  toWeightRules := Check.Meets.rules
  logic := bindingsLogic
  zero := .zero
  never _ _ hx := fun _ s a s' _ _ hrun => (hx s a s' hrun).elim
  blockScope hx := hx.inScope .block nofun
  classScope c _ hx := hx.classBody c
  functionScope result _ _ hparameters hx := by
    have hfunction := Check.Meets.inFunction result hx
    have hbody := Check.Meets.rules.next (.zero hparameters) fun _ => hfunction
    exact Check.Meets.inScope .function hbody nofun
  members_function _ := rfl
  loop_nested hx := .nested 1 0 hx
  switch_nested hx := .nested 0 1 hx
  illegalJump statement position _ _ _ _ hx hy := by
    rw [show definitionWeights.jump _ = 0 from rfl, zero_add]
    exact .illegalJump statement position hx hy
  functionDefinition _ hx := hx.functionDefinition

/-- A check starts in the global scope. -/
theorem SymbolTable.cls?_populated (config : Config) : (populated config).current.cls? = none := by
  have hscopes := scopes_populated config
  simp only [scopes, frames, List.map_cons, List.cons.injEq, Prod.mk.injEq] at hscopes
  simp [Frame.cls?, hscopes.1.1]

/-- If a tree defines a name more than once in one scope that is no class body, then a redeclaration
of this name is among the diagnostics, whatever the signatures are. -/
theorem redeclared_of_typeCheck {root : Node} {config : Config} {o : Outcome} {f : String}
    (hrun : typeCheck root config = .ok o) (hlimit : config.maxDiagnostics = none)
    (hf : f ∈ root.redefined) : ∃ d ∈ o.diagnostics, d.problem = .redeclaration f := by
  rw [typeCheck_eq] at hrun
  cases hcheck : root.check (.start config) with
  | error e s => simp [hcheck] at hrun
  | ok ty s =>
    have hmet : (Checker.start config).Meets [] (definitionWeights.weight root) 0 s :=
      definitionTally.check trivial root [] _ ty s hlimit List.nil_prefix hcheck
    have hcls : (Checker.start config).symbols.current.cls? = none :=
      SymbolTable.cls?_populated config
    obtain ⟨after, hafter, d, hd, hproblem⟩ := hmet.redeclared hcls hf
    rw [hcheck] at hrun
    cases hrun
    exact ⟨d, by rw [Checker.outcome, hafter]; exact hd, hproblem⟩

/-- A function without parameters. -/
def plainFunction (result : TokenKind) (name : String) (body : Option Node) : Node :=
  { rule := .functionDef
    children := [word result "result", tree .functionDeclarator [word .identifier name, none],
      tree .compound [body]] }

/-- A class with the given members. -/
def plainClass (members : Node) : Node :=
  { rule := .classSpec
    children := [tree .classHead [word .structKey "struct", word .identifier "S"], some members] }

/-- Second definitions in the global scope and in the body of a function of a class:
`void f() {} struct S { void g() { void h() {} int h() {} } }; void f() {}`. -/
def redefiningProgram : Node :=
  let seq (first second : Node) : Node :=
    { rule := .declSeq, children := [some first, some second] }
  let inner := seq (plainFunction .voidType "h" none) (plainFunction .intType "h" none)
  let statements : Node := { rule := .statementSeq, children := [some inner] }
  let method := plainFunction .voidType "g" (some statements)
  let cls : Node := { rule := .simpleDecl, children := [some (plainClass method)] }
  let f := plainFunction .voidType "f" none
  { rule := .program, children := [some (seq (seq f cls) f)] }

/-- Both names are reported. -/
theorem redeclared_redefiningProgram :
    redefiningProgram.redefined = {"f", "f", "h", "h"} ∧
      ∃ o, typeCheck redefiningProgram .bare = .ok o ∧
        (∃ d ∈ o.diagnostics, d.problem = .redeclaration "f") ∧
        ∃ d ∈ o.diagnostics, d.problem = .redeclaration "h" := by
  have hredefined : redefiningProgram.redefined = {"f", "f", "h", "h"} := by decide +kernel
  have hok : (typeCheck redefiningProgram .bare).isOk = true := by decide +kernel
  cases h : typeCheck redefiningProgram .bare with
  | error e =>
    rw [h] at hok
    cases hok
  | ok o =>
    exact ⟨hredefined, o, rfl, redeclared_of_typeCheck h rfl (by simp [hredefined]),
      redeclared_of_typeCheck h rfl (by simp [hredefined])⟩

/-- A class that defines one function twice: `struct S { void f() {} void f() {} };`. -/
def repeatingClass : Node :=
  let method := plainFunction .voidType "f" none
  let second : Node := { rule := .memberSpec, children := [some method, none] }
  plainClass { rule := .memberSpec, children := [some method, some second] }

/-- The warnings in the log. -/
def Checker.warnings (s : Checker) : List String :=
  (s.log.filter (·.level = .warn)).map Event.message

/-- The number of problems that a step reports, and the warnings that it leaves in the log. -/
def Check.findings {α : Type} (x : Check α) : Check (Nat × List String) := do
  let _ ← x
  let s ← get
  return (s.diagnostics.length, s.warnings)

/-- The members of a class are an exception: a second body with the same signature is not reported.
It is refused, because the function that it belongs to has a body, but only the log tells so. -/
theorem unreported_repeatingClass :
    ∃ ty s, repeatingClass.check (.start .bare) = .ok ty s ∧
      typeCheck repeatingClass .bare = .ok (s.outcome ty) ∧ s.diagnostics = [] ∧
      s.warnings = ["f already has a body"] := by
  have hfindings : repeatingClass.check.findings.run' (.start .bare) =
      some (0, ["f already has a body"]) := by decide +kernel
  unfold EStateM.run' EStateM.run Check.findings at hfindings
  cases hrun : repeatingClass.check (.start .bare) with
  | error e s =>
    rw [Check.bind_error hrun] at hfindings
    cases hfindings
  | ok ty s =>
    rw [Check.bind_ok hrun] at hfindings
    obtain ⟨hdiagnostics, hwarnings⟩ := Prod.mk.inj (Option.some.inj hfindings)
    refine ⟨ty, s, rfl, ?_, List.eq_nil_of_length_eq_zero hdiagnostics, hwarnings⟩
    rw [typeCheck_eq, hrun]

end CWithClasses
