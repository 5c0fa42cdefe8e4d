import CWithClasses.Proofs.Standing
import CWithClasses.Proofs.Upkeep.Reached
import Mathlib.Algebra.GroupWithZero.Nat

/-!
# Declaring one function many times

A scope that is no class body binds a function to the type that its first declaration gives it.
Every further declaration is compared with that type: a prototype is reported if its signature is
another one, and so is a definition, which is also reported if the function has a body already. The
function has a body as soon as one definition has the signature of the first declaration; bodies of
the others are checked and go.

Nothing else gives the function a body: nothing that is bound in an inner scope or in a class is
that function. What the declarators themselves contain must not declare anything, though. A class in
an array dimension of the first declarator may take the name of the function away.
-/

namespace CWithClasses

open Check
open Node (word tree)

/-! ### Declarations of a function -/

/-- Declarations of functions: some prototypes behind common specifiers, each perhaps with an
initializer, or a definition. -/
inductive FunctionDecl where
  | prototypes (specifiers : Node) (declarators : List (Node × Option Node))
  | definition (n : Node)

/-- Whether the specifiers and the declarator of a function definition are without classes. -/
def Node.isPlainDefinition (n : Node) : Bool :=
  (n.child? 0).all Node.isClassFree && (n.rule != .functionDef || (n.child? 1).all Node.isClassFree)

/-- What is found out about one declarator. -/
structure Finding where
  /-- The type that the declarator declares. -/
  ty : Ty
  isDefinition : Bool
  /-- The number of redeclarations that are reported at the declarator. -/
  redeclarations : Nat
  /-- What the name is bound to in the end. -/
  bound : Option Ty

/-- Whether a declarator defines a function of the given type. -/
def Finding.defines (ty : Ty) (r : Finding) : Bool := r.isDefinition && sameSignature ty r.ty

/-- The type that a declarator would declare in the state. -/
def Checker.declaredTy (s : Checker) (read : Check Declared) : Ty :=
  match read s with
  | .ok d _ => d.ty
  | .error _ _ => .unknown

/-- Declares a function and finishes its declaration, and tells what has been found out. -/
def Check.observing {α : Type} (f : String) (isDefinition : Bool) (read : Check Declared)
    (declare : Check α) (finish : α → Check Unit) : Check Finding := do
  let before ← get
  let a ← declare
  let after ← get
  finish a
  return {
    ty := before.declaredTy read
    isDefinition
    redeclarations := after.redeclarations - before.redeclarations
    bound := (← symbols).lookupLocal? f }

/-- To tell what has been found out changes nothing. -/
theorem Check.observing_eq {α : Type} (f : String) (isDefinition : Bool) (read : Check Declared)
    (declare : Check α) (finish : α → Check Unit) :
    (do let _ ← observing f isDefinition read declare finish) = declare >>= finish := by
  have hget : ∀ x : Check Unit, (do let _ ← get; x) = x := fun _ => rfl
  have hsymbols : ∀ x : Check Unit, (do x; let _ ← symbols) = x := fun x => bind_pure_unit
  simp only [observing, bind_assoc, pure_bind, hget, hsymbols]

/-- What has been found out, from the state in between. -/
theorem Check.exists_of_observing {α : Type} {f : String} {isDefinition : Bool}
    {read : Check Declared}
    {declare : Check α} {finish : α → Check Unit} {r : Finding} {s s' : Checker}
    (h : observing f isDefinition read declare finish s = .ok r s') :
    ∃ a s₁, declare s = .ok a s₁ ∧ finish a s₁ = .ok () s' ∧
      r = { ty := s.declaredTy read, isDefinition, bound := s'.symbols.lookupLocal? f,
            redeclarations := s₁.redeclarations - s.redeclarations } := by
  obtain ⟨_, _, hbefore, h⟩ := exists_of_bind h
  cases hbefore
  obtain ⟨a, s₁, hdeclare, h⟩ := exists_of_bind h
  obtain ⟨_, _, hafter, h⟩ := exists_of_bind h
  cases hafter
  obtain ⟨_, s₂, hfinish, h⟩ := exists_of_bind h
  cases h
  exact ⟨a, s₁, hdeclare, hfinish, rfl⟩

/-- Steps whose results do not matter may be told with their results. -/
theorem Check.forM_eq_mapM {α β : Type} {x : α → Check Unit} {y : α → Check β}
    (h : ∀ a, x a = (do let _ ← y a)) (l : List α) : l.forM x = (do let _ ← l.mapM y) := by
  induction l with
  | nil => rfl
  | cons a rest ih =>
    change (x a >>= fun _ => rest.forM x) = _
    rw [ih, h a, List.mapM_cons]
    simp only [bind_assoc, pure_bind]

namespace FunctionDecl

/-- Checks a prototype. -/
def checkPrototype (base : Ty) (d : Node × Option Node) : Check Ty :=
  d.1.phrase.initDeclarator base (d.2.map Node.phrase)

/-- Checks a declaration. -/
def check : FunctionDecl → Check Unit
  | prototypes specifiers declarators => do
      let base ← specifiers.phrase.specifiers
      declarators.forM fun d => do let _ ← checkPrototype base d
  | definition n => n.checkFunctionDefinition

/-- Checks a prototype, and tells what is found out. -/
def observePrototype (f : String) (base : Ty) (d : Node × Option Node) : Check Finding :=
  observing f false (d.1.checkDeclarator base) (checkPrototype base d) fun _ => return

/-- Checks a function definition, and tells what is found out. -/
def observeDefinition (f : String) (n : Node) : Check Finding :=
  observing f true n.clause.readDefinition n.clause.declareFunctionDef FunctionBody.check

/-- Checks a declaration, and tells what is found out about each of its declarators. -/
def observe (f : String) : FunctionDecl → Check (List Finding)
  | prototypes specifiers declarators => do
      let base ← specifiers.phrase.specifiers
      declarators.mapM (observePrototype f base)
  | definition n => return [← observeDefinition f n]

/-- Checks declarations one after another, and tells what is found out about each declarator. -/
def observeAll (f : String) (ds : List FunctionDecl) : Check (List Finding) :=
  return (← ds.mapM (observe f)).flatten

/-- Each declarator has the plain name, and neither specifiers nor declarators contain classes. -/
def Declares (f : String) : FunctionDecl → Prop
  | prototypes specifiers declarators => specifiers.isClassFree = true ∧
      ∀ d ∈ declarators, d.1.declaredName? = some f ∧ d.1.isClassFree = true
  | definition n => n.definedName? = some f ∧ n.isPlainDefinition = true

/-- Observing a declaration changes nothing about its check. -/
theorem check_eq (f : String) (d : FunctionDecl) : d.check = (do let _ ← d.observe f) := by
  cases d with
  | prototypes specifiers declarators =>
    have hone : ∀ base d, (do let _ ← checkPrototype base d) =
        (do let _ ← observePrototype f base d) := fun base d =>
      (observing_eq f false (d.1.checkDeclarator base) (checkPrototype base d) _).symm
    have hall : ∀ base, (declarators.forM fun d => do let _ ← checkPrototype base d) =
        (do let _ ← declarators.mapM (observePrototype f base)) := fun base =>
      forM_eq_mapM (hone base) declarators
    simp only [check, observe, bind_assoc, hall]
  | definition n =>
    have hsame := observing_eq f true n.clause.readDefinition n.clause.declareFunctionDef
      FunctionBody.check
    simp only [check, observe, bind_assoc, pure_bind]
    rw [observeDefinition, hsame, Node.checkFunctionDefinition, n.phrase_clause]
    rfl

/-- Declarations are checked as they are observed. -/
theorem forM_check_iff {f : String} {ds : List FunctionDecl} {s s' : Checker} :
    ds.forM check s = .ok () s' ↔ ∃ findings, observeAll f ds s = .ok findings s' := by
  rw [forM_eq_mapM (check_eq f)]
  refine ⟨fun h => ?_, fun ⟨findings, h⟩ => ?_⟩
  · obtain ⟨found, s₁, hfound, hret⟩ := exists_of_bind h
    cases hret
    exact ⟨found.flatten, bind_ok hfound _⟩
  · obtain ⟨found, s₁, hfound, hret⟩ := exists_of_bind h
    cases hret
    exact bind_ok hfound _

end FunctionDecl

/-! ### A declarator is read -/

section Reading

variable {F : Nat → Prop} {p : Prop} {n : Node} {f : String} {s s' : Checker}

/-- A declarator without classes is only read. -/
theorem Node.peruses_declarator (h : n.isClassFree = true) {base : Ty} (hbase : p → base.Over F) :
    (n.checkDeclarator base).Peruses F p fun d => d.ty.Over F := by
  have hread := (n.perused h (F := F)).self.declarator p base hbase
  exact hread.conseq id fun _ _ hd => hd.permitted

/-- The parts of a definition that are read before its body are without classes. -/
theorem Node.functionParts_perused (h : n.isPlainDefinition = true) :
    n.clause.functionParts.Yields fun parts =>
      (∀ q, parts.1 = some q → (perusalLogic F).Obeys q) ∧ (perusalLogic F).Obeys parts.2.1 := by
  unfold isPlainDefinition at h
  rw [Bool.and_eq_true, Option.all_eq_true, Bool.or_eq_true, bne_iff_ne, Option.all_eq_true] at h
  obtain ⟨hzero, hone⟩ := h
  have hpart : ∀ i, (∀ m, n.child? i = some m → m.isClassFree = true) → ∀ q,
      n.clause.part? i = some q → (perusalLogic F).Obeys q := by
    intro i hfree q hq
    obtain ⟨m, hm, rfl⟩ := n.child_of_part? hq
    exact m.perused (hfree m hm)
  unfold Clause.functionParts
  split
  next hrule =>
    refine (Yields.part _ 1).bind fun d hd => Yields.next fun body => .ret ⟨hpart 0 hzero, ?_⟩
    exact hpart 1 (hone.resolve_left fun hne => hne hrule) d hd
  next =>
    refine (Yields.part _ 0).bind fun d hd => Yields.next fun init => Yields.next fun body => ?_
    exact .ret ⟨Phrase.throughout_none, hpart 0 hzero d hd⟩
  next => exact .fault _

/-- Taking the parts of a definition changes nothing. -/
theorem Clause.peruses_functionParts (c : Clause) :
    c.functionParts.Peruses F p fun _ => True := by
  let L := perusalLogic F
  unfold functionParts
  split
  · exact L.part fun _ _ => L.part fun _ _ => L.ret _ fun _ => trivial
  · exact L.part fun _ _ => L.part fun _ _ => L.part fun _ _ => L.ret _ fun _ => trivial
  · exact L.fault _

/-- The declarator of a definition without classes is only read. -/
theorem Node.peruses_definition (h : n.isPlainDefinition = true) :
    n.clause.readDefinition.Peruses F p fun d => d.ty.Over F := by
  let L := perusalLogic F
  unfold Clause.readDefinition
  refine L.seq (functionParts_perused (F := F) h) n.clause.peruses_functionParts ?_
  rintro ⟨specifiers, declarator, init, body⟩ ⟨hspecifiers, hdeclarator⟩
  refine L.bind (ReadingLogic.checkSpecifiers hspecifiers) fun base => ?_
  exact L.post (hdeclarator.self.declarator _ base And.right) fun _ _ hd => hd.permitted

/-- What a declarator that has been read declares. -/
theorem Checker.declaredTy_of_ok {read : Check Declared} {d : Declared} (h : read s = .ok d s') :
    s.declaredTy read = d.ty := by
  unfold declaredTy
  rw [h]

/-- The check of a prototype reads the declarator and declares the function. -/
theorem FunctionDecl.exists_of_checkPrototype {base ty : Ty} {d : Node × Option Node}
    (h : checkPrototype base d s = .ok ty s') (hname : d.1.declaredName? = some f)
    (hfunction : (s.declaredTy (d.1.checkDeclarator base)).function?.isSome) :
    ∃ declared s₁ position, d.1.checkDeclarator base s = .ok declared s₁ ∧
      declareFunction { name := f, position } declared.ty s₁ = .ok ty s' := by
  unfold checkPrototype Phrase.initDeclarator at h
  obtain ⟨declared, s₁, hread, h⟩ := exists_of_bind h
  replace hread : d.1.checkDeclarator base s = .ok declared s₁ := hread
  rw [Checker.declaredTy_of_ok hread] at hfunction
  obtain ⟨position, hdeclared⟩ := d.1.yields_declaredName base s declared s₁ hread f hname
  rw [hdeclared] at h
  dsimp only at h
  rw [if_pos hfunction] at h
  exact ⟨declared, s₁, position, hread, h⟩

end Reading

/-! ### A declarator is checked -/

/-- What is found out about a declarator that is not the first one: the name keeps its meaning, and
a redeclaration is reported unless the signature is the same and a definition finds no body. -/
structure Finding.Follows (ty : Ty) (defined : Bool) (r : Finding) : Prop where
  bound : r.bound = some ty
  redeclarations : r.redeclarations =
    if sameSignature ty r.ty then (r.isDefinition && defined).toNat else 1

/-- What is found out about the first declarator: the name means what it declares. -/
structure Finding.Opens (r : Finding) : Prop where
  bound : r.bound = some r.ty
  redeclarations : r.redeclarations = 0

section Checking

variable {f : String} {base ty : Ty} {g : FunctionTy} {first : Nat} {defined : Bool} {n : Node}
  {d : Node × Option Node} {r : Finding} {b : FunctionBody} {s s₁ s' : Checker}

/-- The body of a definition is made of sound parts, and its check keeps what is bound. -/
theorem Clause.keeps_body (hb : n.clause.declareFunctionDef s = .ok b s₁)
    (h : b.check s₁ = .ok () s') : bindingsLogic.toStepLogic.Body b ∧ s₁.Keeps [] s' := by
  let L := bindingsLogic.toStepLogic
  have hsound : L.Body b := L.declareFunctionDef_yields (L.anyFunctionParts trivial n) s b s₁ hb
  have hkeeps : b.check.Keeps := L.checkBody (p := False) hsound nofun
  exact ⟨hsound, hkeeps.of_ok h⟩

/-- What a definition leaves to be checked keeps to the rules for functions that are given. -/
theorem Clause.guarded_body (hb : n.clause.declareFunctionDef s = .ok b s₁) {G : TypeGuard}
    (hG : G.Open) : (guardedLogic hG fun _ => True).Body b :=
  DeclaringLogic.declareFunctionDef_yields
    (Checker.Leads.upholds_clause hG fun _ _ => trivial) s b s₁ hb

/-- The body that a definition attaches to the function of its name. -/
theorem Checker.Has.stands_body (hs : s₁.Has f (some b.ty)) (hfunction : b.ty.function? = some g)
    (hb : n.clause.declareFunctionDef s = .ok b s₁) (h : b.check s₁ = .ok () s')
    (hcls : b.cls = none) (hattach : b.attach = true) : s'.Stands f b.ty g true := by
  obtain ⟨hsound, hkeeps⟩ := Clause.keeps_body hb h
  have hdefines := FunctionBody.defines_check h hsound hattach hcls hs.lookup
  exact .of_defines (hkeeps.has hs) hfunction hdefines

/-- The body that a definition does not attach to anything. A function that the name is bound to
keeps a body that it has, and gets none. -/
theorem Checker.Owns.refused_body (hs : s₁.Owns f ty)
    (hb : n.clause.declareFunctionDef s = .ok b s₁)
    (h : b.check s₁ = .ok () s') (hcls : b.cls = none) (hattach : b.attach = false) :
    s'.Owns f ty ∧ s'.symbols.isDefined ty = s₁.symbols.isDefined ty := by
  obtain ⟨-, hkeeps⟩ := Clause.keeps_body hb h
  have hhas := hkeeps.has hs.toHas
  cases hdefined : s₁.symbols.isDefined ty with
  | true =>
    have hstill := hkeeps.symbols.defined ty (SymbolTable.binds_current hs.lookup) hdefined
    exact ⟨.of_isDefined hhas hstill, hstill⟩
  | false =>
    cases hg : ty.asFunction? with
    | none =>
      refine ⟨⟨hhas, fun g hg' => ?_⟩, ?_⟩
      · cases hg.symm.trans hg'
      · rw [SymbolTable.isDefined, hg]
    | some g =>
      obtain ⟨hspares, hsize⟩ := hs.pending g hg hdefined
      obtain ⟨hspares', hsize'⟩ := FunctionBody.spares_check h hspares hsize
        (Clause.guarded_body hb _) (n.yields_agrees s b s₁ hb) hcls hattach
      exact Owns.of_spares hhas hg hspares' hsize'

/-- The function of the name stands as before after a definition that is not attached. -/
theorem Checker.Stands.refused_body (hs : s₁.Stands f ty g defined)
    (hb : n.clause.declareFunctionDef s = .ok b s₁) (h : b.check s₁ = .ok () s')
    (hcls : b.cls = none) (hattach : b.attach = false) : s'.Stands f ty g defined := by
  obtain ⟨howns, hdefined⟩ := hs.toOwns.refused_body hb h hcls hattach
  exact ⟨howns, hs.function, hdefined.trans hs.isDefined⟩

/-- A prototype of a function that is declared. -/
theorem Checker.Stands.observePrototype (hs : s.Stands f ty g defined)
    (hname : d.1.declaredName? = some f) (hfree : d.1.isClassFree = true)
    (h : FunctionDecl.observePrototype f base d s = .ok r s') (hfunction : r.ty.function?.isSome) :
    r.Follows ty defined ∧ s'.Stands f ty g (defined || r.defines ty) := by
  obtain ⟨a, s₁, hcheck, hfinish, rfl⟩ := exists_of_observing h
  cases hfinish
  obtain ⟨declared, s₀, position, hread, hdeclare⟩ :=
    FunctionDecl.exists_of_checkPrototype hcheck hname hfunction
  have hreads := (Node.peruses_declarator (F := fun _ => True) hfree False.elim).reads s _ s₀ hread
  have hs₀ := hs.reads hreads
  have hafter := declareFunction_bound hs₀.toHas hdeclare
  rw [Finding.defines, Bool.false_and, Bool.or_false]
  by_cases hsame : sameSignature ty declared.ty = true
  · rw [if_pos hsame] at hafter
    subst hafter
    refine ⟨⟨hs₀.toHas.lookupLocal?, ?_⟩, hs₀⟩
    simp [declaredTy_of_ok hread, hsame, hreads.redeclarations]
  · rw [if_neg hsame] at hafter
    subst hafter
    have hs' := hs₀.reported ⟨.redeclaration f, position⟩
    refine ⟨⟨hs'.toHas.lookupLocal?, ?_⟩, hs'⟩
    simp [declaredTy_of_ok hread, hsame, redeclarations_reported hs₀.limit, hreads.redeclarations]

/-- A definition of a function that is declared. -/
theorem Checker.Stands.observeDefinition (hs : s.Stands f ty g defined)
    (hname : n.definedName? = some f) (hplain : n.isPlainDefinition = true)
    (h : FunctionDecl.observeDefinition f n s = .ok r s') :
    r.Follows ty defined ∧ s'.Stands f ty g (defined || r.defines ty) := by
  obtain ⟨b, s₁, hb, hcheck, rfl⟩ := exists_of_observing h
  obtain ⟨declared, s₀, position, definition, hread, hdefine, -, hty, hcls, hattach, -⟩ :=
    Clause.exists_of_definedName hb hname
  have hreads :=
    (Node.peruses_definition (F := fun _ => True) (p := True) hplain).reads s _ s₀ hread
  have hs₀ := hs.reads hreads
  have hcases := defineLocal_bound hs₀.toHas hdefine
  rw [hs₀.isDefined] at hcases
  rw [Finding.defines, Bool.true_and, declaredTy_of_ok hread]
  split at hcases
  next hfirst =>
    obtain ⟨rfl, rfl⟩ := hcases
    obtain ⟨hsame, rfl⟩ : sameSignature ty declared.ty = true ∧ defined = false := by
      simpa using hfirst
    subst hty
    have hs' := hs₀.toHas.stands_body hs.function hb hcheck hcls hattach
    refine ⟨⟨hs'.toHas.lookupLocal?, ?_⟩, by rwa [hsame]⟩
    simp [hsame, hreads.redeclarations]
  next hagain =>
    obtain ⟨rfl, rfl⟩ := hcases
    have hreported := hs₀.reported ⟨.redeclaration f, position⟩
    have hs' := hreported.refused_body hb hcheck hcls hattach
    have hcounted := redeclarations_reported hs₀.limit f position
    rw [hreads.redeclarations] at hcounted
    cases hsame : sameSignature ty declared.ty with
    | true =>
      obtain rfl : defined = true := by simpa [hsame] using hagain
      exact ⟨⟨hs'.toHas.lookupLocal?, by simp [hsame, hcounted]⟩, hs'⟩
    | false =>
      rw [Bool.or_false]
      exact ⟨⟨hs'.toHas.lookupLocal?, by simp [hsame, hcounted]⟩, hs'⟩

/-- What a function declares that is introduced while the functions from a number on are spared. -/
theorem Checker.Vacant.stands (hs : s.Vacant f first) (hintroduces : s.Introduces f ty s')
    (hfunction : ty.function? = some g)
    (hover : ty.Over fun i => first ≤ i ∧ i < s.symbols.bodies.size) : s'.Stands f ty g false := by
  obtain ⟨hfirst, hsize⟩ := (hover.function? hfunction).1
  have hspares : s.symbols.Spares (· ≠ g.id) := hs.spares.mono fun i hi => by omega
  refine .of_spares hintroduces.has hfunction ?_ ?_
  · exact hspares.of_eq hintroduces.classes hintroduces.bodies
  · rwa [hintroduces.bodies]

/-- A prototype that is the first declaration of a function. -/
theorem Checker.Vacant.observePrototype (hs : s.Vacant f first)
    (hbase : base.Over fun i => first ≤ i ∧ i < s.symbols.bodies.size)
    (hname : d.1.declaredName? = some f) (hfree : d.1.isClassFree = true)
    (h : FunctionDecl.observePrototype f base d s = .ok r s') (hfunction : r.ty.function?.isSome) :
    r.Opens ∧ ∃ g, s'.Stands f r.ty g r.isDefinition := by
  obtain ⟨a, s₁, hcheck, hfinish, rfl⟩ := exists_of_observing h
  cases hfinish
  obtain ⟨declared, s₀, position, hread, hdeclare⟩ :=
    FunctionDecl.exists_of_checkPrototype hcheck hname hfunction
  rw [declaredTy_of_ok hread] at hfunction
  obtain ⟨g, hg⟩ := Option.isSome_iff_exists.mp hfunction
  let made : Nat → Prop := fun i => first ≤ i ∧ i < s₀.symbols.bodies.size
  have hreads := (Node.peruses_declarator (F := made) hfree False.elim).reads s _ s₀ hread
  have hover : declared.ty.Over made := by
    refine (Node.peruses_declarator (p := True) hfree fun _ i hi => ?_).result trivial s
      _ s₀ hread ?_
    · exact ⟨(hbase i hi).1, (hbase i hi).2.trans_le hreads.size_le⟩
    · exact fun i hi hlt => ⟨hs.size.trans hi, hlt⟩
  have hs₀ := hreads.vacant hs
  obtain ⟨rfl, hintroduces⟩ := declareFunction_vacant hs₀.toHas hdeclare
  rw [declaredTy_of_ok hread]
  refine ⟨⟨hintroduces.has.lookupLocal?, ?_⟩, g, hs₀.stands hintroduces hg hover⟩
  simp [hintroduces.redeclarations, hreads.redeclarations]

/-- A definition that is the first declaration of a function. -/
theorem Checker.Vacant.observeDefinition (hs : s.Vacant f first) (hname : n.definedName? = some f)
    (hplain : n.isPlainDefinition = true)
    (h : FunctionDecl.observeDefinition f n s = .ok r s') :
    r.Opens ∧ ∃ g, s'.Stands f r.ty g r.isDefinition := by
  obtain ⟨b, s₁, hb, hcheck, rfl⟩ := exists_of_observing h
  obtain ⟨declared, s₀, position, definition, hread, hdefine, hfunction, hty, hcls, hattach, -⟩ :=
    Clause.exists_of_definedName hb hname
  obtain ⟨g, hg⟩ := Option.isSome_iff_exists.mp hfunction
  have hreads :=
    (Node.peruses_definition (F := fun _ => True) (p := True) hplain).reads s _ s₀ hread
  obtain ⟨rfl, hintroduces⟩ := defineLocal_vacant (hreads.has hs.toHas) hdefine
  replace hty : b.ty = declared.ty := hty
  rw [← hty] at hg hintroduces
  have hs' := hintroduces.has.stands_body hg hb hcheck hcls hattach
  rw [declaredTy_of_ok hread, ← hty]
  refine ⟨⟨hs'.toHas.lookupLocal?, ?_⟩, g, hs'⟩
  simp [hintroduces.redeclarations, hreads.redeclarations]

end Checking

/-! ### Many declarators are checked -/

/-- What has been found out about the declarators of a function, and how it stands afterwards. -/
structure Checker.Tells (f : String) (ty : Ty) (rs : List Finding) (s : Checker) : Prop where
  bound : ∀ r ∈ rs, r.bound = some ty
  redeclarations : (rs.map (·.redeclarations)).sum =
    rs.countP (fun r => !sameSignature ty r.ty) + (rs.countP (·.defines ty) - 1)
  stands : ∃ g, s.Stands f ty g (rs.any (·.defines ty))

/-- The state after some declarators. If there was one, then its type is that of the function. -/
def Checker.Found (f : String) (first : Nat) (s : Checker) : List Finding → Prop
  | [] => s.Vacant f first
  | r :: rest => s.Tells f r.ty (r :: rest)

/-- A function has its own signature. -/
theorem sameSignature_self {ty : Ty} (h : ty.function?.isSome) : sameSignature ty ty = true := by
  unfold Ty.function? at h
  split at h
  · rw [sameSignature, sameType_refl, (sameTypes_iff _ _).mpr rfl]
    rfl
  · cases h

section Running

variable {f : String} {base ty : Ty} {g : FunctionTy} {first : Nat} {n : Node}
  {d : Node × Option Node} {r : Finding} {rs new : List Finding} {s s' : Checker}

/-- The first declarator. -/
theorem Finding.Opens.tells (h : r.Opens) (hs : s.Stands f r.ty g r.isDefinition) :
    s.Tells f r.ty [r] := by
  have hsame : sameSignature r.ty r.ty = true := sameSignature_self (by rw [hs.function]; rfl)
  refine ⟨fun r' hr' => ?_, ?_, g, ?_⟩
  · rw [List.mem_singleton.mp hr']
    exact h.bound
  · cases hdefinition : r.isDefinition <;> simp [defines, h.redeclarations, hsame, hdefinition]
  · simpa [defines, hsame] using hs

/-- A definition is one too many if another one came before. -/
theorem Finding.toNat_any_defines (ty : Ty) (rs : List Finding) :
    (rs.any (·.defines ty)).toNat = min 1 (rs.countP (·.defines ty)) := by
  cases hbefore : rs.any (·.defines ty) with
  | true =>
    have hpos : 0 < rs.countP (·.defines ty) :=
      List.countP_pos_iff.mpr (List.any_eq_true.mp hbefore)
    exact (Nat.min_eq_left hpos).symm
  | false =>
    have hzero : rs.countP (·.defines ty) = 0 :=
      List.countP_eq_zero.mpr (List.any_eq_false.mp hbefore)
    rw [hzero]
    rfl

/-- The number of redeclarations with one more declarator. -/
theorem Finding.Follows.total (hr : r.Follows ty (rs.any (·.defines ty)))
    (hrs : (rs.map (·.redeclarations)).sum =
      rs.countP (fun r => !sameSignature ty r.ty) + (rs.countP (·.defines ty) - 1)) :
    ((rs ++ [r]).map (·.redeclarations)).sum =
      (rs ++ [r]).countP (fun r => !sameSignature ty r.ty) +
        ((rs ++ [r]).countP (·.defines ty) - 1) := by
  have hsum : ((rs ++ [r]).map (·.redeclarations)).sum =
      (rs.map (·.redeclarations)).sum + r.redeclarations := by
    simp
  have hone : ∀ p : Finding → Bool, [r].countP p = (p r).toNat := by
    intro p
    cases hp : p r <;> simp [hp]
  have hdefines : r.defines ty = (r.isDefinition && sameSignature ty r.ty) := rfl
  rw [hsum, hrs, hr.redeclarations, List.countP_append, List.countP_append, hone, hone, hdefines]
  cases sameSignature ty r.ty with
  | false =>
    rw [Bool.and_false]
    simp only [Bool.false_eq_true, if_false, Bool.not_false, Bool.toNat_true, Bool.toNat_false]
    omega
  | true =>
    rw [Bool.and_true, if_pos rfl]
    cases r.isDefinition with
    | false => rfl
    | true =>
      rw [Bool.true_and, toNat_any_defines]
      simp only [Bool.not_true, Bool.toNat_true, Bool.toNat_false]
      omega

/-- One more declarator. -/
theorem Checker.Tells.add (hs : s.Tells f ty rs) (hr : r.Follows ty (rs.any (·.defines ty)))
    (hs' : s'.Stands f ty g (rs.any (·.defines ty) || r.defines ty)) :
    s'.Tells f ty (rs ++ [r]) := by
  refine ⟨fun r' hr' => ?_, hr.total hs.redeclarations, g, ?_⟩
  · rcases List.mem_append.mp hr' with hold | hnew
    · exact hs.bound r' hold
    · rw [List.mem_singleton.mp hnew]
      exact hr.bound
  · simpa using hs'

namespace Checker.Found

/-- Reading changes nothing about what has been found out. -/
theorem reads (hs : s.Found f first rs) (h : s.Reads s') : s'.Found f first rs := by
  cases rs with
  | nil => exact h.vacant hs
  | cons r rest =>
    obtain ⟨hbound, hredeclarations, g, hstands⟩ := hs
    exact ⟨hbound, hredeclarations, g, hstands.reads h⟩

/-- One more prototype. What its specifiers mention matters only for the first declarator. -/
theorem prototype (hs : s.Found f first rs)
    (hbase : rs = [] → base.Over fun i => first ≤ i ∧ i < s.symbols.bodies.size)
    (hd : d.1.declaredName? = some f ∧ d.1.isClassFree = true)
    (h : FunctionDecl.observePrototype f base d s = .ok r s') (hfunction : r.ty.function?.isSome) :
    s'.Found f first (rs ++ [r]) := by
  cases rs with
  | nil =>
    obtain ⟨hopens, g, hstands⟩ := hs.observePrototype (hbase rfl) hd.1 hd.2 h hfunction
    exact hopens.tells hstands
  | cons r' rest =>
    obtain ⟨g, hstands⟩ := hs.stands
    obtain ⟨hfollows, hstands'⟩ := hstands.observePrototype hd.1 hd.2 h hfunction
    exact hs.add hfollows hstands'

/-- One more definition. -/
theorem definition (hs : s.Found f first rs) (hname : n.definedName? = some f)
    (hplain : n.isPlainDefinition = true)
    (h : FunctionDecl.observeDefinition f n s = .ok r s') : s'.Found f first (rs ++ [r]) := by
  cases rs with
  | nil =>
    obtain ⟨hopens, g, hstands⟩ := hs.observeDefinition hname hplain h
    exact hopens.tells hstands
  | cons r' rest =>
    obtain ⟨g, hstands⟩ := hs.stands
    obtain ⟨hfollows, hstands'⟩ := hstands.observeDefinition hname hplain h
    exact hs.add hfollows hstands'

/-- The prototypes of one declaration. -/
theorem prototypes {declarators : List (Node × Option Node)} (hs : s.Found f first rs)
    (hbase : rs = [] → base.Over fun i => first ≤ i ∧ i < s.symbols.bodies.size)
    (hd : ∀ d ∈ declarators, d.1.declaredName? = some f ∧ d.1.isClassFree = true)
    (h : declarators.mapM (FunctionDecl.observePrototype f base) s = .ok new s')
    (hfunction : ∀ r ∈ new, r.ty.function?.isSome) : s'.Found f first (rs ++ new) := by
  induction declarators generalizing rs new s with
  | nil =>
    rw [List.mapM_nil] at h
    cases h
    rwa [List.append_nil]
  | cons d rest ih =>
    rw [List.mapM_cons] at h
    obtain ⟨r, s₁, hr, h⟩ := exists_of_bind h
    obtain ⟨more, s₂, hmore, hret⟩ := exists_of_bind h
    cases hret
    rw [List.forall_mem_cons] at hd hfunction
    have hs₁ := hs.prototype hbase hd.1 hr hfunction.1
    have hnext := ih hs₁ (fun hnil => by simp at hnil) hd.2 hmore hfunction.2
    rwa [List.append_assoc] at hnext

/-- One more declaration. -/
theorem observe {d : FunctionDecl} (hs : s.Found f first rs) (hd : d.Declares f)
    (h : d.observe f s = .ok new s') (hfunction : ∀ r ∈ new, r.ty.function?.isSome) :
    s'.Found f first (rs ++ new) := by
  cases d with
  | prototypes specifiers declarators =>
    obtain ⟨hfree, hd⟩ := hd
    obtain ⟨base, s₁, hspecifiers, h⟩ := exists_of_bind h
    let made : Nat → Prop := fun i => first ≤ i ∧ i < s₁.symbols.bodies.size
    have hread : specifiers.phrase.specifiers.Peruses made True (Ty.Over made) :=
      ReadingLogic.specifiers (L := perusalLogic made) (Node.perused hfree)
    have hbase : rs = [] → base.Over made := by
      rintro rfl
      refine hread.result trivial s base s₁ hspecifiers fun i hi hlt => ⟨?_, hlt⟩
      exact hs.size.trans hi
    exact (hs.reads (hread.reads s base s₁ hspecifiers)).prototypes hbase hd h hfunction
  | definition n =>
    obtain ⟨r, s₁, hr, hret⟩ := exists_of_bind h
    cases hret
    exact hs.definition hd.1 hd.2 hr

/-- Many more declarations. -/
theorem observations {ds : List FunctionDecl} {found : List (List Finding)}
    (hs : s.Found f first rs)
    (hds : ∀ d ∈ ds, d.Declares f) (h : ds.mapM (FunctionDecl.observe f) s = .ok found s')
    (hfunction : ∀ r ∈ found.flatten, r.ty.function?.isSome) :
    s'.Found f first (rs ++ found.flatten) := by
  induction ds generalizing rs found s with
  | nil =>
    rw [List.mapM_nil] at h
    cases h
    rwa [List.flatten_nil, List.append_nil]
  | cons d rest ih =>
    rw [List.mapM_cons] at h
    obtain ⟨new, s₁, hnew, h⟩ := exists_of_bind h
    obtain ⟨more, s₂, hmore, hret⟩ := exists_of_bind h
    cases hret
    rw [List.forall_mem_cons] at hds
    rw [List.flatten_cons, List.forall_mem_append] at hfunction
    have hs₁ := hs.observe hds.1 hnew hfunction.1
    rw [List.flatten_cons, ← List.append_assoc]
    exact ih hs₁ hds.2 hmore hfunction.2

/-- All declarations, from the first one on. -/
theorem observeAll {ds : List FunctionDecl} (hs : s.Vacant f first) (hds : ∀ d ∈ ds, d.Declares f)
    (h : FunctionDecl.observeAll f ds s = .ok rs s') (hfunction : ∀ r ∈ rs, r.ty.function?.isSome) :
    s'.Found f first rs := by
  obtain ⟨found, s₁, hfound, hret⟩ := exists_of_bind h
  cases hret
  have hnone : s.Found f first [] := hs
  exact hnone.observations hds hfound hfunction

end Checker.Found

end Running

/-- A function is declared by any number of prototypes and definitions in a scope that is no class
body, in which its name was not bound. The name is bound to the type of the first declarator from
then on. A redeclaration is reported at each declarator of another signature, and at each definition
of the same signature but the first one. The function has a body in the end if and only if some
definition has its signature. -/
theorem redeclarations_of_declarations {config : Config} {f : String} {ds : List FunctionDecl}
    {s s' : Checker} (hs : s.Reached config fun _ => True) (hlimit : s.limit = none)
    (hcls : s.symbols.current.cls? = none) (hunbound : s.symbols.lookupLocal? f = none)
    (hds : ∀ d ∈ ds, d.Declares f) (hrun : ds.forM FunctionDecl.check s = .ok () s') :
    ∃ findings, FunctionDecl.observeAll f ds s = .ok findings s' ∧
      ∀ first rest, findings = first :: rest → (∀ r ∈ findings, r.ty.function?.isSome) →
        (∀ r ∈ findings, r.bound = some first.ty) ∧
        (findings.map (·.redeclarations)).sum =
          findings.countP (fun r => !sameSignature first.ty r.ty) +
            (findings.countP (·.defines first.ty) - 1) ∧
        (s'.symbols.isDefined first.ty = true ↔ ∃ r ∈ findings, r.defines first.ty = true) := by
  -- All functions so far come before those that the declarators make.
  let size := s.symbols.bodies.size
  have habides : s.symbols.Abides (· < size) fun _ => True := hs.abides fun i hi => hi
  rw [SymbolTable.lookupLocal?_eq hcls] at hunbound
  have hvacant : s.Vacant f size :=
    ⟨⟨hlimit, hcls, hunbound⟩, Nat.le_refl _, habides.upheld.spares⟩
  obtain ⟨findings, hobserve⟩ := FunctionDecl.forM_check_iff.mp hrun
  refine ⟨findings, hobserve, fun first rest hfirst hfunction => ?_⟩
  have hfound := Checker.Found.observeAll hvacant hds hobserve hfunction
  subst hfirst
  obtain ⟨hbound, hredeclarations, g, hstands⟩ := hfound
  refine ⟨hbound, hredeclarations, ?_⟩
  rw [hstands.isDefined, List.any_eq_true]

/-- A prototype without parameters, behind a specifier. -/
def plainPrototype (result : TokenKind) (name : String) : FunctionDecl :=
  .prototypes (.leaf ⟨result, "result", ⟨1, "main.cpp"⟩⟩)
    [({ rule := .functionDeclarator, children := [word .identifier name, none] }, none)]

/-- The declarations `int f(); void f(); int f() {} int f() {} void f() {}`. -/
def fiveDeclarations : List FunctionDecl :=
  [plainPrototype .intType "f", plainPrototype .voidType "f",
    .definition (plainFunction .intType "f" none), .definition (plainFunction .intType "f" none),
    .definition (plainFunction .voidType "f" none)]

/-- Three of the five declarators are reported: two that have another result, and the second
definition. -/
theorem redeclarations_of_fiveDeclarations :
    ∃ first rest s', FunctionDecl.observeAll "f" fiveDeclarations (.start .bare) =
        .ok (first :: rest) s' ∧
      (first :: rest).map (·.redeclarations) = [0, 1, 0, 1, 1] ∧
      (∀ r ∈ first :: rest, r.bound = some first.ty) ∧
      ((first :: rest).map (·.redeclarations)).sum =
        (first :: rest).countP (fun r => !sameSignature first.ty r.ty) +
          ((first :: rest).countP (·.defines first.ty) - 1) ∧
      s'.symbols.isDefined first.ty = true := by
  have hsummary :
      ((FunctionDecl.observeAll "f" fiveDeclarations).run' (.start .bare)).map (fun rs =>
        (rs.map (·.redeclarations), rs.all (·.ty.function?.isSome),
          rs.head?.any fun first => rs.any (·.defines first.ty))) =
      some ([0, 1, 0, 1, 1], true, true) := by decide +kernel
  have hprototype : ∀ result, (plainPrototype result "f").Declares "f" := fun _ =>
    ⟨rfl, fun d hd => by cases List.mem_singleton.mp hd; exact ⟨rfl, rfl⟩⟩
  have hdefinition : ∀ result,
      (FunctionDecl.definition (plainFunction result "f" none)).Declares "f" := fun _ => ⟨rfl, rfl⟩
  have hds : ∀ d ∈ fiveDeclarations, d.Declares "f" := by
    simp [fiveDeclarations, hprototype, hdefinition]
  have hreached : (Checker.start .bare).Reached .bare fun _ => True :=
    ⟨fun _ _ _ => trivial, .refl _⟩
  unfold EStateM.run' EStateM.run at hsummary
  cases hrun : FunctionDecl.observeAll "f" fiveDeclarations (.start .bare) with
  | error e s =>
    rw [hrun] at hsummary
    cases hsummary
  | ok findings s' =>
    rw [hrun] at hsummary
    obtain ⟨hmap, hrest⟩ := Prod.mk.inj (Option.some.inj hsummary)
    obtain ⟨hfunction, hdefines⟩ := Prod.mk.inj hrest
    cases findings with
    | nil => cases hmap
    | cons first rest =>
      obtain ⟨findings, hobserve, hfirst⟩ := redeclarations_of_declarations hreached rfl rfl rfl hds
        (FunctionDecl.forM_check_iff.mpr ⟨_, hrun⟩)
      rw [hrun] at hobserve
      cases hobserve
      obtain ⟨hbound, hsum, hdefined⟩ := hfirst first rest rfl (List.all_eq_true.mp hfunction)
      exact ⟨first, rest, s', rfl, hmap, hbound, hsum,
        hdefined.mpr (List.any_eq_true.mp hdefines)⟩

/-- The declarator of `int (*f())[sizeof(struct f { int a; })]`. -/
def sizedByClass : Node :=
  let member := tree .memberDecl [word .intType "int", word .identifier "a"]
  let cls := tree .classSpec
    [tree .classHead [word .structKey "struct", word .identifier "f"],
      tree .memberSpec [member, none]]
  let function := tree .functionDeclarator [word .identifier "f", none]
  { rule := .arrayDeclarator
    children := [tree .pointerDeclarator [word .star "*", function], tree .sizeofType [cls]] }

/-- Classes in array dimensions are an exception: the class of this declarator takes the name of the
function, although neither the specifier nor a parameter list contains it. The only declarator of
the function is reported. -/
theorem redeclared_sizedByClass :
    let specifier : Node := .leaf ⟨.intType, "int", ⟨1, "main.cpp"⟩⟩
    let run := FunctionDecl.observeAll "f" [.prototypes specifier [(sizedByClass, none)]]
    specifier.isClassFree = true ∧ sizedByClass.declaredName? = some "f" ∧
      (∀ m ∈ sizedByClass.subtrees, m.rule = .functionDeclarator → m.child? 1 = none) ∧
      ∃ r c s', run (.start .bare) = .ok [r] s' ∧ r.ty.function?.isSome ∧ r.redeclarations = 1 ∧
        r.bound = some (.object c) := by
  refine ⟨rfl, rfl, ?_, ?_⟩
  · decide +kernel
  · exact ⟨_, _, _, rfl, rfl, rfl, rfl⟩

end CWithClasses
