import CWithClasses.Check.Function
import CWithClasses.Proofs.Logic.Declaration

/-!
# Function definitions in a step logic

A definition is checked in two steps: it is declared, which leaves a body to be checked, and then
the body is checked. What the first step hands over to the second holds whatever has been
reported: the type of the body is that of a function, and its statements are parts of the tree.
-/

namespace CWithClasses.StepLogic

open Check

variable (L : StepLogic) {p : Prop} {c : Clause} {q : Phrase}

/-! ### Bodies -/

/-- The phrase is sound as the initializer of a member. -/
def MemberInit (q : Phrase) : Prop :=
  ∀ (p : Prop) (cls : Option ClassRef), L.triple p (q.memberInit cls) fun _ => True

/-- The part names what a member initializer is about. -/
def MemberInitId (id : Phrase) : Prop :=
  (id.rule = .memberInitId → L.Has id.clause 0 fun q => L.Leaf q.node) ∧
    (id.rule ≠ .memberInitId → id.rule ≠ .baseInitId → L.faults)

/-- The initializer of a member: its arguments are checked before the member is looked up. -/
theorem memberInit (hother : q.rule ≠ .memInit → L.faults)
    (hparts : q.rule = .memInit → L.Has q.clause 0 L.MemberInitId ∧
      ∀ r, q.part? 1 = some r → r.Each L.Expression) : L.MemberInit q := by
  intro p cls
  unfold Phrase.memberInit
  split
  next hrule => exact L.fault _ (hother hrule)
  next hrule =>
    obtain ⟨hid, harguments⟩ := hparts (Decidable.not_not.mp hrule)
    refine L.part hid fun id hid => ?_
    refine L.next (L.checkArguments harguments) fun arguments => ?_
    split
    next hmember =>
      refine L.part (hid.1 hmember) fun r hr => ?_
      refine L.leaf hr fun name _ => ?_
      refine L.next L.symbols fun table => ?_
      split
      · exact L.looks (.checkConstruction _ _ _)
      · exact L.looks (.report _ rfl)
    next => exact L.looks (.report _ rfl)
    next hmember hbase => exact L.fault _ (hid.2 hmember hbase)

/-- The phrase is sound as the member initializers of a constructor. -/
def CtorInit (q : Phrase) : Prop := ∀ p, L.triple p q.ctorInit fun _ => True

/-- The member initializers of a constructor. -/
theorem ctorInit (hlist : q.rule = .ctorInit → L.Has q.clause 0 (Phrase.Each L.MemberInit))
    (hother : q.rule ≠ .ctorInit → q.Each L.MemberInit) : L.CtorInit q := by
  intro p
  have hinits : ∀ list : Phrase, list.Each L.MemberInit → L.triple p (do
      let table ← Check.symbols
      list.flatten.forM fun init => init.memberInit table.currentClass?) fun _ => True := by
    intro list hitems
    refine L.next L.symbols fun table => ?_
    exact L.forM fun init hinit => hitems init hinit _ _
  unfold Phrase.ctorInit
  split
  next hrule => exact L.part (hlist hrule) hinits
  next hrule => exact hinits q (hother hrule)

/-- The phrase is sound as the body of a function. -/
def FunctionBlock (q : Phrase) : Prop := ∀ p, L.triple p q.functionBlock fun _ => True

/-- The statements of a body, or a body that is a single statement. -/
theorem functionBlock
    (hcompound : q.rule = .compound → ∀ r, q.part? 0 = some r → r.Each L.Statement)
    (hother : q.rule ≠ .compound → L.Statement q) : L.FunctionBlock q := by
  intro p
  unfold Phrase.functionBlock
  split
  next hrule =>
    exact L.forM fun item hitem => Phrase.Each.of_mem (hcompound hrule) hitem p
  next hrule => exact hother hrule p

/-- What holds of a body that is still to be checked, whatever has been reported. -/
structure Body (b : FunctionBody) : Prop where
  function : b.ty.function?.isSome
  ctorInit : ∀ init, b.ctorInit = some init → L.CtorInit init
  block : L.FunctionBlock b.body

/-- The type of a function is one that may be called. -/
theorem exists_asFunction {ty : Ty} (h : ty.function?.isSome) : ∃ f, ty.asFunction? = some f := by
  cases ty <;> simp_all [Ty.function?, Ty.asFunction?]

/-- Checking a body that was left to be checked. -/
theorem checkBody {b : FunctionBody} (hb : L.Body b) (hty : p → b.ty.Known) :
    L.triple p b.check fun _ => True := by
  obtain ⟨f, hf⟩ := exists_asFunction hb.function
  refine L.functionBody hf (fun hp => ((hty hp).asFunction hf).2) ?_ (hb.block p)
  exact fun init hinit => hb.ctorInit init hinit p

/-! ### Definitions -/

/-- Only functions have the signature of something. -/
theorem isFunction_of_sameSignature {s t : Ty} (h : sameSignature s t = true) :
    s.function?.isSome := by
  unfold sameSignature at h
  split at h
  · rfl
  · cases h

/-- Relating a definition with a plain name to its scope. -/
theorem defineLocal (name : DeclaredName) {ty : Ty} (hty : p → ty.Known) :
    L.triple p (CWithClasses.defineLocal name ty) fun d => d.ty.Known := by
  unfold CWithClasses.defineLocal
  refine L.bind L.symbols fun table => ?_
  split
  next existing hexisting =>
    split
    · exact L.ret _ fun hp => hp.2.lookupLocal hexisting
    · exact L.next (L.report _ _ nofun) fun _ => L.ret _ fun hp => hty hp.1
  next => exact L.bind (L.declareFunction name fun hp => hty hp.1) fun _ => L.ret _ And.right

/-- Relating a definition with a qualified name to its class. -/
theorem defineMember (cls : Token) (name : DeclaredName) {ty : Ty} (hty : p → ty.Known) :
    L.triple p (CWithClasses.defineMember cls name ty) fun d => d.ty.Known := by
  unfold CWithClasses.defineMember
  refine L.bind (L.resolveQualified cls name) fun found => ?_
  split
  next c member =>
    split
    · exact L.next (L.report _ _ nofun) fun _ => L.ret _ fun hp => hty hp.1
    · refine L.next L.symbols fun table => ?_
      split
      · exact L.next (L.report _ _ nofun) fun _ => L.ret _ fun hp => hty hp.1
      · exact L.ret _ fun hp => hp.2 c member rfl
  next => exact L.ret _ fun hp => hty hp.1
  next => exact L.ret _ fun hp => hty hp.1

/-- A declared function is a function, also if an earlier declaration counts. -/
theorem declareFunction_yields (name : DeclaredName) {ty : Ty} (hty : ty.function?.isSome) :
    (CWithClasses.declareFunction name ty).Yields fun t => t.function?.isSome := by
  unfold CWithClasses.declareFunction
  refine Yields.next fun table => ?_
  split
  next existing _ =>
    split
    next hsame => exact .ret (isFunction_of_sameSignature hsame)
    next => exact Yields.next fun _ => .ret hty
  next => exact Yields.next fun _ => .ret hty

/-- A body with a plain name belongs to a function. -/
theorem defineLocal_yields (name : DeclaredName) {ty : Ty} (hty : ty.function?.isSome) :
    (CWithClasses.defineLocal name ty).Yields fun d => d.ty.function?.isSome := by
  unfold CWithClasses.defineLocal
  refine Yields.next fun table => ?_
  split
  next existing _ =>
    split
    next hsame =>
      rw [Bool.and_eq_true] at hsame
      exact .ret (isFunction_of_sameSignature hsame.1)
    next => exact Yields.next fun _ => .ret hty
  next => exact (declareFunction_yields name hty).bind fun t ht => .ret ht

/-- A body with a qualified name belongs to a function. -/
theorem defineMember_yields (cls : Token) (name : DeclaredName) {ty : Ty}
    (hty : ty.function?.isSome) :
    (CWithClasses.defineMember cls name ty).Yields fun d => d.ty.function?.isSome := by
  unfold CWithClasses.defineMember
  refine Yields.next fun found => ?_
  split
  next c member =>
    split
    next => exact Yields.next fun _ => .ret hty
    next hsame =>
      refine Yields.next fun table => ?_
      split
      · exact Yields.next fun _ => .ret hty
      · exact .ret (isFunction_of_sameSignature (by simpa using hsame))
  next => exact .ret hty
  next => exact .ret hty

/-- The phrase is sound as a declarator, and introduces a function. -/
def FunctionDeclarator (q : Phrase) : Prop :=
  L.Declarator q ∧ ∀ ty, (q.roles.declarator ty).Yields fun d =>
    d.name = none ∨ d.parameters = none ∨ d.ty.function? = none → L.faults

/-- What a function definition asks of its slots. -/
structure FunctionParts (c : Clause) : Prop where
  plain : c.rule = .functionDef → (∀ q, c.part? 0 = some q → q.Each L.Specifier) ∧
    L.Has c 1 L.FunctionDeclarator ∧ L.Has c 2 L.FunctionBlock
  constructor : c.rule = .constructorDef →
    L.Has c 0 L.FunctionDeclarator ∧ L.Has c 1 L.CtorInit ∧ L.Has c 2 L.FunctionBlock
  other : c.rule ≠ .functionDef → c.rule ≠ .constructorDef → L.faults

/-- The slots of a function definition may be asked for. -/
theorem functionParts (h : L.FunctionParts c) : L.triple p c.functionParts fun _ => True := by
  unfold Clause.functionParts
  split
  next hrule =>
    obtain ⟨_, hdeclarator, hbody⟩ := h.plain hrule
    refine L.part hdeclarator fun _ _ => ?_
    exact L.part hbody fun _ _ => L.ret _ fun _ => trivial
  next hrule =>
    obtain ⟨hdeclarator, hinit, hbody⟩ := h.constructor hrule
    refine L.part hdeclarator fun _ _ => ?_
    refine L.part hinit fun _ _ => ?_
    exact L.part hbody fun _ _ => L.ret _ fun _ => trivial
  next hplain hconstructor => exact L.fault _ (h.other hplain hconstructor)

/-- The parts of a function definition are sound, each in its role. -/
theorem functionParts_yields (h : L.FunctionParts c) :
    c.functionParts.Yields fun parts => (∀ q, parts.1 = some q → q.Each L.Specifier) ∧
      L.FunctionDeclarator parts.2.1 ∧ (∀ q, parts.2.2.1 = some q → L.CtorInit q) ∧
      L.FunctionBlock parts.2.2.2 := by
  unfold Clause.functionParts
  split
  next hrule =>
    obtain ⟨hspecifiers, hdeclarator, hbody⟩ := h.plain hrule
    refine (Yields.part c 1).bind fun d hd => ?_
    refine (Yields.part c 2).bind fun b hb => .ret ⟨hspecifiers, ?_, ?_, ?_⟩
    · exact hdeclarator.part d hd
    · exact fun _ h => by cases h
    · exact hbody.part b hb
  next hrule =>
    obtain ⟨hdeclarator, hinit, hbody⟩ := h.constructor hrule
    refine (Yields.part c 0).bind fun d hd => ?_
    refine (Yields.part c 1).bind fun i hi => ?_
    refine (Yields.part c 2).bind fun b hb => .ret ⟨?_, ?_, ?_, ?_⟩
    · exact fun _ h => by cases h
    · exact hdeclarator.part d hd
    · exact fun _ h => Option.some.inj h ▸ hinit.part i hi
    · exact hbody.part b hb
  next => exact .fault _

/-- Declaring the function that a definition introduces. -/
theorem declareFunctionDef (h : L.FunctionParts c) :
    L.triple p c.declareFunctionDef fun b => b.ty.Known := by
  unfold Clause.declareFunctionDef
  refine L.seq (L.functionParts_yields h) (L.functionParts h) ?_
  rintro ⟨specifiers, declarator, ctorInit, body⟩ ⟨hspecifiers, hdeclarator, _, _⟩
  refine L.bind (L.checkSpecifiers hspecifiers) fun base => ?_
  refine L.seq (hdeclarator.2 base) (hdeclarator.1 _ base And.right) fun declared hdeclared => ?_
  dsimp only
  split
  next name parameters f hname hparameters hf =>
    split
    · exact L.bind (L.defineMember _ name And.right) fun _ => L.ret _ And.right
    · exact L.bind (L.defineLocal name And.right) fun _ => L.ret _ And.right
  next hparts =>
    refine L.fault _ (hdeclared ?_)
    rcases hname : declared.name with _ | name
    · exact .inl rfl
    rcases hparameters : declared.parameters with _ | parameters
    · exact .inr (.inl rfl)
    rcases hfunction : declared.ty.function? with _ | f
    · exact .inr (.inr rfl)
    exact (hparts name parameters f hname hparameters hfunction).elim

/-- The body that a definition leaves is that of a function, and consists of its parts. -/
theorem yields_declareFunctionDef
    {P : Option Phrase × Phrase × Option Phrase × Phrase → Prop} (h : c.functionParts.Yields P) :
    c.declareFunctionDef.Yields fun b => b.ty.function?.isSome ∧
      ∃ specifiers declarator, P (specifiers, declarator, b.ctorInit, b.body) := by
  unfold Clause.declareFunctionDef
  refine h.bind ?_
  rintro ⟨specifiers, declarator, ctorInit, body⟩ hparts
  refine Yields.next fun base => Yields.next fun declared => ?_
  dsimp only
  split
  next name parameters f _ _ hf =>
    have hfunction : declared.ty.function?.isSome := by rw [hf]; rfl
    split
    · exact (defineMember_yields _ name hfunction).bind fun d hd => .ret ⟨hd, _, _, hparts⟩
    · exact (defineLocal_yields name hfunction).bind fun d hd => .ret ⟨hd, _, _, hparts⟩
  next => exact .fault _

/-- What is said of the parts is said of the body that a definition leaves. -/
theorem declareFunctionDef_yields (h : L.FunctionParts c) :
    c.declareFunctionDef.Yields L.Body := by
  refine (yields_declareFunctionDef (L.functionParts_yields h)).mono ?_
  rintro b ⟨hfunction, _, _, _, _, hinit, hbody⟩
  exact ⟨hfunction, hinit, hbody⟩

/-- A function definition. -/
theorem functionDefinition (h : L.FunctionParts c) :
    L.triple p c.functionDefinition fun _ => True := by
  unfold Clause.functionDefinition
  refine L.seq (L.declareFunctionDef_yields h) (L.declareFunctionDef h) fun b hb => ?_
  exact L.checkBody hb And.right

end CWithClasses.StepLogic
