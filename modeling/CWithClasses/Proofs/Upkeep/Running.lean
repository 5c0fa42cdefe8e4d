import CWithClasses.Proofs.Logic.Bracket
import CWithClasses.Proofs.Pairs.Statement
import CWithClasses.Proofs.Upkeep.Reading

/-!
# What declarations and statements bind

A `DeclaringLogic` adds the steps that bind names, make classes and open scopes. A name may be bound
to a type that the guard lets pass; and a name that is not among the given ones may be bound to a
class as it stands only if it is the name of this class. Tables that are kept to that are upheld:
whatever is found in the innermost scope of such a table, or in a class, may be bound again.

A phrase upholds the logic if it keeps to it in all of its roles. Definitions of functions and
classes stay hypotheses here.
-/

namespace CWithClasses

open Check

variable {G : TypeGuard} {D : String → Prop}

/-! ### Names and what they may be bound to -/

/-- The name may be bound to the type. -/
structure Ty.Permitted (G : TypeGuard) (D : String → Prop) (name : String) (ty : Ty) : Prop where
  types : G.types ty
  object : ∀ c, ty = .object c → c.name = name ∨ D name

/-- The class of a name may be bound to it. -/
theorem Ty.permitted_object {c : ClassRef} {name : String} (h : c.name = name) (hc : G.classes c) :
    (Ty.object c).Permitted G D name where
  types := G.object hc
  object d hd := by
    cases hd
    exact .inl h

/-- All that the innermost scope and the classes bind is permitted, and functions that may not get
bodies have none. -/
structure SymbolTable.Upheld (G : TypeGuard) (D : String → Prop) (t : SymbolTable) : Prop where
  bindings : ∀ name ty, t.current.bindings.lookup name = some ty → ty.Permitted G D name
  members : ∀ c name access ty, t.member? c name = some (access, ty) → ty.Permitted G D name
  bodies : ∀ i, ¬ G.functions i → t.bodies[i]?.join = none

/-- What a name means in the innermost scope. -/
theorem SymbolTable.Upheld.lookupLocal {t : SymbolTable} {name : String} {ty : Ty}
    (h : t.Upheld G D) (hfound : t.lookupLocal? name = some ty) : ty.Permitted G D name := by
  unfold SymbolTable.lookupLocal? SymbolTable.findIn at hfound
  split at hfound
  next c _ =>
    obtain ⟨⟨access, _⟩, hmember, rfl⟩ := Option.map_eq_some_iff.mp hfound
    exact h.members c name access _ hmember
  next => exact h.bindings name ty hfound

/-- What has to be shown of the steps that bind names, make classes and open scopes. -/
structure DeclaringLogic extends ReadingLogic where
  table : ∀ {p : Prop}, triple p Check.symbols (SymbolTable.Upheld guard names)
  /-- A step may depend on the state. -/
  read : ∀ {α : Type} {p : Prop} {k : Checker → Check α} {Q : α → Prop},
    (∀ s, triple p (k s) Q) → triple p (get >>= k) Q
  redeclared : ∀ {p : Prop} (name : String) (position : Position),
    triple p (Check.report (.redeclaration name) position) fun _ => True
  newClass : ∀ {p : Prop} (name : String),
    triple p (Check.newClass name) fun c => c.name = name ∧ guard.classes c
  declare : ∀ {p : Prop} (name : String) (position : Position) {ty : Ty},
    (p → ty.Permitted guard names name) →
    triple p (Check.declare name position ty) fun _ => True
  markComplete : ∀ {p : Prop} (c : ClassRef),
    triple p (modifySymbols (·.markComplete c)) fun _ => True
  setAccess : ∀ {p : Prop} (access : Access),
    triple p (modifySymbols (·.setAccess access)) fun _ => True
  discard : ∀ {p : Prop} (frame : Option Frame), triple p (Check.discard frame) fun _ => True
  attachScope : ∀ {p : Prop} {b : FunctionBody} {f : FunctionTy} (frame : Option Frame),
    (p → guard.functions f.id) → triple p (b.attachScope f frame) fun _ => True
  bracket : ∀ {α : Type} {p : Prop} {kind : FrameKind} {x : Check α},
    (p → ∀ c, kind = .classBody c → guard.classes c) → triple p x (fun _ => True) →
    triple p (Check.bracket kind x) fun _ => True
  inFunction : ∀ {p : Prop} (result : Ty) {x : Check Unit}, triple p x (fun _ => True) →
    triple p (Check.inFunction result x) fun _ => True
  nested : ∀ {p : Prop} (loops switches : Nat) {x : Check Unit}, triple p x (fun _ => True) →
    triple p (Check.nested loops switches x) fun _ => True
  missingBody : ∀ {p : Prop} (c : Clause), triple p c.missingBody fun _ => True

/-- The type of an object that is declared with the first one. Only an array that leaves its size
open gets another type from its initializer. -/
def Ty.Completes (declared ty : Ty) : Prop :=
  ty = declared ∨ ∃ element size count, declared = .array element size ∧ ty = .array element count

/-- Such a type may be bound if the other one may. -/
theorem Ty.Completes.types {declared ty : Ty} (h : declared.Completes ty) (hty : G.types declared) :
    G.types ty := by
  obtain rfl | ⟨element, size, count, rfl, rfl⟩ := h
  · exact hty
  · exact G.resize count hty

/-- An object of a class is not changed by its initializer. -/
theorem Ty.Completes.eq_object {declared : Ty} {c : ClassRef} (h : declared.Completes (.object c)) :
    declared = .object c := by
  obtain h | ⟨element, size, count, -, h⟩ := h
  · exact h.symm
  · cases h

/-! ### Initializers -/

/-- The phrase keeps to the logic wherever it is read, and where it initializes an object. -/
structure Phrase.Initiates (L : ReadingLogic) (q : Phrase) : Prop extends q.Obeys L where
  initializer : ∀ (p : Prop) (ty : Ty), L.triple p (q.roles.initializer ty) ty.Completes

/-- What keeps to a logic where it initializes an object obeys it. -/
theorem Phrase.Throughout.obeys_of_initiates {L : ReadingLogic} {q : Phrase}
    (hq : q.Throughout (Phrase.Initiates L)) : q.Throughout (Phrase.Obeys L) :=
  hq.mono fun _ h => h.toObeys

namespace ReadingLogic

variable {L : ReadingLogic} {p : Prop} {q : Phrase} {c : Clause} {o : Option Phrase}
  {items : List Phrase}

/-- The phrase keeps to the logic where it initializes an object, and so does all that it is made
of. -/
abbrev Initiates (L : ReadingLogic) (q : Phrase) : Prop := q.Throughout (Phrase.Initiates L)

/-- A list that is too long. -/
theorem reportSurplus (declared : Ty) (count : Nat) (position : Position) :
    L.Idle (CWithClasses.reportSurplus declared count position) :=
  .report _ nofun

/-- All items of a list against one type. -/
theorem initializeAll (hitems : ∀ item ∈ items, L.Initiates item) (ty : Ty) :
    L.Idle (CWithClasses.initializeAll ty items) := by
  intro p
  refine L.forM fun item hitem => ?_
  exact L.next ((hitems item hitem).self.initializer p ty) fun _ => L.ret _ fun _ => trivial

/-- A list in braces. -/
theorem checkBraces (hitems : ∀ item ∈ items, L.Initiates item) (declared : Ty)
    (position : Position) :
    L.triple p (CWithClasses.checkBraces declared items position) declared.Completes := by
  have hsame : ∀ {x : Check Unit}, L.Idle x →
      L.triple p (do x; return declared) declared.Completes :=
    fun hx => L.next (hx p) fun _ => L.ret _ fun _ => .inl rfl
  unfold CWithClasses.checkBraces
  split
  next element size =>
    refine L.next (initializeAll hitems element p) fun _ => ?_
    split
    · exact L.ret _ fun _ => .inr ⟨element, size, _, rfl, rfl⟩
    · split
      · exact hsame (reportSurplus _ _ _)
      · exact L.ret _ fun _ => .inl rfl
  next => exact hsame (initializeAll hitems .unknown)
  next =>
    refine L.next (initializeAll hitems declared p) fun _ => ?_
    split
    · exact hsame (reportSurplus _ _ _)
    · exact L.ret _ fun _ => .inl rfl

/-- An initializer whose parts keep to the logic. -/
theorem initializer (hparts : c.Throughout (Phrase.Initiates L)) {expression : Check Ty}
    (hexpression : L.Idle expression) (declared : Ty) :
    L.triple p (c.initializer expression declared) declared.Completes := by
  unfold Clause.initializer
  split
  next => exact L.part fun r hr => (hparts 0 r hr).self.initializer p declared
  next => exact L.part fun r hr => (hparts 0 r hr).self.initializer p declared
  next => exact checkBraces (Phrase.throughout_flatten? (hparts 0)) declared c.position
  next =>
    refine L.next (checkArguments (fun r hr => (hparts 0 r hr).obeys_of_initiates) p)
      fun arguments => ?_
    refine L.next (Idle.looks (.checkConstruction declared arguments c.position) p) fun _ => ?_
    exact L.ret _ fun _ => .inl rfl
  next =>
    refine L.next (hexpression p) fun value => ?_
    exact L.skipIf (L.report _ nofun) (L.ret _ fun _ => .inl rfl)

/-- The initializer of an object, or its default construction. -/
theorem checkInit (ho : ∀ r, o = some r → L.Initiates r) (ty : Ty) (position : Position) :
    L.triple p (CWithClasses.checkInit ty position o) ty.Completes := by
  cases o with
  | none =>
    exact L.next (Idle.looks (.checkDefaultConstruction ty position) p) fun _ =>
      L.ret _ fun _ => .inl rfl
  | some r => exact (ho r rfl).self.initializer p ty

end ReadingLogic

/-- A tree keeps to the logic where it initializes an object if all that it is made of does, given
what is needed about classes. -/
theorem Node.initiates {L : ReadingLogic} {n : Node}
    (hparts : n.clause.Throughout (Phrase.Initiates L)) (hnames : n.phrase.NamesObjects L.names)
    (hclass : n.rule = .classSpec → ∀ p, L.triple p n.clause.classSpec L.guard.types)
    (helaborated : n.rule = .elaborated → ∀ p m name, n.child? 1 = some m → m.token = some name →
      L.triple p (elaborate name) L.guard.types) : n.phrase.Initiates L := by
  have hobeys : n.phrase.Obeys L :=
    obeys (fun i q hq => (hparts i q hq).obeys_of_initiates) hnames hclass helaborated
  refine ⟨hobeys, fun p ty => ?_⟩
  have hexpression := hobeys.expression
  rw [n.phrase_roles_eq] at hexpression ⊢
  exact ReadingLogic.initializer hparts hexpression ty

/-- The phrase keeps to the logic in all of its roles. -/
structure Phrase.Upholds (L : DeclaringLogic) (q : Phrase) : Prop
    extends q.Initiates L.toReadingLogic where
  declaration : L.Idle q.roles.declaration
  statement : L.Idle q.roles.statement

/-- What upholds a logic keeps to it where it initializes an object. -/
theorem Phrase.Throughout.initiates {L : DeclaringLogic} {q : Phrase}
    (hq : q.Throughout (Phrase.Upholds L)) : q.Throughout (Phrase.Initiates L.toReadingLogic) :=
  hq.mono fun _ h => h.toInitiates

/-- What upholds a logic obeys it. -/
theorem Phrase.Throughout.obeys {L : DeclaringLogic} {q : Phrase}
    (hq : q.Throughout (Phrase.Upholds L)) : q.Throughout (Phrase.Obeys L.toReadingLogic) :=
  hq.initiates.obeys_of_initiates

namespace DeclaringLogic

open ReadingLogic

variable {L : DeclaringLogic} {p : Prop} {q : Phrase} {c : Clause} {o : Option Phrase}
  {base ty : Ty} {items : List Phrase} {name : DeclaredName}

/-- The phrase upholds the logic, and so does all that it is made of. -/
abbrev Upholds (L : DeclaringLogic) (q : Phrase) : Prop := q.Throughout (Phrase.Upholds L)

/-! ### Declarations -/

/-- The declaration of a function. An earlier one of the same signature counts. -/
theorem declareFunction (hover : p → L.guard.types ty) (hfunction : ty.function?.isSome) :
    L.triple p (CWithClasses.declareFunction name ty) fun t =>
      L.guard.types t ∧ (t = ty ∨ sameSignature t ty = true) := by
  have hpermitted : p → ty.Permitted L.guard L.names name.name := by
    refine fun hp => ⟨hover hp, fun c hc => ?_⟩
    rw [hc] at hfunction
    cases hfunction
  have hdeclare : ∀ table : SymbolTable,
      L.triple (p ∧ table.Upheld L.guard L.names)
        (do Check.declare name.name name.position ty
            return ty) fun t => L.guard.types t ∧ (t = ty ∨ sameSignature t ty = true) :=
    fun table => L.next (L.declare _ _ fun hp => hpermitted hp.1) fun _ =>
      L.ret _ fun hp => ⟨hover hp.1, .inl rfl⟩
  unfold CWithClasses.declareFunction
  refine L.bind L.table fun table => ?_
  split
  next existing hexisting =>
    split
    next hsame => exact L.ret _ fun hp => ⟨(hp.2.lookupLocal hexisting).types, .inr hsame⟩
    next => exact hdeclare table
  next => exact hdeclare table

/-- The member that a qualified name refers to. -/
theorem resolveQualified (cls : Token) (name : DeclaredName) :
    L.triple p (CWithClasses.resolveQualified cls name) fun found => ∀ c member,
      found = some (c, member) → L.guard.classes c ∧ ∀ ty, member = some ty → L.guard.types ty := by
  unfold CWithClasses.resolveQualified
  refine L.bind (resolveTypeName cls) fun ty => ?_
  split
  · exact L.ret _ fun _ _ _ h => by cases h
  next c hc =>
    refine L.bind L.table fun table => ?_
    split
    next access member hmember =>
      refine L.ret _ fun hp _ _ h => ?_
      cases h
      refine ⟨L.guard.opens hp.1.2 hc, fun _ hty => ?_⟩
      cases hty
      exact (hp.2.members c name.name access member hmember).types
    next =>
      refine L.next (L.report _ nofun) fun _ => L.ret _ fun hp _ _ h => ?_
      cases h
      exact ⟨L.guard.opens hp.1.2 hc, fun _ hty => by cases hty⟩

/-- The declaration of an object. -/
theorem declareObject (ho : ∀ r, o = some r → L.Upholds r) (hover : p → L.guard.types ty)
    (hname : ∀ c, ty = .object c → L.names name.name) :
    L.triple p (CWithClasses.declareObject name ty o) fun _ => True := by
  unfold CWithClasses.declareObject
  have htype : L.triple p (checkObjectType ty name.position) fun t => t = ty ∨ t = .unknown := by
    unfold checkObjectType
    split
    · exact L.post (reject _ nofun) fun _ _ h => .inr h
    · exact L.ret _ fun _ => .inl rfl
  refine L.bind htype fun ty' => ?_
  refine L.bind (ReadingLogic.checkInit (fun r hr => (ho r hr).initiates) ty' name.position)
    fun ty'' => ?_
  split
  next cls _ =>
    exact L.next (Idle.looks (.checkAgainstMember cls name ty'' compatible) _) fun _ => Idle.ret _ _
  next =>
    refine L.next (L.declare name.name name.position fun hp => ?_) fun _ => Idle.ret _ _
    obtain ⟨⟨hp, rfl | rfl⟩, hcompletes⟩ := hp
    · refine ⟨hcompletes.types (hover hp), fun c hc => .inr ?_⟩
      subst hc
      exact hname c hcompletes.eq_object
    · refine ⟨hcompletes.types L.guard.unknown, fun c hc => ?_⟩
      subst hc
      cases hcompletes.eq_object

/-- What a declarator declares. -/
theorem initDeclarator (hq : L.Upholds q) (hnames : q.Names L.names base)
    (ho : ∀ r, o = some r → L.Upholds r) (hbase : p → L.guard.types base) :
    L.triple p (q.initDeclarator base o) fun _ => True := by
  unfold Phrase.initDeclarator
  refine L.seq hnames (hq.self.declarator p base hbase) fun declared hobject => ?_
  split
  · exact L.fault _
  next name hname =>
    split
    next hfunction =>
      split
      next cls _ =>
        exact L.next
          (Idle.looks (.checkAgainstMember cls name declared.ty sameSignature) _) fun _ =>
          Idle.ret _ _
      next =>
        exact L.post (declareFunction (fun hp => hp.2.permitted) hfunction) fun _ _ _ => trivial
    next => exact declareObject ho (fun hp => hp.2.permitted) fun c hc => hobject c name hc hname

/-- What a declarator declares, in a step whose result does not matter. -/
theorem declareItem (hq : L.Upholds q) (hnames : q.Names L.names base)
    (ho : ∀ r, o = some r → L.Upholds r) (hbase : p → L.guard.types base) :
    L.triple p (do let _ ← q.initDeclarator base o) fun _ => True :=
  L.next (initDeclarator hq hnames ho hbase) fun _ => Idle.ret _ p

/-- One item of a declaration, which may have an initializer. -/
theorem initDeclItem (hq : L.Upholds q) (hnames : ∀ d ∈ q.itemDeclarators, d.Names L.names base)
    (hbase : p → L.guard.types base) : L.triple p (q.initDeclItem base) fun _ => True := by
  unfold Phrase.initDeclItem
  split
  next hrule =>
    refine L.part fun d hd => ?_
    replace hd : q.part? 0 = some d := hd
    exact declareItem (hq.part hd) (hnames d (by simp [Phrase.itemDeclarators, hrule, hd]))
      (fun r hr => hq.part hr) hbase
  next => exact declareItem hq (hnames q q.mem_itemDeclarators) Phrase.throughout_none hbase

/-- A declaration of objects and functions. -/
theorem simpleDeclaration (hparts : c.Throughout (Phrase.Upholds L))
    (hnames : (checkSpecifiers? (c.part? 0)).Yields fun base =>
      ∀ item ∈ Phrase.flatten? (c.part? 1), ∀ d ∈ item.itemDeclarators, d.Names L.names base) :
    L.Idle c.simpleDeclaration := by
  intro p
  unfold Clause.simpleDeclaration
  refine L.part fun r hr => ?_
  rw [hr] at hnames
  refine L.seq hnames (specifiers (hparts 0 r hr).obeys) fun base hitems => ?_
  refine L.forM fun item hitem => ?_
  exact initDeclItem (Phrase.throughout_flatten? (hparts 1) item hitem)
    (hitems item hitem) And.right

/-! ### Conditions -/

/-- The type of a condition, which may declare a variable. -/
theorem conditionType (hq : L.Upholds q) : L.Idle q.conditionType := by
  intro p
  unfold Phrase.conditionType
  split
  next hrule =>
    have hfirst : q.declarators = (q.part? 1).toList := by simp [Phrase.declarators, hrule]
    refine L.part fun r hr => ?_
    refine L.seq (hq.self.names.specifiers hr)
      (specifiers (hq.part hr).obeys) fun base hobjects => ?_
    refine L.part fun d hd => ?_
    refine L.part fun init hinit => ?_
    replace hd : q.part? 1 = some d := hd
    exact initDeclarator (hq.part hd) (hobjects d (by simp [hfirst, hd]))
      (hq.part hinit).of_some And.right
  next => exact hq.self.expression p

/-- A condition. -/
theorem condition (hq : L.Upholds q) (kind : ConditionKind) : L.Idle (q.condition kind) := by
  unfold Phrase.condition
  refine (conditionType hq).bind fun ty => ?_
  split
  · exact .ret _
  · exact .report _ nofun

/-! ### Statements -/

/-- A step in a block of its own. -/
theorem inBlock {x : Check Unit} (hx : L.Idle x) : L.Idle (Check.inScope .block x) := by
  intro p
  rw [inScope_eq]
  refine L.next (L.bracket (fun _ c hc => by cases hc) (hx p)) fun r => ?_
  exact L.next (L.discard r.2) fun _ => Idle.ret _ p

/-- The steps of statements, as a run that goes together with itself. Nothing is said of types. -/
def statements (L : DeclaringLogic) : StatementPairs where
  toExpressionPairs := L.expressions
  nests := {
    read := fun hk =>
      have hself := fun s => hk s s (.refl (fun _ => trivial) s)
      ⟨fun p => L.read fun s => (hself s).1 p, fun s => (hself s).2 s⟩
    block := fun hx => pair_of_idle (inBlock hx.1)
    nested := fun loops switches _ _ hx => pair_of_idle fun p => L.nested loops switches (hx.1 p)
    missingBody := fun c => pair_of_idle fun _ => L.missingBody c }
  illegalJump _ position := pair_of_idle (.report position nofun)
  checkReturn position _ _ := pair_of_idle (.looks (.checkReturn _ _ position))

/-- What upholds the logic proceeds. -/
theorem proceeds (hq : L.Upholds q) : q.Throughout (Phrase.Proceeds L.statements) :=
  hq.derive fun _ hr => ⟨⟨hr.self.expression, fun _ _ _ _ => ⟨.void, trivial⟩⟩,
    fun kind => pair_of_idle (condition hr kind), pair_of_idle hr.self.statement⟩

/-- A declaration whose parts uphold the logic. -/
theorem declaration (hparts : c.Throughout (Phrase.Upholds L))
    (hnames : c.rule = .simpleDecl → (checkSpecifiers? (c.part? 0)).Yields fun base =>
      ∀ item ∈ Phrase.flatten? (c.part? 1), ∀ d ∈ item.itemDeclarators, d.Names L.names base)
    (hfunction : c.rule = .functionDef ∨ c.rule = .constructorDef → L.Idle c.functionDefinition) :
    L.Idle c.declaration := by
  unfold Clause.declaration
  split
  next => exact fun p => L.forM fun item hitem => (hparts.items item hitem).self.declaration p
  next hrule => exact simpleDeclaration hparts (hnames hrule)
  next hrule => exact hfunction (.inl hrule)
  next hrule => exact hfunction (.inr hrule)
  next => exact fun _ => L.unexpected c _

end DeclaringLogic

/-- A tree upholds the logic if all that it is made of does, given what is needed about classes and
functions. -/
theorem Node.upholds {L : DeclaringLogic} {n : Node}
    (hparts : n.clause.Throughout (Phrase.Upholds L)) (hnames : n.phrase.NamesObjects L.names)
    (hclass : n.rule = .classSpec → ∀ p, L.triple p n.clause.classSpec L.guard.types)
    (helaborated : n.rule = .elaborated → ∀ p name,
      L.triple p (elaborate name) L.guard.types)
    (hfunction : n.rule = .functionDef ∨ n.rule = .constructorDef →
      L.Idle n.clause.functionDefinition) : n.phrase.Upholds L := by
  have hinitiates : n.phrase.Initiates L.toReadingLogic :=
    initiates (fun i q hq => (hparts i q hq).initiates) hnames hclass
      fun hrule p _ name _ _ => helaborated hrule p name
  have hexpression : L.Idle n.clause.expression := by
    have hrole := hinitiates.expression
    rwa [n.phrase_roles_eq] at hrole
  have hdeclaration : L.Idle n.clause.declaration := by
    refine DeclaringLogic.declaration hparts (fun hrule => ?_) hfunction
    rw [← n.phrase_clause] at hrule ⊢
    exact hnames.items (.inl hrule)
  refine ⟨hinitiates, ?_, ?_⟩
  all_goals rw [n.phrase_roles_eq]
  · exact hdeclaration
  · exact (L.statements.statement (fun i q hq => DeclaringLogic.proceeds (hparts i q hq))
      ⟨hexpression, fun _ _ _ _ => ⟨.void, trivial⟩⟩ (ReadingLogic.pair_of_idle hdeclaration)).1

end CWithClasses
