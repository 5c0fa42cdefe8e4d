import CWithClasses.Proofs.Exports.Declaration

/-!
# What loops leave behind

A statement that opens a scope binds nothing outside of it. The loop with its condition at the end
opens none: what its condition declares, and what its body declares unless the body opens a scope
itself, stays bound in the scope around the loop.

So the names that a statement exports are those of the declarations that stand *in place*, with no
scope between them and the statement. The innermost scope gains these names, and beyond them at most
the names of classes in place. The scopes around it gain nothing.
-/

namespace CWithClasses

open Check

variable {N D : String → Prop}

/-! ### Declarations in place -/

namespace Node

variable {n q : Node}

/-- The names that a declaration, a definition or a condition declares. -/
def declaredNames (n : Node) : List String :=
  match n.rule with
  | .simpleDecl | .functionDef | .constructorDef => n.memberNames
  | .conditionDecl => ((n.child? 1).bind declaredName?).toList
  | _ => []

/-- What is read in the scope around a tree that is no statement made of others. The body of a
function and its parameters have a scope of their own. -/
def readInPlace (n : Node) : List Node :=
  match n.rule with
  | .functionDef | .constructorDef => n.memberSpecifiers?.toList ++ n.memberDeclarators
  | _ => [n]

/-- The tree declares the name, or contains a class of that name. -/
def MayDeclare (n : Node) (name : String) : Prop :=
  name ∈ n.declaredNames ∨ ∃ q ∈ n.readInPlace, ∃ m ∈ q.subtrees, m.className? = some name

/-- What is read in place adds no names but those that the tree may declare. -/
theorem initiates_of_readInPlace (hq : q ∈ n.readInPlace) :
    (gainLogic n.MayDeclare).Initiates q.phrase :=
  gainLogic_initiates fun m hm _ hname => .inr ⟨q, hq, m, hm, hname⟩

/-- A declaration of objects and functions. -/
theorem exports_simpleDeclaration (hrule : n.rule = .simpleDecl) :
    n.clause.simpleDeclaration.Exports n.MayDeclare (· ∈ n.declaredNames) := by
  have hread : n ∈ n.readInPlace := by simp [readInPlace, hrule]
  have hnames : ∀ name, name ∈ n.declaredNames ↔
      ∃ q ∈ n.declaredItems, q.itemName? = some name := by
    simp [declaredNames, memberNames, hrule]
  have hdeclares := Check.Exports.simpleDeclaration (initiates_of_readInPlace hread)
    fun q hq name hname => .inl ((hnames name).mpr ⟨q, hq, hname⟩)
  exact hdeclares.mono (fun _ => id) fun name => (hnames name).mp

/-- The definition of a function. -/
theorem exports_functionDefinition (hrule : n.rule = .functionDef ∨ n.rule = .constructorDef) :
    n.clause.functionDefinition.Exports n.MayDeclare (· ∈ n.declaredNames) := by
  let L := bindingsLogic.toStepLogic
  have hread : n.readInPlace = n.memberSpecifiers?.toList ++ n.memberDeclarators := by
    rcases hrule with hrule | hrule <;> simp [readInPlace, hrule]
  have hnames : ∀ name, name ∈ n.declaredNames ↔ n.definedName? = some name := by
    rcases hrule with hrule | hrule <;> simp [declaredNames, memberNames, hrule]
  have hreads : ∀ q ∈ n.memberSpecifiers?.toList ++ n.memberDeclarators,
      (gainLogic n.MayDeclare).Obeys q.phrase :=
    fun q hq => (initiates_of_readInPlace (hread ▸ hq)).obeys_of_initiates
  have hdeclare : n.clause.declareFunctionDef.Exports n.MayDeclare (n.definedName? = some ·) :=
    .declareFunctionDef (fun m hm => hreads m (by simp [hm])) (fun q hq => hreads q (by simp [hq]))
      fun name hname => .inl ((hnames name).mpr hname)
  have hbody := L.declareFunctionDef_yields (L.anyFunctionParts trivial n)
  have hcheck := hdeclare.seq (E := fun _ => False) hbody fun b hb =>
    .of_gains (Check.Gains.checkBody hb) fun _ => id
  exact hcheck.mono (fun _ => id) fun name hname => .inl ((hnames name).mp hname)

/-- An expression. Nothing that declares names is one. -/
theorem exports_expression (n : Node) :
    n.phrase.roles.expression.Exports n.MayDeclare (· ∈ n.declaredNames) := by
  -- The rules by which a tree declares names, or is read only in part, are no rules of expressions.
  by_cases hrule : n.rule = .simpleDecl ∨ n.rule = .conditionDecl ∨ n.rule = .functionDef ∨
      n.rule = .constructorDef
  · have hfault : n.clause.expression = n.clause.unexpected "expression" := by
      unfold Clause.expression
      rw [show n.clause.rule = n.rule from rfl]
      rcases hrule with hrule | hrule | hrule | hrule <;> rw [hrule] <;> rfl
    rw [n.phrase_roles_eq]
    change n.clause.expression.Exports _ _
    rw [hfault]
    exact .fault _
  · simp only [not_or] at hrule
    have hread : n ∈ n.readInPlace := by
      unfold readInPlace
      split <;> simp_all
    have hnames : n.declaredNames = [] := by
      unfold declaredNames
      split <;> simp_all
    refine .of_gains ((initiates_of_readInPlace hread).self.expression True) fun name hname => ?_
    simp [hnames] at hname

/-- A condition. -/
theorem exports_condition (n : Node) (kind : ConditionKind) :
    (n.phrase.condition kind).Exports n.MayDeclare (· ∈ n.declaredNames) := by
  have htype : n.phrase.conditionType.Exports n.MayDeclare (· ∈ n.declaredNames) := by
    by_cases hrule : n.rule = .conditionDecl
    · have hread : n ∈ n.readInPlace := by simp [readInPlace, hrule]
      have hnames : ∀ name,
          name ∈ n.declaredNames ↔ (n.child? 1).bind declaredName? = some name := by
        simp [declaredNames, hrule]
      have hdeclares := Check.Exports.conditionType hrule (initiates_of_readInPlace hread)
        fun name hname => .inl ((hnames name).mpr hname)
      exact hdeclares.mono (fun _ => id) fun name => (hnames name).mp
    · unfold Phrase.conditionType
      rw [n.phrase_rule, if_neg hrule]
      exact n.exports_expression
  unfold Phrase.condition
  refine htype.before fun ty => ?_
  split
  · exact .ret _
  · exact .report _ _

end Node

/-! ### Statements -/

/-- The sequences of statements or declarations. -/
def Rule.isSequence : Rule → Bool
  | .statementSeqStart | .statementSeq | .declSeq => true
  | _ => false

/-- The statements that are made of statements. -/
def Rule.isStructured : Rule → Bool
  | .compound | .ifThen | .ifElse | .switchOn | .whileLoop | .doWhileLoop | .forLoop
  | .caseLabel | .defaultLabel | .statementSeqStart | .statementSeq | .declSeq => true
  | _ => false

namespace Rule

variable {rule : Rule}

/-- Sequences are made of statements. -/
theorem isStructured_of_isSequence (h : rule.isSequence = true) : rule.isStructured = true := by
  cases rule <;> first | rfl | cases h

/-- Sequences open no scope. -/
theorem opensScope_of_isSequence (h : rule.isSequence = true) : rule.opensScope = false := by
  cases rule <;> first | rfl | cases h

/-- What is made of statements is a statement or a declaration. -/
theorem category_of_isStructured (h : rule.isStructured = true) :
    rule.category = .statement ∨ rule.category = .declaration := by
  cases rule <;> first | exact .inl rfl | exact .inr rfl | cases h

/-- What opens a scope is made of statements. -/
theorem opensScope_of_not_isStructured (h : rule.isStructured = false) :
    rule.opensScope = false := by
  cases rule <;> first | rfl | cases h

end Rule

/-- The tree stands in place in a statement: no scope is opened between the two. -/
inductive Node.InPlace (k : Node) : Node → Prop
  | self : k.rule.isStructured = false → InPlace k k
  | item {n m : Node} : n.rule.isSequence = true → m ∈ n.items → InPlace k m → InPlace k n
  | body {n m : Node} : n.rule = .doWhileLoop → n.child? 0 = some m → InPlace k m → InPlace k n
  | condition {n : Node} : n.rule = .doWhileLoop → n.child? 1 = some k → InPlace k n
  | label {n : Node} : n.rule = .caseLabel → n.child? 0 = some k → InPlace k n
  | labelled {n m : Node} : n.rule = .caseLabel → n.child? 1 = some m → InPlace k m → InPlace k n
  | otherwise {n m : Node} : n.rule = .defaultLabel → n.child? 0 = some m → InPlace k m →
      InPlace k n

namespace Node

variable {n m k : Node}

/-- The names that a statement may bind in the scope around it. -/
def MayExport (n : Node) (name : String) : Prop := ∃ k : Node, k.InPlace n ∧ k.MayDeclare name

/-- The names that a statement binds in the scope around it, unless they are bound before. -/
def DoesExport (n : Node) (name : String) : Prop := ∃ k : Node, k.InPlace n ∧ name ∈ k.declaredNames

namespace InPlace

/-- Nothing stands in place in a statement that opens a scope. -/
theorem opensScope (h : k.InPlace n) : n.rule.opensScope = false := by
  cases h with
  | self hrule => exact Rule.opensScope_of_not_isStructured hrule
  | item hrule => exact Rule.opensScope_of_isSequence hrule
  | body hrule | condition hrule | label hrule | labelled hrule | otherwise hrule =>
    rw [hrule]
    rfl

/-- Only a tree itself stands in place in it if it is not made of statements. -/
theorem eq (h : k.InPlace n) (hrule : n.rule.isStructured = false) : k = n := by
  cases h with
  | self => rfl
  | item hsequence => simp [Rule.isStructured_of_isSequence hsequence] at hrule
  | _ => simp_all [Rule.isStructured]

/-- What stands in place in a sequence does so in one of its items. -/
theorem of_sequence (h : k.InPlace n) (hrule : n.rule.isSequence = true) :
    ∃ m ∈ n.items, k.InPlace m := by
  cases h with
  | item _ hm hk => exact ⟨_, hm, hk⟩
  | self hself => simp [Rule.isStructured_of_isSequence hrule] at hself
  | _ => simp_all [Rule.isSequence]

/-- What stands in place in a loop with its condition at the end. -/
theorem of_doWhileLoop (h : k.InPlace n) (hrule : n.rule = .doWhileLoop) :
    (∃ m, n.child? 0 = some m ∧ k.InPlace m) ∨ n.child? 1 = some k := by
  cases h with
  | body _ hm hk => exact .inl ⟨_, hm, hk⟩
  | condition _ hk => exact .inr hk
  | _ => simp_all [Rule.isStructured, Rule.isSequence]

/-- What stands in place in a statement with a case label. -/
theorem of_caseLabel (h : k.InPlace n) (hrule : n.rule = .caseLabel) :
    n.child? 0 = some k ∨ ∃ m, n.child? 1 = some m ∧ k.InPlace m := by
  cases h with
  | label _ hk => exact .inl hk
  | labelled _ hm hk => exact .inr ⟨_, hm, hk⟩
  | _ => simp_all [Rule.isStructured, Rule.isSequence]

/-- What stands in place in a statement with a default label. -/
theorem of_defaultLabel (h : k.InPlace n) (hrule : n.rule = .defaultLabel) :
    ∃ m, n.child? 0 = some m ∧ k.InPlace m := by
  cases h with
  | otherwise _ hm hk => exact ⟨_, hm, hk⟩
  | _ => simp_all [Rule.isStructured, Rule.isSequence]

end InPlace

end Node

namespace Check.Gains

/-- Looking at the state. -/
theorem get : Check.Gains N (MonadState.get : Check Checker) := by
  refine of_bound fun s a s' hrun => ?_
  cases hrun
  rfl

/-- A return. -/
theorem returnStatement {c : Clause}
    (hvalue : ∀ r, c.part? 0 = some r → r.roles.expression.Gains N) :
    c.returnStatement.Gains N := by
  have hreturned : ∀ value position, (Clause.checkReturned value position).Gains N := by
    intro value position
    refine get.bind fun s => ?_
    split
    · exact report _ _
    next expected _ =>
      exact ReadingLogic.Idle.looks (L := gainLogic N) (.checkReturn expected value position) True
  unfold Clause.returnStatement
  split
  next r hr => exact (hvalue r hr).bind fun ty => hreturned _ _
  next => exact hreturned _ _

end Check.Gains

namespace Check.Exports

variable {n m k : Node} {α : Type} {x : Check α}

/-- What a tree in place does to the scope around the statement. -/
theorem inPlace (hk : k.InPlace n) (hx : x.Exports k.MayDeclare D) : x.Exports n.MayExport D :=
  hx.mono (fun _ hname => ⟨k, hk, hname⟩) fun _ => id

/-- What a part does to the scope around the statement. -/
theorem within (hx : x.Exports m.MayExport D) (hm : ∀ k : Node, k.InPlace m → k.InPlace n) :
    x.Exports n.MayExport D := by
  refine hx.mono ?_ fun _ => id
  rintro name ⟨k, hk, hname⟩
  exact ⟨k, hm k hk, hname⟩

/-- A step and then a change of the state that leaves the table as it is. -/
theorem afterwards {y : Check Unit} {leave : Checker → Checker} (hy : y.Exports N D)
    (hleave : ∀ s, (leave s).symbols = s.symbols) : (Check.afterwards y leave).Exports N D := by
  constructor
  · intro s a s' hrun
    obtain ⟨s₁, hbody, rfl⟩ := exists_of_afterwards hrun
    rw [hleave]
    exact hy.gains s a s₁ hbody
  · intro s a s' hrun hcls name hname
    obtain ⟨s₁, hbody, rfl⟩ := exists_of_afterwards hrun
    rw [hleave]
    exact hy.binds s a s₁ hbody hcls name hname

/-- The body of a loop. -/
theorem loopBody {body : Phrase} (hbody : body.roles.statement.Exports N D) :
    body.loopBody.Exports N D :=
  next (.change fun _ => rfl) fun _ => hbody.afterwards fun _ => rfl

/-- A jump that may have nothing to apply to, and then another step. -/
theorem jump {c : Checker → Prop} [DecidablePred c] {text : String} {position : Position}
    (hx : x.Exports N D) : Check.Exports N D (do
      if c (← MonadState.get) then illegalJump text position
      x) := by
  refine next .get fun s => ?_
  split
  · exact next (.report _ _) fun _ => hx
  · exact hx

/-- What the child in a slot does. -/
theorem of_child {i : Nat} {D : Node → String → Prop} (hm : n.child? i = some m)
    (hx : x.Exports N (D m)) : x.Exports N fun name => ∃ m, n.child? i = some m ∧ D m name := by
  refine hx.mono (fun _ => id) ?_
  rintro name ⟨m', hm', hname⟩
  rw [hm] at hm'
  cases hm'
  exact hname

/-- An optional statement. -/
theorem optional {i : Nat}
    (hm : ∀ m, n.child? i = some m → m.phrase.roles.statement.Exports N m.DoesExport) :
    (checkStatement? (n.clause.part? i)).Exports N fun name =>
      ∃ m, n.child? i = some m ∧ m.DoesExport name := by
  rw [n.clause_part?]
  cases hchild : n.child? i with
  | none =>
    refine of_gains (.ret _) ?_
    rintro name ⟨m, hm, -⟩
    cases hm
  | some m =>
    have hstatement := of_child (D := Node.DoesExport) hchild (hm m hchild)
    rw [hchild] at hstatement
    exact hstatement

/-- A tree that is not made of statements. -/
theorem unstructured (hrule : n.rule.isStructured = false)
    (hx : x.Exports n.MayDeclare (· ∈ n.declaredNames)) : x.Exports n.MayExport n.DoesExport := by
  refine (hx.inPlace (.self hrule)).mono (fun _ => id) ?_
  rintro name ⟨k, hk, hname⟩
  rwa [hk.eq hrule] at hname

/-- The items of a sequence. -/
theorem sequence {f : Phrase → Check Unit} (hrule : n.rule.isSequence = true)
    (hitems : ∀ m ∈ n.items, (f m.phrase).Exports m.MayExport m.DoesExport) :
    (n.clause.items.forM f).Exports n.MayExport n.DoesExport := by
  have hmap : n.clause.items.forM f = n.items.forM fun m => f m.phrase := by
    rw [n.clause_items]
    exact List.forM_map ..
  have heach := forM fun m hm => (hitems m hm).within fun k hk => .item hrule hm hk
  rw [hmap]
  refine heach.mono (fun _ => id) ?_
  rintro name ⟨k, hk, hname⟩
  obtain ⟨m, hm, hkm⟩ := hk.of_sequence hrule
  exact ⟨m, hm, k, hkm, hname⟩

end Check.Exports

namespace Node

/-- As a statement and as a declaration, the tree exports what is declared in place. -/
structure ExportsInPlace (n : Node) : Prop where
  statement : n.phrase.roles.statement.Exports n.MayExport n.DoesExport
  declaration : n.phrase.roles.declaration.Exports n.MayExport n.DoesExport

section Statements

open Check.Exports

variable {n : Node} (ih : ∀ m : Node, sizeOf m < sizeOf n → m.ExportsInPlace)

/-- A statement that opens a scope. -/
theorem exports_scoped (hrule : n.rule.opensScope = true) :
    n.phrase.roles.statement.Exports n.MayExport n.DoesExport := by
  obtain ⟨body, hbody, hsound⟩ :=
    bindingsLogic.toStepLogic.scopedStatement (n := n) (.inl trivial) hrule
  replace hbody : n.phrase.roles.statement = inScope .block body := hbody
  rw [hbody]
  refine of_gains (.inScope (hsound True)) ?_
  rintro name ⟨k, hk, -⟩
  rw [hk.opensScope] at hrule
  cases hrule

/-- A jump. -/
theorem exports_jump (hrule : n.rule = .breakJump ∨ n.rule = .continueJump ∨ n.rule = .returnJump)
    {x : Check Unit} (hx : x.Gains n.MayDeclare) : x.Exports n.MayExport n.DoesExport := by
  have hstructured : n.rule.isStructured = false := by
    rcases hrule with hrule | hrule | hrule <;> rw [hrule] <;> rfl
  have hnames : n.declaredNames = [] := by
    rcases hrule with hrule | hrule | hrule <;> rw [declaredNames, hrule]
  refine unstructured hstructured (of_gains hx fun name hname => ?_)
  simp [hnames] at hname

include ih

/-- A loop with its condition at the end. -/
theorem exports_doWhileStatement (hrule : n.rule = .doWhileLoop) :
    n.clause.doWhileStatement.Exports n.MayExport n.DoesExport := by
  unfold Clause.doWhileStatement
  refine part fun body hbody => ?_
  have hloop : body.phrase.loopBody.Exports n.MayExport body.DoesExport :=
    loopBody ((ih body (sizeOf_child hbody)).statement.within fun _ => .body hrule hbody)
  have htest : Check.Exports n.MayExport
      (fun name => ∃ test, n.child? 1 = some test ∧ name ∈ test.declaredNames)
      (do (← n.clause.part 1).condition .truth) := by
    refine part fun test htest => of_child (D := fun m name => name ∈ m.declaredNames) htest ?_
    exact (test.exports_condition .truth).inPlace (.condition hrule htest)
  refine (hloop.bind fun _ => htest).mono (fun _ => id) ?_
  rintro name ⟨k, hk, hname⟩
  rcases hk.of_doWhileLoop hrule with ⟨m, hm, hkm⟩ | hk
  · rw [hbody] at hm
    cases hm
    exact .inl ⟨k, hkm, hname⟩
  · exact .inr ⟨k, hk, hname⟩

/-- A statement with a case label. -/
theorem exports_caseLabel (hrule : n.rule = .caseLabel) :
    n.clause.caseLabel.Exports n.MayExport n.DoesExport := by
  have hstatement : (checkStatement? (n.clause.part? 1)).Exports n.MayExport fun name =>
      ∃ m, n.child? 1 = some m ∧ m.DoesExport name :=
    optional fun m hm => (ih m (sizeOf_child hm)).statement.within fun _ => .labelled hrule hm
  refine jump (part fun label hlabel => ?_)
  have hlabelled := label.exports_expression.inPlace (.label hrule hlabel)
  refine mono (hlabelled.bind (E := fun name => ∃ m, n.child? 1 = some m ∧ m.DoesExport name)
    fun ty => ?_) (fun _ => id) ?_
  · refine next ?_ fun _ => hstatement
    unfold checkIntegral
    split
    · exact .ret _
    · exact .report _ _
  · rintro name ⟨k, hk, hname⟩
    rcases hk.of_caseLabel hrule with hk | ⟨m, hm, hkm⟩
    · rw [hlabel] at hk
      cases hk
      exact .inl hname
    · exact .inr ⟨m, hm, k, hkm, hname⟩

/-- A statement with a default label. -/
theorem exports_defaultLabel (hrule : n.rule = .defaultLabel) :
    n.clause.defaultLabel.Exports n.MayExport n.DoesExport := by
  have hstatement : (checkStatement? (n.clause.part? 0)).Exports n.MayExport fun name =>
      ∃ m, n.child? 0 = some m ∧ m.DoesExport name :=
    optional fun m hm => (ih m (sizeOf_child hm)).statement.within fun _ => .otherwise hrule hm
  refine jump (hstatement.mono (fun _ => id) ?_)
  rintro name ⟨k, hk, hname⟩
  obtain ⟨m, hm, hkm⟩ := hk.of_defaultLabel hrule
  exact ⟨m, hm, k, hkm, hname⟩

/-- A declaration. -/
theorem exports_declaration : n.phrase.roles.declaration.Exports n.MayExport n.DoesExport := by
  rw [n.phrase_roles_eq]
  change n.clause.declaration.Exports n.MayExport n.DoesExport
  unfold Clause.declaration
  split
  next hrule =>
    refine sequence (congrArg Rule.isSequence hrule) fun m hm => ?_
    exact (ih m (sizeOf_items hm)).declaration
  next hrule =>
    exact unstructured (congrArg Rule.isStructured hrule) (exports_simpleDeclaration hrule)
  next hrule =>
    exact unstructured (congrArg Rule.isStructured hrule) (exports_functionDefinition (.inl hrule))
  next hrule =>
    exact unstructured (congrArg Rule.isStructured hrule) (exports_functionDefinition (.inr hrule))
  next => exact fault _

/-- A statement. -/
theorem exports_statement : n.phrase.roles.statement.Exports n.MayExport n.DoesExport := by
  by_cases hscope : n.rule.opensScope = true
  · exact exports_scoped hscope
  have hitems : n.rule.isSequence = true →
      (n.clause.items.forM fun item => item.roles.statement).Exports n.MayExport n.DoesExport :=
    fun hrule => sequence hrule fun m hm => (ih m (sizeOf_items hm)).statement
  have hdeclaration := exports_declaration ih
  rw [n.phrase_roles_eq] at hdeclaration ⊢
  change (n.clause.statement n.clause.expression n.clause.declaration).Exports
    n.MayExport n.DoesExport
  unfold Clause.statement
  split
  next hrule => exact absurd (congrArg Rule.opensScope hrule) hscope
  next hrule => exact hitems (congrArg Rule.isSequence hrule)
  next hrule => exact hitems (congrArg Rule.isSequence hrule)
  next hrule => exact absurd (congrArg Rule.opensScope hrule) hscope
  next hrule => exact absurd (congrArg Rule.opensScope hrule) hscope
  next hrule => exact absurd (congrArg Rule.opensScope hrule) hscope
  next hrule => exact absurd (congrArg Rule.opensScope hrule) hscope
  next hrule => exact exports_doWhileStatement ih hrule
  next hrule => exact absurd (congrArg Rule.opensScope hrule) hscope
  next hrule => exact exports_caseLabel ih hrule
  next hrule => exact exports_defaultLabel ih hrule
  next hrule =>
    refine exports_jump (.inl hrule) (Check.Gains.get.bind fun s => ?_)
    split
    · exact .report _ _
    · exact .ret _
  next hrule =>
    refine exports_jump (.inr (.inl hrule)) (Check.Gains.get.bind fun s => ?_)
    split
    · exact .report _ _
    · exact .ret _
  next hrule =>
    replace hrule : n.rule = .returnJump := hrule
    have hread : n ∈ n.readInPlace := by simp [readInPlace, hrule]
    refine exports_jump (.inr (.inr hrule)) (.returnStatement fun r hr => ?_)
    rw [← n.phrase_clause] at hr
    exact ((initiates_of_readInPlace hread).part hr).self.expression True
  next =>
    -- Only declarations and expressions are statements as they stand.
    split
    any_goals exact fault _
    · exact hdeclaration
    · have hstructured : n.clause.rule.isStructured = false := by
        refine Bool.eq_false_iff.mpr fun hrule => ?_
        rcases Rule.category_of_isStructured hrule with hcategory | hcategory <;> contradiction
      have hexpression := n.exports_expression
      rw [n.phrase_roles_eq] at hexpression
      exact unstructured hstructured (hexpression.before fun _ => .ret _)

end Statements

/-- Every tree exports what is declared in place. -/
theorem exportsInPlace (n : Node) : n.ExportsInPlace := by
  have ih : ∀ m : Node, sizeOf m < sizeOf n → m.ExportsInPlace := fun m _ => exportsInPlace m
  exact ⟨exports_statement ih, exports_declaration ih⟩
termination_by sizeOf n

/-- What loops leave behind. A loop with its condition in front leaves everything bound as it was,
and so does a loop with its condition at the end in which no name may be declared in place. In any
case only the innermost scope gains names, and only such as were not bound in it and may be declared
in place. Outside of a class body, it then binds every name that is declared in place. -/
theorem checkStatement_loop_bound {n : Node} {s s' : Checker}
    (hloop : n.rule = .whileLoop ∨ n.rule = .forLoop ∨ n.rule = .doWhileLoop)
    (h : n.checkStatement s = .ok () s') :
    ((n.rule = .doWhileLoop → ∀ name, ¬ n.MayExport name) → s'.symbols.bound = s.symbols.bound) ∧
      ∃ added : Bindings,
        s'.symbols.bound =
          (s.symbols.current.kind, added ++ s.symbols.current.bindings) :: s.symbols.bound.tail ∧
        (∀ b ∈ added, s.symbols.current.bindings.lookup b.1 = none ∧ n.MayExport b.1) ∧
        (s.symbols.current.cls? = none → ∀ name, n.DoesExport name →
          ((added ++ s.symbols.current.bindings).lookup name).isSome) := by
  have hexports := n.exportsInPlace.statement
  obtain ⟨added, hbound, hadded⟩ := hexports.gains s () s' h
  refine ⟨fun hnone => ?_, added, hbound, fun b hb => (hadded b hb).symm, fun hcls name hname => ?_⟩
  · have hscope : n.rule ≠ .doWhileLoop → ∀ name, ¬ n.MayExport name := by
      rintro hrule name ⟨k, hk, -⟩
      have hopens := hk.opensScope
      rcases hloop with hloop | hloop | hloop
      · simp [hloop, Rule.opensScope] at hopens
      · simp [hloop, Rule.opensScope] at hopens
      · exact hrule hloop
    have hempty : added = [] := by
      refine List.eq_nil_iff_forall_not_mem.mpr fun b hb => ?_
      by_cases hrule : n.rule = .doWhileLoop
      · exact hnone hrule b.1 (hadded b hb).1
      · exact hscope hrule b.1 (hadded b hb).1
    rw [hbound, hempty, List.nil_append, s.symbols.bound_eq, List.tail_cons]
  · have hafter := hexports.binds s () s' h hcls name hname
    rw [s'.symbols.bound_eq] at hbound
    rwa [(Prod.mk.inj (List.cons.inj hbound).1).2] at hafter

/-- The loop with the given body, and the condition `int x = 1` at the end. -/
def declaringLoop (body : Node) : Node :=
  let test := tree .conditionDecl [word .intType "int", word .identifier "x", word .intConst "1"]
  { rule := .doWhileLoop, children := [some body, test] }

/-- The declaration `int y;`. -/
def declaringBody : Node :=
  { rule := .simpleDecl
    children := [word .intType "int", word .identifier "y"] }

/-- Behind `do int y; while (int x = 1);`, both names are bound. -/
theorem checkStatement_declaringBody :
    ∃ s' : Checker, (declaringLoop declaringBody).checkStatement {} = .ok () s' ∧
      ∃ added : Bindings, s'.symbols.bound = [(.global, added)] ∧
        (added.lookup "x").isSome ∧ (added.lookup "y").isSome := by
  have hrun : ∃ s' : Checker, (declaringLoop declaringBody).checkStatement {} = .ok () s' :=
    ⟨_, rfl⟩
  obtain ⟨s', hrun⟩ := hrun
  obtain ⟨-, added, hbound, -, hall⟩ := checkStatement_loop_bound (.inr (.inr rfl)) hrun
  refine ⟨s', hrun, added ++ [], hbound, hall rfl "x" ?_, hall rfl "y" ?_⟩
  · exact ⟨_, .condition rfl rfl, List.mem_singleton_self "x"⟩
  · exact ⟨_, .body rfl rfl (.self rfl), List.mem_singleton_self "y"⟩

/-- The statement `{}`. -/
def emptyBody : Node := { rule := .compound, children := [none] }

/-- The loop `do {} while (int x = 1);` is a statement without any problem, and leaves its variable
bound in the scope around it. -/
theorem checkStatement_emptyBody :
    (declaringLoop emptyBody).conforms .statement = true ∧
      ∃ s' : Checker, (declaringLoop emptyBody).checkStatement {} = .ok () s' ∧
        s'.diagnostics = [] ∧ ({} : Checker).symbols.bound = [(.global, [])] ∧
        s'.symbols.bound = [(.global, [("x", .int)])] :=
  ⟨rfl, _, rfl, rfl, rfl, rfl⟩

end Node

end CWithClasses
