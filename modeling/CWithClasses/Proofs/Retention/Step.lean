import CWithClasses.Proofs.Retention.Table

/-!
# What a check leaves alone, step by step

`Check.Retaining` says of a step that it keeps all of an earlier state, in scopes of given kinds.
Every step does so. Inside of a function, it also leaves the scopes around and the complete classes
as they are: names are bound and classes are recorded in the scopes of the function, and only
classes that are not complete are opened. So the steps of a check form a logic, for a function that
is being checked as well as for a program.
-/

namespace CWithClasses

open Check

/-- In scopes of the given kinds, the step keeps all of the earlier state, and its result satisfies
a condition. -/
def Check.Retaining {α : Type} (s₀ : Checker) (strict : Prop) (inner : List FrameKind)
    (returns : List Ty) (x : Check α) (Q : α → Prop) : Prop :=
  ∀ s a s', s₀.Retains strict inner returns s → x s = .ok a s' →
    s₀.Retains strict inner returns s' ∧ Q a

/-- Wherever steps may be made, this one keeps all of the earlier state. -/
def Check.Retentive {α : Type} (s₀ : Checker) (strict : Prop) (x : Check α) : Prop :=
  ∀ inner returns, (strict → s₀.symbols.Admits inner) →
    x.Retaining s₀ strict inner returns fun _ => True

namespace Check.Retaining

variable {α β : Type} {s₀ : Checker} {strict : Prop} {inner : List FrameKind} {returns : List Ty}

/-- A step that only has a result. -/
theorem ret {a : α} {Q : α → Prop} (h : Q a) : Retaining s₀ strict inner returns (pure a) Q := by
  intro s b s' hs hrun
  cases hrun
  exact ⟨hs, h⟩

/-- A fault has no result. -/
theorem fault (e : Fault) (Q : α → Prop) : Retaining s₀ strict inner returns (throw e) Q := by
  intro s b s' hs hrun
  cases hrun

/-- One step after another. -/
theorem bind {x : Check α} {f : α → Check β} {P : α → Prop} {Q : β → Prop}
    (hx : Retaining s₀ strict inner returns x P)
    (hf : ∀ a, P a → Retaining s₀ strict inner returns (f a) Q) :
    Retaining s₀ strict inner returns (x >>= f) Q := by
  intro s b s' hs hrun
  obtain ⟨a, s₁, hfirst, hsecond⟩ := exists_of_bind hrun
  obtain ⟨hs₁, ha⟩ := hx s a s₁ hs hfirst
  exact hf a ha s₁ b s' hs₁ hsecond

/-- The same kind of step for each entry of a list. -/
theorem forM {xs : List α} {f : α → Check PUnit}
    (h : ∀ x ∈ xs, Retaining s₀ strict inner returns (f x) fun _ => True) :
    Retaining s₀ strict inner returns (xs.forM f) fun _ => True := by
  induction xs with
  | nil => exact ret trivial
  | cons x xs ih =>
    exact (h x List.mem_cons_self).bind fun _ _ => ih fun y hy => h y (List.mem_cons_of_mem _ hy)

/-- A step that depends on the symbol table. -/
theorem onSymbols {k : SymbolTable → Check α} {Q : α → Prop}
    (hk : ∀ t, Retaining s₀ strict inner returns (k t) Q) :
    Retaining s₀ strict inner returns (symbols >>= k) Q :=
  fun s => hk s.symbols s

/-- A change of the state. -/
theorem change {f : Checker → Checker}
    (h : ∀ s, s₀.Retains strict inner returns s → s₀.Retains strict inner returns (f s)) :
    Retaining s₀ strict inner returns (modify f) fun _ => True := by
  intro s a s' hs hrun
  cases hrun
  exact ⟨h s hs, trivial⟩

/-- A change of the symbol table. -/
theorem table {f : SymbolTable → SymbolTable}
    (h : ∀ t, s₀.symbols.Retains strict inner t → s₀.symbols.Retains strict inner (f t)) :
    Retaining s₀ strict inner returns (modifySymbols f) fun _ => True :=
  change fun _ hs => hs.withSymbols (h _ hs.symbols)

/-- Another access region. -/
theorem setAccess (hadmits : strict → s₀.symbols.Admits inner) (access : Access) :
    Retaining s₀ strict inner returns (modifySymbols (·.setAccess access)) fun _ => True :=
  table fun _ ht => ht.setAccess hadmits access

/-- Adding an event to the log. -/
theorem log (e : Event) : Retaining s₀ strict inner returns (Check.log e) fun _ => True :=
  change fun _ hs => ⟨hs.symbols, hs.resolutions, hs.returns, hs.held⟩

/-- Recording the type of a use of a name. -/
theorem resolve (name : String) (position : Position) (ty : Ty) :
    Retaining s₀ strict inner returns (Check.resolve name position ty) fun _ => True :=
  change fun _ hs =>
    ⟨hs.symbols, hs.resolutions.trans (List.prefix_append _ _), hs.returns, hs.held⟩

/-- Recording a problem. -/
theorem report (e : Problem) (position : Position) :
    Retaining s₀ strict inner returns (Check.report e position) fun _ => True :=
  change fun _ hs => hs.reported _

/-- Binding a name. -/
theorem declare (hadmits : strict → s₀.symbols.Admits inner) (name : String)
    (position : Position) (ty : Ty) :
    Retaining s₀ strict inner returns (Check.declare name position ty) fun _ => True := by
  intro s a s' hs hrun
  unfold Check.declare at hrun
  rw [bind_symbols] at hrun
  cases hinsert : s.symbols.insert name ty with
  | error e =>
    rw [hinsert] at hrun
    exact report e position s a s' hs hrun
  | ok t =>
    rw [hinsert] at hrun
    cases hrun
    exact ⟨hs.withSymbols (hs.symbols.insert hadmits hinsert), trivial⟩

/-- Making a class, which was not complete before. -/
theorem newClass (hadmits : strict → s₀.symbols.Admits inner) (name : String) :
    Retaining s₀ strict inner returns (Check.newClass name) fun c =>
      strict → s₀.symbols.isComplete c = false := by
  intro s c s' hs hrun
  cases hrun
  refine ⟨hs.withSymbols (hs.symbols.newClass hadmits name), fun _ => ?_⟩
  change (s₀.symbols.classes[s.symbols.classes.size]?.getD {}).complete = false
  rw [Array.getElem?_eq_none hs.symbols.size_le]
  rfl

/-- Making a function. -/
theorem newFunction (result : Ty) (params : List Ty) (required : Nat) :
    Retaining s₀ strict inner returns (Check.newFunction result params required) fun _ => True := by
  intro s ty s' hs hrun
  cases hrun
  exact ⟨hs.withSymbols hs.symbols.newFunction, trivial⟩

variable (hs₀ : s₀.Settled)

include hs₀

/-- Letting go of a frame that records only late classes. -/
theorem discard {f : Frame} (hf : f.Late s₀.symbols.classes.size) :
    Retaining s₀ strict inner returns (Check.discard (some f)) fun _ => True :=
  change fun _ hs => hs.discard hs₀ hf

/-- Giving a function the scope of its body. -/
theorem attachScope (b : FunctionBody) (f : FunctionTy) {frame : Frame}
    (hframe : frame.Late s₀.symbols.classes.size) :
    Retaining s₀ strict inner returns (b.attachScope f (some frame)) fun _ => True := by
  intro s _ s' hs hrun
  rcases b.attachScope_cases hrun with ⟨-, _, t, ⟨⟩, hdefine, rfl⟩ | ⟨s₁, hdiscard, hs'⟩
  · exact ⟨hs.withSymbols (hs.symbols.define hframe hdefine), trivial⟩
  · obtain ⟨hs₁, -⟩ := discard hs₀ hframe s _ s₁ hs hdiscard
    rw [hs']
    exact ⟨⟨hs₁.symbols, hs₁.resolutions, hs₁.returns, hs₁.held⟩, trivial⟩

omit hs₀

/-- A step in a scope of its own. What the scope records was made in it. -/
theorem bracket {kind : FrameKind} {x : Check α} {Q : α → Prop}
    (hx : Retaining s₀ strict (kind :: inner) returns x Q) :
    Retaining s₀ strict inner returns (Check.bracket kind x) fun r =>
      Q r.1 ∧ ∃ f, r.2 = some f ∧ Frame.Extends s₀.symbols.classes.size { kind } f := by
  intro s r s' hs hrun
  obtain ⟨_, s₁, hopen, hrest⟩ := exists_of_bind hrun
  cases hopen
  obtain ⟨a, s₂, hinside, hclose⟩ := exists_of_bind hrest
  obtain ⟨hs₂, ha⟩ := hx _ a s₂ (hs.opened kind) hinside
  obtain ⟨rest, hpop, htable⟩ := hs₂.symbols.pop
  rw [bind_ok (popScope_eq hpop)] at hclose
  cases hclose
  exact ⟨⟨htable, hs₂.resolutions, hs₂.returns, hs₂.held⟩, ha, _, rfl, hs₂.symbols.current⟩

/-- A step in a scope that is closed for good afterwards. -/
theorem closing (hs₀ : s₀.Settled) {kind : FrameKind} {x : Check α}
    (hx : Retaining s₀ strict (kind :: inner) returns x fun _ => True) :
    Retaining s₀ strict inner returns (do
      let (a, frame) ← Check.bracket kind x
      Check.discard frame
      return a) fun _ => True := by
  refine hx.bracket.bind ?_
  rintro ⟨a, frame⟩ ⟨-, f, rfl, hf⟩
  exact (discard hs₀ hf.late_of_new).bind fun _ _ => ret trivial

/-- A step inside of a function. -/
theorem inFunction (result : Ty) {x : Check Unit}
    (hx : Retaining s₀ strict inner (result :: returns) x fun _ => True) :
    Retaining s₀ strict inner returns (Check.inFunction result x) fun _ => True := by
  intro s a s' hs hrun
  obtain ⟨_, s₁, henter, hrest⟩ := exists_of_bind hrun
  cases henter
  obtain ⟨_, s₂, hinside, hleave⟩ := exists_of_bind hrest
  cases hleave
  have hentered : s₀.Retains strict inner (result :: returns) (s.enterFunction result) :=
    ⟨hs.symbols, hs.resolutions, congrArg (result :: ·) hs.returns, hs.held⟩
  obtain ⟨hs₂, -⟩ := hx _ _ s₂ hentered hinside
  have hreturns : s₂.returns.tail = returns ++ s₀.returns := by rw [hs₂.returns]; rfl
  exact ⟨⟨hs₂.symbols, hs₂.resolutions, hreturns, hs₂.held⟩, trivial⟩

/-- A step inside of loops and switches. -/
theorem nested (loops switches : Nat) {x : Check Unit}
    (hx : Retaining s₀ strict inner returns x fun _ => True) :
    Retaining s₀ strict inner returns (Check.nested loops switches x) fun _ => True := by
  intro s a s' hs hnest
  obtain ⟨s₁, hrun, rfl⟩ := exists_of_nested hnest
  have hnested : s₀.Retains strict inner returns (s.nested loops switches) :=
    ⟨hs.symbols, hs.resolutions, hs.returns, hs.held⟩
  obtain ⟨hs₁, -⟩ := hx _ a s₁ hnested hrun
  exact ⟨⟨hs₁.symbols, hs₁.resolutions, hs₁.returns, hs₁.held⟩, trivial⟩

end Check.Retaining

namespace Check.Retentive

variable {s₀ : Checker} {strict : Prop} {α : Type}

/-- Binding the parameters of a function. -/
theorem bindParameters (params : List Parameter) (types : List Ty) :
    Retentive s₀ strict (FunctionBody.bindParameters params types) := by
  intro inner returns hadmits
  refine .forM fun entry _ => ?_
  dsimp only
  split
  · exact .declare hadmits _ _ _
  · exact .ret trivial

/-- The statements of a function, whose scope admits steps, whatever is around it. -/
theorem statements {b : FunctionBody} (hrun : Retentive s₀ strict b.run) (f : FunctionTy)
    (inner : List FrameKind) (returns : List Ty) :
    (b.checkStatements f).Retaining s₀ strict (.function :: inner) returns fun _ => True := by
  have hadmits : s₀.symbols.Admits (.function :: inner) := .of_ne (fun c hc => by cases hc) inner
  rw [b.checkStatements_eq]
  exact .bind (bindParameters _ _ _ _ fun _ => hadmits) fun _ _ =>
    .inFunction _ (hrun _ _ fun _ => hadmits)

/-- The scope of a function is handed over. -/
theorem scope {b : FunctionBody} (hrun : Retentive s₀ strict b.run) (f : FunctionTy)
    (inner : List FrameKind) (returns : List Ty) :
    (b.scope f).Retaining s₀ strict inner returns fun frame =>
      ∃ g, frame = some g ∧ g.Late s₀.symbols.classes.size := by
  have hlate : ∀ {frame : Option Frame},
      (∃ g, frame = some g ∧ Frame.Extends s₀.symbols.classes.size { kind := .function } g) →
      ∃ g, frame = some g ∧ g.Late s₀.symbols.classes.size :=
    fun ⟨g, hg, hext⟩ => ⟨g, hg, hext.late_of_new⟩
  unfold FunctionBody.scope
  cases b.cls with
  | none => exact .bind (.bracket (statements hrun f _ _)) fun r hr => .ret (hlate hr.2)
  | some c =>
    exact .bind (.bracket (.bracket (statements hrun f _ _))) fun r hr => .ret (hlate hr.1.2)

/-- What a function does between its parameters and its end. -/
theorem run {b : FunctionBody}
    (hinit : ∀ init, b.ctorInit = some init → Retentive s₀ strict init.ctorInit)
    (hblock : Retentive s₀ strict b.body.functionBlock) : Retentive s₀ strict b.run := by
  intro inner returns hadmits
  unfold FunctionBody.run
  cases hctor : b.ctorInit with
  | none => exact hblock inner returns hadmits
  | some init =>
    exact .bind (hinit init hctor inner returns hadmits) fun _ _ => hblock inner returns hadmits

/-- The body of a function, wherever the function stands. -/
theorem functionBody (hs₀ : s₀.Settled) {b : FunctionBody} {f : FunctionTy}
    (hf : b.ty.asFunction? = some f) (hrun : Retentive s₀ strict b.run) (inner : List FrameKind)
    (returns : List Ty) : b.check.Retaining s₀ strict inner returns fun _ => True := by
  rw [FunctionBody.check_eq hf]
  refine .bind (scope hrun f inner returns) ?_
  rintro _ ⟨frame, rfl, hframe⟩
  exact .bind (.attachScope hs₀ b f hframe) fun _ _ => .log _

/-- A class that is opened is new or not complete. -/
theorem openClass (name : Token) (inner : List FrameKind) (returns : List Ty)
    (hadmits : strict → s₀.symbols.Admits inner) :
    (CWithClasses.openClass name).Retaining s₀ strict inner returns fun c =>
      strict → s₀.symbols.isComplete c = false := by
  intro s c s' hs hrun
  unfold CWithClasses.openClass at hrun
  rw [bind_symbols] at hrun
  cases hfound : s.symbols.lookupLocal? name.text with
  | none =>
    rw [hfound] at hrun
    have hdeclare : (declareClass name.text name.position).Retaining s₀ strict inner returns
        fun c => strict → s₀.symbols.isComplete c = false :=
      .bind (.newClass hadmits _) fun c hc => .bind (.declare hadmits _ _ _) fun _ _ => .ret hc
    exact hdeclare s c s' hs hrun
  | some existing =>
    rw [hfound] at hrun
    dsimp only at hrun
    cases hd : existing.objectClass?.filter fun c => !s.symbols.isComplete c with
    | some d =>
      rw [hd] at hrun
      cases hrun
      refine ⟨hs, fun hstrict => ?_⟩
      have hincomplete := (Option.filter_eq_some_iff.mp hd).2
      by_contra hcomplete
      rw [Bool.not_eq_false] at hcomplete
      unfold SymbolTable.isComplete at hincomplete hcomplete
      rw [hs.symbols.classBody_eq hstrict hcomplete, hcomplete] at hincomplete
      cases hincomplete
    | none =>
      rw [hd] at hrun
      have hreport : (do
          report (.redeclaration name.text) name.position
          newClass name.text : Check ClassRef).Retaining s₀ strict inner returns
            fun c => strict → s₀.symbols.isComplete c = false :=
        .bind (.report _ _) fun _ _ => .newClass hadmits _
      exact hreport s c s' hs hrun

/-- What a class head opens is new or not complete. -/
theorem classHead (head : Phrase) (inner : List FrameKind) (returns : List Ty)
    (hadmits : strict → s₀.symbols.Admits inner) :
    head.classHead.Retaining s₀ strict inner returns fun c =>
      strict → s₀.symbols.isComplete c = false := by
  have hlift : ∀ (e : Except Fault Token) {k : Token → Check ClassRef},
      (∀ t, (k t).Retaining s₀ strict inner returns fun c =>
        strict → s₀.symbols.isComplete c = false) →
      (do let t ← (e : Check Token); k t : Check ClassRef).Retaining s₀ strict inner returns
        fun c => strict → s₀.symbols.isComplete c = false := by
    intro e k hk
    cases e with
    | error e => exact .fault e _
    | ok t => exact hk t
  unfold Phrase.classHead
  split
  next =>
    unfold Phrase.part Clause.part
    cases head.clause.part? 1 with
    | none => exact .fault _ _
    | some name => exact hlift _ fun t => openClass t inner returns hadmits
  next => exact .newClass hadmits _
  next => exact .fault _ _

end Check.Retentive

namespace Check.Retentive

variable {s₀ : Checker} {strict : Prop}

/-- The rules of steps that keep all of the earlier state. -/
def rules (s₀ : Checker) (strict : Prop) : StepRules where
  triple _ x _ := Retentive s₀ strict x
  ret _ _ := fun _ _ _ => .ret trivial
  seq hR hx hf := fun inner returns hadmits s b s' hs hrun => by
    obtain ⟨a, s₁, hfirst, hsecond⟩ := exists_of_bind hrun
    exact hf a (hR s a s₁ hfirst) inner returns hadmits s₁ b s'
      (hx inner returns hadmits s a s₁ hs hfirst).1 hsecond
  conseq hx _ _ := hx

/-- A step in a block of its own. -/
theorem inBlock (hs₀ : s₀.Settled) {α : Type} {x : Check α} (hx : Retentive s₀ strict x) :
    Retentive s₀ strict (Check.inScope .block x) := by
  intro inner returns _
  rw [inScope_eq]
  exact .closing hs₀ (hx _ _ fun _ => .of_ne (fun c hc => by cases hc) inner)

/-- A step in the body of a class that is not complete. -/
theorem inClass (hs₀ : s₀.Settled) {α : Type} {cls : ClassRef} (access : Access) {x : Check α}
    (hcls : strict → s₀.symbols.isComplete cls = false) (hx : Retentive s₀ strict x) :
    Retentive s₀ strict (Check.inClass cls access x) := by
  intro inner returns hadmits
  have hinside : strict → s₀.symbols.Admits (.classBody cls :: inner) :=
    fun hstrict => (hadmits hstrict).classBody (hcls hstrict)
  rw [inClass_eq]
  exact .closing hs₀ (.bind (.setAccess hinside access) fun _ _ => hx _ _ hinside)

end Check.Retentive

/-- Every step keeps what was there before, if there was nothing to let go. Inside of a function,
the body of a class may be opened if the class is not complete. -/
def retentionLogic {s₀ : Checker} (hs₀ : s₀.Settled) (strict : Prop) : StepLogic where
  toStepRules := Check.Retentive.rules s₀ strict
  faults := True
  fault e _ := fun _ _ _ => .fault e _
  symbols := fun _ _ _ => .onSymbols fun _ => .ret trivial
  nesting hk :=
    fun inner returns hadmits s => hk s.loops s.switches s.returns inner returns hadmits s
  log e := fun _ _ _ => .log e
  report e position _ := fun _ _ _ => .report e position
  resolve _ _ _ _ := fun _ _ _ => .resolve _ _ _
  newClass name := fun _ _ hadmits s _ s' hs hrun =>
    ⟨(Check.Retaining.newClass hadmits name s _ s' hs hrun).1, trivial⟩
  newFunction required _ := fun _ _ _ => .newFunction _ _ required
  declare name position ty _ := fun _ _ hadmits => .declare hadmits name position ty
  markComplete _ := fun _ _ _ => .table fun _ ht => ht.modifyClass fun _ _ _ _ h => h.markComplete
  inBlock := .inBlock hs₀
  nested loops switches _ hx := fun inner returns hadmits =>
    .nested loops switches (hx inner returns hadmits)
  missingBody _ _ := fun _ _ _ _ _ _ _ hrun => by cases hrun
  functionBody hf _ hinit hblock := fun inner returns _ =>
    Check.Retentive.functionBody hs₀ hf (.run hinit hblock) inner returns
  inner := Check.Retentive.rules s₀ strict
  within hx := hx
  setAccess access := fun _ _ hadmits => .setAccess hadmits access
  opens c := strict → s₀.symbols.isComplete c = false
  afterHead _ hk := fun inner returns hadmits =>
    .bind (Check.Retentive.classHead _ inner returns hadmits) fun cls hcls =>
      hk cls hcls inner returns hadmits
  inClass access _ _ hcls := .inClass hs₀ access hcls

instance {s₀ : Checker} (hs₀ : s₀.Settled) (strict : Prop) :
    Fact (retentionLogic hs₀ strict).statements := ⟨trivial⟩

/-- Whatever tree is checked, from whatever state in which there is nothing to let go: classes have
afterwards the members that they had, the open ones among them, and functions their bodies. -/
theorem Node.check_keepsMembers (n : Node) {s s' : Checker} {ty : Ty} (hs : s.Settled)
    (h : n.check s = .ok ty s') :
    (∀ c name m, s.symbols.member? c name = some m → s'.symbols.member? c name = some m) ∧
      ∀ f body, s.symbols.body? f = some body → s'.symbols.body? f = some body := by
  have hcheck : Check.Retentive s False n.check :=
    (retentionLogic hs False).check (p := True) (.inl trivial)
  obtain ⟨hretains, -⟩ := hcheck [] [] False.elim s ty s' (.refl s) h
  exact ⟨fun _ _ _ => hretains.symbols.members, fun f => hretains.symbols.bodies f.id⟩

end CWithClasses
