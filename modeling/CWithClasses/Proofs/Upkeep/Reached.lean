import CWithClasses.Proofs.Members.Grounded
import CWithClasses.Proofs.Upkeep.Names
import CWithClasses.Proofs.Upkeep.Table

/-!
# Where a check may stand

Beside the states before and after a tree is checked, there are those that a check passes inside of
the tree: in the scopes that it opens there, between the items of a declaration and behind the
parameters of a function. `Checker.Reached` describes them all. What is said of a table in all of
its scopes and classes is preserved on the way, if it is preserved by the steps that maintain a
table.
-/

namespace CWithClasses

open Check

variable {F : Nat → Prop} {D : String → Prop}

/-! ### All scopes of a table -/

/-- All that the open scopes and the classes bind is permitted, and functions that may not be
mentioned have no bodies. -/
structure SymbolTable.Abides (F : Nat → Prop) (D : String → Prop) (t : SymbolTable) : Prop where
  scopes : ∀ scope ∈ t.bound, ∀ name ty, scope.2.lookup name = some ty →
    ty.Permitted (.deep F) D name
  members : ∀ c name access ty, t.member? c name = some (access, ty) → ty.Permitted (.deep F) D name
  bodies : ∀ i, ¬ F i → t.bodies[i]?.join = none

/-- Such a table is upheld. -/
theorem SymbolTable.Abides.upheld {t : SymbolTable} (h : t.Abides F D) : t.Upheld (.deep F) D where
  bindings name ty hname := by
    have hscope : (t.current.kind, t.current.bindings) ∈ t.bound := List.mem_cons_self
    exact h.scopes _ hscope name ty hname
  members := h.members
  bodies := h.bodies

namespace Checker

variable {s s' : Checker}

/-- A step that maintains tables leads from one such table to another. -/
theorem abides_of_maintains {α : Type} {x : Check α} {a : α} {Q : α → Prop}
    (hs : s.symbols.Abides F D) (hx : x.Maintains (.guarded (.deep F) D) True Q)
    (hrun : x s = .ok a s')
    (hmakes : s.Makes F s') : s'.symbols.Abides F D := by
  obtain ⟨hupheld, -⟩ := hx.holds trivial s a s' hs.upheld hrun ⟨hmakes, fun _ _ _ => trivial⟩
  refine ⟨fun scope hscope name ty hty => ?_, hupheld.members, hupheld.bodies⟩
  -- The scopes around the innermost one bind the same as before.
  obtain ⟨new, hbound, -⟩ := (hx.keeps.of_ok hrun).symbols.bound
  have htail : s'.symbols.bound.tail = s.symbols.bound.tail := by
    rw [hbound]
    rfl
  rw [s'.symbols.bound_eq, htail] at hscope
  rcases List.mem_cons.mp hscope with rfl | hscope
  · exact hupheld.bindings name ty hty
  · exact hs.scopes scope (List.mem_of_mem_tail hscope) name ty hty

/-- A new scope binds nothing. -/
theorem abides_opened (hs : s.symbols.Abides F D) (kind : FrameKind) :
    (s.opened kind).symbols.Abides F D where
  scopes scope hscope name ty hty := by
    rcases List.mem_cons.mp hscope with rfl | hscope
    · cases hty
    · exact hs.scopes scope hscope name ty hty
  members := hs.members
  bodies := hs.bodies

end Checker

/-! ### The start of a check -/

/-- Nothing is bound in an empty table. -/
theorem SymbolTable.Upheld.empty : SymbolTable.empty.Upheld (.deep fun _ => True) D where
  bindings _ _ hname := by cases hname
  members _ _ _ _ hmember := by cases hmember
  bodies _ hi := absurd trivial hi

/-- A built-in declaration binds a class by its name, unless it declares an object. -/
theorem SymbolTable.Upheld.declareBuiltin {t : SymbolTable}
    (h : t.Upheld (.deep fun _ => True) D) {entry : String × Builtin} (hclosed : entry.2.Closed)
    (hobject : ∀ cls, entry.2 = .objectOf cls → D entry.1) :
    (t.declareBuiltin entry).Upheld (.deep fun _ => True) D := by
  obtain ⟨name, b⟩ := entry
  have hmade : (t.builtinTy name b).2.Upheld (.deep fun _ => True) D ∧
      (t.builtinTy name b).1.Permitted (.deep fun _ => True) D name := by
    cases b with
    | value ty =>
      refine ⟨h, fun _ _ => trivial, fun c hc => ?_⟩
      replace hc : ty = .object c := hc
      subst hc
      exact absurd (Mentions.has_ofClass.mpr rfl) (hclosed (.inr c.id))
    | newClass =>
      have hcommute : ∀ (t : SymbolTable) (c : ClassRef),
          (t.markComplete c).declareClass c = (t.declareClass c).markComplete c := by
        intro t c
        unfold SymbolTable.declareClass SymbolTable.markComplete SymbolTable.modifyClass
        dsimp only
        split <;> rfl
      refine ⟨?_, Ty.permitted_object rfl trivial⟩
      unfold SymbolTable.builtinTy
      dsimp only
      rw [hcommute]
      exact (h.newClass name _).sheds (.modifyClass _ _ (fun _ _ _ hm => hm) fun _ _ hx => hx)
    | objectOf cls => exact ⟨h, fun _ _ => trivial, fun _ _ => .inr (hobject cls rfl)⟩
    | function result params =>
      refine ⟨h.sheds (.withFunctions { symbols := t } 1), fun _ _ => trivial, fun c hc => ?_⟩
      cases hc
  obtain ⟨hupheld, hpermitted⟩ := hmade
  rcases t.declareBuiltin_cases (name, b) rfl with hinsert | hrefused
  · exact hupheld.insert hpermitted hinsert
  · rw [hrefused]
    exact hupheld

/-- At the start of a check, the given names are those of built-in objects. -/
theorem Checker.abides_start {config : Config}
    (hD : ∀ name cls, (name, Builtin.objectOf cls) ∈ config.builtins → D name)
    (hF : ∀ i < (Checker.start config).symbols.bodies.size, F i) :
    (Checker.start config).symbols.Abides F D := by
  have hseeded := SymbolTable.seeded_populated config
  have hupheld : (SymbolTable.populated config).Upheld (.deep fun _ => True) D := by
    refine List.foldlRecOn (motive := SymbolTable.Upheld (.deep fun _ => True) D) config.builtins
      SymbolTable.declareBuiltin .empty fun t ht entry hentry => ?_
    refine ht.declareBuiltin (config.closed_builtins entry hentry) fun cls hcls => hD entry.1 cls ?_
    rwa [← hcls]
  refine ⟨fun scope hscope name ty hty => ?_, fun c name access ty hmember => ?_,
    fun i _ => hseeded.bodies i⟩
  · replace hscope : scope ∈ (SymbolTable.populated config).bound := hscope
    unfold SymbolTable.bound SymbolTable.frames at hscope
    rw [hseeded.outer, List.map_singleton, List.mem_singleton] at hscope
    subst hscope
    refine ⟨fun i hi => hF i ?_, (hupheld.bindings name ty hty).object⟩
    exact hseeded.bindings (name, ty) (Bindings.mem_of_lookup hty) (.inl i) hi
  · rw [member?_start] at hmember
    cases hmember

/-! ### The way of a check -/

/-- The steps of a check in which a tree is read. The functions with the property are those that
have been made. An item of a declaration is given its base type, so the names that it gives to
objects are asked for. -/
inductive Node.Step (F : Nat → Prop) (D : String → Prop) (n : Node) : {α : Type} → Check α → Prop
  | check : n.Step F D n.check
  | expression : n.Step F D n.phrase.roles.expression
  | specifier : n.Step F D n.phrase.roles.specifier
  | declarator {base : Ty} : base.Over F → n.Step F D (n.phrase.roles.declarator base)
  | newDeclarator (base : Ty) : n.Step F D (n.phrase.roles.newDeclarator base)
  | initializer (ty : Ty) : n.Step F D (n.phrase.roles.initializer ty)
  | declaration : n.Step F D n.phrase.roles.declaration
  | statement : n.Step F D n.phrase.roles.statement
  | condition (kind : ConditionKind) : n.Step F D (n.phrase.condition kind)
  | memberInit (cls : Option ClassRef) : n.Step F D (n.phrase.memberInit cls)
  | memberLink : n.Step F D n.phrase.memberLink
  | function : n.Step F D n.clause.declareFunctionDef
  | initDeclItem {base : Ty} : base.Over F →
      (∀ d ∈ n.phrase.itemDeclarators, ∀ name, d.node.directName? = some name → D name) →
      n.Step F D (n.phrase.initDeclItem base)
  | memberDeclarator {base : Ty} : base.Over F →
      (∀ d ∈ n.phrase.itemDeclarators, ∀ name, d.node.directName? = some name → D name) →
      n.Step F D (n.phrase.memberDeclarator base)

/-- The steps in which a function body that was left to be checked is entered or checked. -/
inductive FunctionBody.Step (b : FunctionBody) : Check Unit → Prop
  | parameters {f : FunctionTy} : b.ty.asFunction? = some f →
      b.Step (bindParameters b.parameters f.params)
  | check : b.Step b.check

/-- A check may come from the first state to the second one, if objects of classes have given names.
Beside whole steps, the second state may be one inside of a scope that has been opened, or of a
function whose parameters have been bound, and any other in which the same names are bound. -/
inductive Checker.Leads (D : String → Prop) : Checker → Checker → Prop
  | refl (s : Checker) : Leads D s s
  | step {n : Node} {α : Type} {x : Check α} {a : α} {s s₁ s₂ : Checker} : Leads D s s₁ →
      (∀ name ∈ n.objectNames, D name) → n.Step (· < s₁.symbols.bodies.size) D x →
      x s₁ = .ok a s₂ → Leads D s s₂
  | opened {s s₁ : Checker} (kind : FrameKind) : Leads D s s₁ → Leads D s (s₁.opened kind)
  | body {n : Node} {b : FunctionBody} {x : Check Unit} {s s₀ s₁ s₂ s₃ : Checker} : Leads D s s₀ →
      (∀ name ∈ n.objectNames, D name) → n.clause.declareFunctionDef s₀ = .ok b s₁ →
      Leads D s₁ s₂ → b.Step x → x s₂ = .ok () s₃ → Leads D s s₃
  | same {s s₁ s₂ : Checker} : Leads D s s₁ → s₂.symbols.bound = s₁.symbols.bound →
      (∀ c name, s₂.symbols.member? c name = s₁.symbols.member? c name) →
      s₂.symbols.bodies = s₁.symbols.bodies → Leads D s s₂

/-- The states that a check may be in, if built-in objects and objects of classes have given
names. -/
structure Checker.Reached (config : Config) (D : String → Prop) (s : Checker) : Prop where
  builtins : ∀ name cls, (name, Builtin.objectOf cls) ∈ config.builtins → D name
  leads : (Checker.start config).Leads D s

/-- Each step in which a tree is read maintains tables. -/
theorem Node.Step.maintains {G : Nat → Prop} {n : Node} {α : Type} {x : Check α} (hx : n.Step G D x)
    (hG : ∀ i, G i → F i) (hn : ∀ name ∈ n.objectNames, D name) :
    x.Maintains (.guarded (.deep F) D) True fun _ => True := by
  let L := upkeepLogic F D
  have hnames : ∀ m ∈ n.subtrees, m.phrase.NamesObjects D := namesObjects hn
  have hupholds : n.phrase.Throughout (Phrase.Upholds L) := upholds_throughout hnames
  have hover : ∀ {base : Ty}, base.Over G → True → base.Over F := fun h _ i hi => hG i (h i hi)
  have hitems : (∀ d ∈ n.phrase.itemDeclarators, ∀ name, d.node.directName? = some name → D name) →
      ∀ base, ∀ d ∈ n.phrase.itemDeclarators, d.Names L.names base := by
    intro h base d hd
    obtain ⟨m, rfl⟩ := exists_of_mem_itemDeclarators hd
    refine names_phrase (fun name hname => h _ hd name ?_) base
    rwa [m.phrase_node]
  cases hx with
  | check => exact check_upholds (L := L) hnames True
  | expression => exact hupholds.self.expression True
  | specifier => exact L.post (hupholds.self.specifier True) fun _ _ _ => trivial
  | declarator hbase =>
    exact L.post (hupholds.self.declarator True _ (hover hbase)) fun _ _ _ => trivial
  | newDeclarator base => exact hupholds.self.newDeclarator base True
  | initializer ty => exact L.post (hupholds.self.initializer True ty) fun _ _ _ => trivial
  | declaration => exact hupholds.self.declaration True
  | statement => exact hupholds.self.statement True
  | condition kind => exact DeclaringLogic.condition hupholds kind True
  | memberInit cls => exact DeclaringLogic.memberInit hupholds cls True
  | memberLink =>
    exact L.post ((DeclaringLogic.memberLink hupholds).sound True) fun _ _ _ => trivial
  | function =>
    rw [← n.phrase_clause]
    exact L.post (DeclaringLogic.declareFunctionDef hupholds.clause) fun _ _ _ => trivial
  | initDeclItem hbase h => exact DeclaringLogic.initDeclItem hupholds (hitems h _) (hover hbase)
  | memberDeclarator hbase h =>
    exact DeclaringLogic.memberDeclarator hupholds (hitems h _) (hover hbase)

namespace Checker.Leads

variable {s s' : Checker}

/-- The parts of a tree uphold the logic if objects of classes have given names. -/
theorem upholds_clause {G : TypeGuard} (hG : G.Open) {n : Node}
    (hn : ∀ name ∈ n.objectNames, D name) :
    n.clause.Throughout (Phrase.Upholds (guardedLogic hG D)) := by
  rw [← n.phrase_clause]
  exact (Node.upholds_throughout (Node.namesObjects hn)).clause

/-- What a definition declares, and what is left to be checked. -/
theorem maintains_declareFunctionDef {n : Node} (hn : ∀ name ∈ n.objectNames, D name) :
    n.clause.declareFunctionDef.Maintains (.guarded (.deep F) D) True
      (FunctionBody.Sound (.deep F) D) :=
  DeclaringLogic.declareFunctionDef (L := upkeepLogic F D) (upholds_clause (.deep F) hn)

/-- The body of a function that a definition has declared. -/
theorem maintains_body {n : Node} {b : FunctionBody} {x : Check Unit} {p : Prop}
    (hn : ∀ name ∈ n.objectNames, D name) (hb : n.clause.declareFunctionDef s = .ok b s')
    (hx : b.Step x) (h : p → b.Sound (.deep F) D) :
    x.Maintains (.guarded (.deep F) D) p fun _ => True := by
  let L := upkeepLogic F D
  cases hx with
  | parameters hf => exact DeclaringLogic.bindParameters (L := L) hf fun hp => (h hp).toBinds
  | check =>
    have hyields := DeclaringLogic.declareFunctionDef_yields (L := L) (upholds_clause (.deep F) hn)
    exact DeclaringLogic.checkBody (hyields s b s' hb) h

/-- No function that has been made is taken back. -/
theorem size_le (h : s.Leads D s') : s.symbols.bodies.size ≤ s'.symbols.bodies.size := by
  let F : Nat → Prop := fun _ => True
  induction h with
  | refl => exact Nat.le_refl _
  | step _ hn hx hrun ih =>
    exact ih.trans ((hx.maintains (F := F) (fun _ _ => trivial) hn).made _ _ _ hrun).functions
  | opened _ _ ih => exact ih
  | body _ hn hb _ hx hrun ih ih₂ =>
    have hdeclared := (maintains_declareFunctionDef (F := F) hn).made _ _ _ hb
    have hchecked := (maintains_body (F := F) (p := False) hn hb hx False.elim).made _ _ _ hrun
    exact ((ih.trans hdeclared.functions).trans ih₂).trans hchecked.functions
  | same _ _ _ hbodies ih => exact hbodies ▸ ih

/-- What is bound stays permitted, if all functions that have been made may be mentioned. -/
theorem abides (h : s.Leads D s') (hs : s.symbols.Abides F D)
    (hF : ∀ i < s'.symbols.bodies.size, F i) : s'.symbols.Abides F D := by
  have hstep : ∀ {α : Type} {x : Check α} {a : α} {Q : α → Prop} {s₁ s₂ : Checker},
      (∀ i < s₂.symbols.bodies.size, F i) → x.Maintains (.guarded (.deep F) D) True Q →
        x s₁ = .ok a s₂ →
      s₁.symbols.Abides F D → s₂.symbols.Abides F D :=
    fun hF hx hrun hs => abides_of_maintains hs hx hrun fun i _ hi => hF i hi
  induction h with
  | refl => exact hs
  | step hleads hn hx hrun ih =>
    have hle := (Leads.step (.refl _) hn hx hrun).size_le
    have hmade : ∀ i < _, F i := fun i hi => hF i (hi.trans_le hle)
    exact hstep hF (hx.maintains hmade hn) hrun (ih hs hmade)
  | opened kind _ ih => exact abides_opened (ih hs hF) kind
  | body _ hn hb hleads₂ hx hrun ih ih₂ =>
    have hdeclare := maintains_declareFunctionDef (F := F) hn
    have hle := (hdeclare.made _ _ _ hb).functions
    have hle₃ := (maintains_body (F := F) (p := False) hn hb hx False.elim).made _ _ _ hrun
    have hmade₂ : ∀ i < _, F i := fun i hi => hF i (hi.trans_le hle₃.functions)
    have hmade₁ : ∀ i < _, F i := fun i hi => hmade₂ i (hi.trans_le hleads₂.size_le)
    have hs₀ := ih hs fun i hi => hmade₁ i (hi.trans_le hle)
    obtain ⟨-, hsound⟩ := hdeclare.holds trivial _ _ _ hs₀.upheld hb
      ⟨fun i _ hi => hmade₁ i hi, fun _ _ _ => trivial⟩
    have hs₂ := ih₂ (hstep hmade₁ hdeclare hb hs₀) hmade₂
    exact hstep hF (maintains_body hn hb hx fun _ => hsound) hrun hs₂
  | same _ hbound hmembers hbodies ih =>
    obtain ⟨hscopes, hmembers₁, hbodies₁⟩ := ih hs (hbodies ▸ hF)
    refine ⟨hbound ▸ hscopes, fun c name access ty hty => ?_, hbodies ▸ hbodies₁⟩
    exact hmembers₁ c name access ty (hmembers c name ▸ hty)

end Checker.Leads

/-- The function of a definition has the parameters that its declarator names, in any state. -/
theorem Node.yields_agrees (n : Node) : n.clause.declareFunctionDef.Yields FunctionBody.Agrees := by
  intro s b s' hb
  have hpermitted : ∀ name (ty : Ty), ty.Permitted (.deep fun _ => True) (fun _ => True) name :=
    fun _ _ => ⟨fun _ _ => trivial, fun _ _ => .inr trivial⟩
  have hupheld : s.symbols.Upheld (.deep fun _ => True) fun _ => True :=
    ⟨fun name ty _ => hpermitted name ty, fun _ name _ ty _ => hpermitted name ty,
      fun _ h => absurd trivial h⟩
  have hmaintains := Checker.Leads.maintains_declareFunctionDef (n := n) (F := fun _ => True)
    (D := fun _ => True) fun _ _ => trivial
  exact (hmaintains.holds trivial s b s' hupheld hb
    ⟨fun _ _ _ => trivial, fun _ _ _ => trivial⟩).2.toAgrees

/-- Wherever a check may stand, what is bound is permitted, if the functions that have been made may
be mentioned. -/
theorem Checker.Reached.abides {config : Config} {s : Checker} (h : s.Reached config D)
    (hF : ∀ i < s.symbols.bodies.size, F i) : s.symbols.Abides F D :=
  h.leads.abides (abides_start h.builtins fun i hi => hF i (hi.trans_le h.leads.size_le)) hF

end CWithClasses
