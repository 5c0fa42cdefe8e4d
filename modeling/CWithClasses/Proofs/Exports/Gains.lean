import CWithClasses.Proofs.Upkeep.Table

/-!
# Names that a scope gains

A step that ends well leaves all scopes but the innermost one as they are, and the innermost one
gains names that were not bound in it. `Gains` tells which names these may be. Reading specifiers,
declarators and expressions adds at most the names of classes that are specified in them, or named
with their keys. The body of a class has a scope of its own, and adds nothing.
-/

namespace CWithClasses

open Check

variable {N : String → Prop}

/-! ### Tables and steps -/

/-- From the first table to the second one, the innermost scope has gained some of the given names,
and nothing else that is bound has changed. -/
def SymbolTable.Gains (N : String → Prop) (t t' : SymbolTable) : Prop :=
  ∃ added : Bindings,
    t'.bound = (t.current.kind, added ++ t.current.bindings) :: t.bound.tail ∧
      ∀ b ∈ added, N b.1 ∧ t.current.bindings.lookup b.1 = none

namespace SymbolTable.Gains

variable {t t₁ t' : SymbolTable}

/-- Nothing that is bound has changed. -/
theorem of_bound (h : t'.bound = t.bound) : t.Gains N t' :=
  ⟨[], h, fun _ hb => by cases hb⟩

/-- What is gained in two steps is gained. -/
theorem trans (h : t.Gains N t₁) (h' : t₁.Gains N t') : t.Gains N t' := by
  obtain ⟨added, hbound, hadded⟩ := h
  obtain ⟨added', hbound', hadded'⟩ := h'
  rw [t₁.bound_eq] at hbound
  obtain ⟨hhead, htail⟩ := List.cons.inj hbound
  obtain ⟨hkind, hbindings⟩ := Prod.mk.inj hhead
  refine ⟨added' ++ added, ?_, fun b hb => ?_⟩
  · rw [hbound', hkind, hbindings, htail, List.append_assoc]
  · rcases List.mem_append.mp hb with hb | hb
    · obtain ⟨hN, hnone⟩ := hadded' b hb
      rw [hbindings, List.lookup_append, Option.or_eq_none_iff] at hnone
      exact ⟨hN, hnone.2⟩
    · exact hadded b hb

/-- A name is bound in the innermost scope, or becomes a member. -/
theorem insert {name : String} {ty : Ty} (hname : N name) (h : t.insert name ty = .ok t') :
    t.Gains N t' := by
  rcases insert_cases h with ⟨c, b, -, -, rfl⟩ | ⟨-, hnone, rfl⟩
  · exact of_bound rfl
  · refine ⟨[(name, ty)], rfl, fun b hb => ?_⟩
    rw [List.mem_singleton.mp hb]
    exact ⟨hname, hnone⟩

end SymbolTable.Gains

/-- Whenever the step ends well, the innermost scope has gained some of the given names at most. -/
def Check.Gains (N : String → Prop) {α : Type} (x : Check α) : Prop :=
  ∀ s a s', x s = .ok a s' → s.symbols.Gains N s'.symbols

namespace Check.Gains

variable {α β : Type}

/-- A step that changes nothing that is bound. -/
theorem of_bound {x : Check α} (h : ∀ s a s', x s = .ok a s' → s'.symbols.bound = s.symbols.bound) :
    x.Gains N :=
  fun s a s' hrun => .of_bound (h s a s' hrun)

/-- A change of the state by which nothing that is bound changes. -/
theorem change {f : Checker → Checker} (h : ∀ s, (f s).symbols.bound = s.symbols.bound) :
    Check.Gains N (modify f) := by
  refine of_bound fun s a s' hrun => ?_
  cases hrun
  exact h s

/-- A step that only has a result. -/
theorem ret (a : α) : Check.Gains N (pure a) := by
  refine of_bound fun s b s' hrun => ?_
  cases hrun
  rfl

/-- One step after another, given what the first one yields. -/
theorem seq {x : Check α} {f : α → Check β} {R : α → Prop} (hR : x.Yields R) (hx : x.Gains N)
    (hf : ∀ a, R a → (f a).Gains N) : (x >>= f).Gains N := by
  intro s b s' hrun
  obtain ⟨a, s₁, hfirst, hrest⟩ := exists_of_bind hrun
  exact (hx s a s₁ hfirst).trans (hf a (hR s a s₁ hfirst) s₁ b s' hrest)

/-- One step after another. -/
theorem bind {x : Check α} {f : α → Check β} (hx : x.Gains N) (hf : ∀ a, (f a).Gains N) :
    (x >>= f).Gains N :=
  seq (R := fun _ => True) (fun _ _ _ _ => trivial) hx fun a _ => hf a

/-- A fault. -/
theorem fault (e : Fault) : Check.Gains N (throw e : Check α) := by
  intro s a s' hrun
  cases hrun

/-- Looking at the table. -/
theorem symbols : Check.symbols.Gains N := by
  refine of_bound fun s a s' hrun => ?_
  cases hrun
  rfl

/-- A report. -/
theorem report (e : Problem) (position : Position) : (Check.report e position).Gains N :=
  change fun s => by rw [s.symbols_reported]

/-- An event. -/
theorem log (e : Event) : (Check.log e).Gains N := change fun _ => rfl

/-- A new function. -/
theorem newFunction (result : Ty) (params : List Ty) (required : Nat) :
    (Check.newFunction result params required).Gains N := by
  refine of_bound fun s a s' hrun => ?_
  cases hrun
  rfl

/-- A new class, which is not bound yet. -/
theorem newClass (name : String) : (Check.newClass name).Gains N := by
  refine of_bound fun s a s' hrun => ?_
  cases hrun
  exact SymbolTable.bound_declareClass _ _

/-- A name that is declared. -/
theorem declare {name : String} (hname : N name) (position : Position) (ty : Ty) :
    (Check.declare name position ty).Gains N := by
  intro s a s' hrun
  rcases declare_ok hrun with ⟨t, hinsert, rfl⟩ | hsame
  · exact .insert hname hinsert
  · exact .of_bound (congrArg SymbolTable.bound hsame)

/-- A step in a scope of its own. -/
theorem inScope {kind : FrameKind} {x : Check α} (hx : x.Keeps) : (Check.inScope kind x).Gains N :=
  of_bound fun _ _ _ hrun => hx.bound_inScope hrun

end Check.Gains

/-- The logic of steps by which the innermost scope gains some of the given names at most. -/
def gainLogic (N : String → Prop) : ReadingLogic where
  triple _ x _ := x.Gains N
  ret a _ := .ret a
  seq := .seq
  conseq hx _ _ := hx
  guard := .deep fun _ => True
  names _ := True
  fault := .fault
  symbols := .symbols
  log := .log
  report position _ := .report _ position
  resolve _ _ _ := .change fun _ => rfl
  newFunction required _ := .newFunction _ _ required

/-! ### Classes -/

/-- The name of the class that a specifier may declare. -/
def Node.className? (n : Node) : Option String :=
  match n.rule with
  | .classSpec => (n.child? 0).bind fun head =>
      if head.rule = .classHead then ((head.child? 1).bind (·.token)).map (·.text) else none
  | .elaborated => ((n.child? 1).bind (·.token)).map (·.text)
  | _ => none

/-- The body of a class keeps what is bound. -/
theorem Clause.keeps_classBody (n : Node) (cls : ClassRef) : Check.Keeps (do
    let bodies ← Phrase.members (n.clause.part? 1)
    modifySymbols (·.markComplete cls)
    bodies.forM FunctionBody.check) := by
  let L := bindingsLogic.toStepLogic
  refine L.classBody (p := False) cls fun r hr => ?_
  obtain ⟨m, -, rfl⟩ := n.child_of_part? hr
  exact L.sound .memberSpec m (.inl trivial)

namespace Check.Gains

/-- A step in the body of a class. -/
theorem inClass {α : Type} (cls : ClassRef) (access : Access) {x : Check α} (hx : x.Keeps) :
    (Check.inClass cls access x).Gains N := by
  have hscope : Check.inClass cls access x = Check.inScope (.classBody cls) (do
      modifySymbols (·.setAccess access)
      x) := by
    simp [Check.inClass, Check.inScope]
  have haccess : Check.Keeps (modifySymbols (·.setAccess access)) := bindingsLogic.setAccess access
  have hinside : Check.Keeps (do modifySymbols (·.setAccess access); x) :=
    haccess.bind fun _ => hx
  rw [hscope]
  exact inScope hinside

/-- A class that is declared. -/
theorem declareClass {name : String} (hname : N name) (position : Position) :
    (Check.declareClass name position).Gains N :=
  (newClass name).bind fun c => (declare hname position (.object c)).bind fun _ => ret c

/-- A class that is opened. -/
theorem openClass {name : Token} (hname : N name.text) : (CWithClasses.openClass name).Gains N := by
  unfold CWithClasses.openClass
  refine symbols.bind fun table => ?_
  split
  · exact declareClass hname name.position
  · split
    · exact ret _
    · exact (report _ _).bind fun _ => newClass _

/-- A class that is named with its key. -/
theorem elaborate {name : Token} (hname : N name.text) : (CWithClasses.elaborate name).Gains N := by
  unfold CWithClasses.elaborate
  refine symbols.bind fun table => ?_
  split
  · exact ret _
  · exact (declareClass hname name.position).bind fun c => (log _).bind fun _ => ret _
  · exact (report _ _).bind fun _ => ret _

/-- The head of a class specification. -/
theorem classHead {n head : Node} (hrule : n.rule = .classSpec) (hhead : n.child? 0 = some head)
    (hname : ∀ name, n.className? = some name → N name) : head.phrase.classHead.Gains N := by
  let L := gainLogic N
  unfold Phrase.classHead
  rw [head.phrase_rule]
  split
  next hclass =>
    refine L.part (p := True) (Q := fun _ => True) fun r hr => L.leaf fun name htoken => ?_
    refine openClass (hname name.text ?_)
    rw [head.phrase_clause] at hr
    obtain ⟨m, hm, rfl⟩ := head.child_of_part? hr
    rw [m.phrase_node] at htoken
    simp [Node.className?, hrule, hhead, hclass, hm, htoken]
  · exact newClass _
  · exact fault _

/-- A class specification. -/
theorem classSpec {n : Node} (hrule : n.rule = .classSpec)
    (hname : ∀ name, n.className? = some name → N name) : n.clause.classSpec.Gains N := by
  let L := gainLogic N
  unfold Clause.classSpec
  refine L.part (p := True) (Q := fun _ => True) fun head hhead => ?_
  refine L.part (c := head.clause) fun r hr => L.leaf fun key htoken => ?_
  obtain ⟨m, hm, rfl⟩ := n.child_of_part? hhead
  split
  · exact fault _
  · have hbody := fun cls =>
      inClass (N := N) cls key.kind.defaultAccess (Clause.keeps_classBody n cls)
    have hrest : ∀ cls : ClassRef, Check.Gains N (do
        let body := (← Check.symbols).classBody cls
        Check.log (.definedClass (.object cls) body.publicMembers.length body.privateMembers.length)
        return Ty.object cls) :=
      fun cls => symbols.bind fun table => (log _).bind fun _ => ret _
    have h := (classHead hrule hm hname).bind fun cls => (hbody cls).bind fun _ => hrest cls
    simp only [Check.inClass, bind_assoc, pure_bind] at h
    exact h

end Check.Gains

/-- If objects may have any name, nothing is asked of the names of objects. -/
theorem Phrase.namesObjects_of_all {q : Phrase} (hN : ∀ name, N name) : q.NamesObjects N := by
  intro _ base _ _ d _ _ declared _ _ c name _ _
  exact hN name.name

/-- Reading a tree adds at most the names of the classes in it. -/
theorem Node.gainLogic_initiates {n : Node}
    (hnames : ∀ m ∈ n.subtrees, ∀ name, m.className? = some name → N name) :
    (gainLogic N).Initiates n.phrase := by
  refine throughout_phrase fun m hm hparts => ?_
  refine initiates hparts (Phrase.namesObjects_of_all fun _ => trivial)
    (fun hrule _ => Check.Gains.classSpec hrule (hnames m hm)) ?_
  intro hrule _ k name hk htoken
  exact Check.Gains.elaborate (hnames m hm name.text (by simp [className?, hrule, hk, htoken]))

end CWithClasses
