import CWithClasses.Proofs.Exports.Gains
import CWithClasses.Proofs.MemberTables.Declared
import CWithClasses.Proofs.Standing

/-!
# Names that declarations export

A declaration binds the names that its declarators spell, unless they are bound before. So the names
that a step may add to the innermost scope are told together with those that it makes sure of.
Definitions of functions do the same with the names of their functions. Parameters and what is
declared in a body stay in the scope of the body.
-/

namespace CWithClasses

open Check

variable {N : String → Prop}

/-! ### Names that a step exports -/

variable {D E : String → Prop}

/-- Whenever the step ends well in a scope that is no class body, this scope binds the given
names. -/
def Check.Binds (D : String → Prop) {α : Type} (x : Check α) : Prop :=
  ∀ s a s', x s = .ok a s' → s.symbols.current.cls? = none →
    ∀ name, D name → (s'.symbols.current.bindings.lookup name).isSome

/-- The innermost scope gains no names but those of the first kind. In the end it binds all names of
the second kind. -/
structure Check.Exports (N D : String → Prop) {α : Type} (x : Check α) : Prop where
  gains : x.Gains N
  binds : x.Binds D

namespace SymbolTable.Gains

variable {t t' : SymbolTable}

/-- The innermost scope stays the body of its class, or of none. -/
theorem cls? (h : t.Gains N t') : t'.current.cls? = t.current.cls? := by
  obtain ⟨added, hbound, -⟩ := h
  rw [t'.bound_eq] at hbound
  simp [Frame.cls?, (Prod.mk.inj (List.cons.inj hbound).1).1]

/-- What was bound still is. -/
theorem isSome_lookup {name : String} (h : t.Gains N t')
    (hname : (t.current.bindings.lookup name).isSome) :
    (t'.current.bindings.lookup name).isSome := by
  obtain ⟨added, hbound, -⟩ := h
  rw [t'.bound_eq] at hbound
  rw [(Prod.mk.inj (List.cons.inj hbound).1).2, List.lookup_append, Option.isSome_or, hname,
    Bool.or_true]

end SymbolTable.Gains

namespace Check.Exports

variable {α β ι : Type} {x : Check α} {f : α → Check β}

/-- A step that need not bind any name. -/
theorem of_gains (hx : x.Gains N) (hD : ∀ name, ¬ D name) : x.Exports N D :=
  ⟨hx, fun _ _ _ _ _ name hname => absurd hname (hD name)⟩

/-- A step that never ends well. -/
theorem of_faulty (hx : ∀ s a s', x s ≠ .ok a s') : x.Exports N D :=
  ⟨fun s a s' hrun => absurd hrun (hx s a s'), fun s a s' hrun => absurd hrun (hx s a s')⟩

/-- A fault. -/
theorem fault (e : Fault) : Check.Exports N D (throw e : Check α) := by
  refine of_faulty fun s a s' hrun => ?_
  cases hrun

/-- Fewer names in the end, and more that may be gained. -/
theorem mono {N' D' : String → Prop} (hx : x.Exports N D) (hN : ∀ name, N name → N' name)
    (hD : ∀ name, D' name → D name) : x.Exports N' D' := by
  refine ⟨fun s a s' hrun => ?_, fun s a s' hrun hcls name hname =>
    hx.binds s a s' hrun hcls name (hD name hname)⟩
  obtain ⟨added, hbound, hadded⟩ := hx.gains s a s' hrun
  exact ⟨added, hbound, fun b hb => ⟨hN _ (hadded b hb).1, (hadded b hb).2⟩⟩

/-- One step after another, given what the first one yields. -/
theorem seq {R : α → Prop} (hR : x.Yields R) (hx : x.Exports N D)
    (hf : ∀ a, R a → (f a).Exports N E) : (x >>= f).Exports N fun name => D name ∨ E name := by
  refine ⟨hx.gains.seq hR fun a ha => (hf a ha).gains, ?_⟩
  intro s b s' hrun hcls name hname
  obtain ⟨a, s₁, hfirst, hrest⟩ := exists_of_bind hrun
  have hgained := hx.gains s a s₁ hfirst
  have hrestExports := hf a (hR s a s₁ hfirst)
  -- A name that the first step binds stays bound, since the second one only adds names.
  rcases hname with hname | hname
  · have hbound := hx.binds s a s₁ hfirst hcls name hname
    exact (hrestExports.gains s₁ b s' hrest).isSome_lookup hbound
  · exact hrestExports.binds s₁ b s' hrest (hgained.cls?.trans hcls) name hname

/-- Two steps that export names. -/
theorem bind (hx : x.Exports N D) (hf : ∀ a, (f a).Exports N E) :
    (x >>= f).Exports N fun name => D name ∨ E name :=
  seq (R := fun _ => True) (fun _ _ _ _ => trivial) hx fun a _ => hf a

/-- A step that exports names, after one that need not. -/
theorem after {R : α → Prop} (hR : x.Yields R) (hx : x.Gains N)
    (hf : ∀ a, R a → (f a).Exports N E) : (x >>= f).Exports N E :=
  ((of_gains hx fun _ => id).seq hR hf).mono (fun _ => id) fun _ => .inr

/-- A step that exports names, after any result of one that need not. -/
theorem next (hx : x.Gains N) (hf : ∀ a, (f a).Exports N E) : (x >>= f).Exports N E :=
  after (R := fun _ => True) (fun _ _ _ _ => trivial) hx fun a _ => hf a

/-- A step that exports names, before one that need not. -/
theorem before (hx : x.Exports N D) (hf : ∀ a, (f a).Gains N) : (x >>= f).Exports N D :=
  (hx.bind fun a => of_gains (D := fun _ => False) (hf a) fun _ => id).mono (fun _ => id)
    fun _ => .inl

/-- Taking a part of a tree, and going on with it. -/
theorem part {n : Node} {i : Nat} {g : Phrase → Check β}
    (hg : ∀ m, n.child? i = some m → (g m.phrase).Exports N D) :
    (n.clause.part i >>= g).Exports N D := by
  unfold Clause.part
  rw [n.clause_part?]
  cases hm : n.child? i with
  | none => exact fault _
  | some m => exact hg m hm

/-- The same for each item of a list. -/
theorem forM {items : List ι} {g : ι → Check PUnit} {D : ι → String → Prop}
    (hg : ∀ item ∈ items, (g item).Exports N (D item)) :
    (items.forM g).Exports N fun name => ∃ item ∈ items, D item name := by
  induction items with
  | nil => exact of_gains (.ret _) fun name hname => by simp at hname
  | cons item rest ih =>
    have hrest := ih fun other hother => hg other (List.mem_cons_of_mem _ hother)
    refine ((hg item List.mem_cons_self).bind fun _ => hrest).mono (fun _ => id) ?_
    simp

/-- A name that is declared. It may be bound before. -/
theorem declare {name : String} (hname : N name) (position : Position) (ty : Ty) :
    (Check.declare name position ty).Exports N (· = name) := by
  refine ⟨.declare hname position ty, ?_⟩
  intro s a s' hrun hcls other hother
  rw [hother]
  cases hbefore : s.symbols.current.bindings.lookup name with
  | none =>
    obtain ⟨t, hinsert, hbound⟩ := SymbolTable.insert_unbound ty hcls hbefore
    rw [declare_eq position hinsert] at hrun
    cases hrun
    exact Option.isSome_of_eq_some hbound
  | some bound =>
    exact (Gains.declare hname position ty s a s' hrun).isSome_lookup
      (Option.isSome_of_eq_some hbefore)

/-- A step that binds a name unless the innermost scope binds it already. -/
theorem onLocal {name : String} {k : SymbolTable → Check α}
    (hsome : ∀ t ty, t.lookupLocal? name = some ty → (k t).Gains N)
    (hnone : ∀ t, t.lookupLocal? name = none → (k t).Exports N (· = name)) :
    (Check.symbols >>= k).Exports N (· = name) := by
  constructor
  · refine Gains.symbols.bind fun t => ?_
    cases hlocal : t.lookupLocal? name with
    | none => exact (hnone t hlocal).gains
    | some ty => exact hsome t ty hlocal
  · intro s a s' hrun hcls other hother
    rw [hother]
    rw [bind_symbols] at hrun
    have hlocal := SymbolTable.lookupLocal?_eq hcls name
    cases hbefore : s.symbols.current.bindings.lookup name with
    | none => exact (hnone s.symbols (hlocal.trans hbefore)).binds s a s' hrun hcls name rfl
    | some ty =>
      exact (hsome s.symbols ty (hlocal.trans hbefore) s a s' hrun).isSome_lookup
        (Option.isSome_of_eq_some hbefore)

end Check.Exports

/-! ### Declarations -/

/-- What is declared under the first name binds the second one. A qualified name is not bound. -/
def DeclaredName.Binds (name : DeclaredName) (other : String) : Prop :=
  name.cls = none ∧ other = name.name

/-- The plain name of what is declared is the one that it binds. -/
theorem Declared.plainName?_iff {d : Declared} {name : DeclaredName} (h : d.name = some name)
    (other : String) : d.plainName? = some other ↔ name.Binds other := by
  obtain ⟨cls, text, position⟩ := name
  unfold plainName? DeclaredName.Binds
  rw [h]
  cases cls <;> simp [Option.filter, eq_comm]

namespace Check.Exports

variable {α : Type} {x : Check α} {name : DeclaredName} {init : Option Phrase}

/-- What is done about a qualified name. -/
theorem qualified {cls : Token} (hcls : name.cls = some cls) (hx : x.Gains N) :
    x.Exports N name.Binds := by
  refine of_gains hx fun other hother => ?_
  rw [DeclaredName.Binds, hcls] at hother
  cases hother.1

/-- What is done about a plain name. -/
theorem plain (hx : x.Exports N (· = name.name)) : x.Exports N name.Binds :=
  hx.mono (fun _ => id) fun _ => And.right

/-- The declaration of a function. -/
theorem declareFunction (hname : N name.name) (ty : Ty) :
    (CWithClasses.declareFunction name ty).Exports N (· = name.name) := by
  have hdeclare : Check.Exports N (· = name.name) (do
      Check.declare name.name name.position ty
      return ty) :=
    (declare hname name.position ty).before fun _ => .ret ty
  unfold CWithClasses.declareFunction
  refine onLocal (fun t existing hlocal => ?_) fun t hlocal => ?_
  · rw [hlocal]
    dsimp only
    split
    · exact .ret existing
    · exact hdeclare.gains
  · rw [hlocal]
    exact hdeclare

/-- The declaration of an object. -/
theorem declareObject (ty : Ty) (hname : ∀ other, name.Binds other → N other)
    (hinit : ∀ r, init = some r → (gainLogic N).Initiates r) :
    (CWithClasses.declareObject name ty init).Exports N name.Binds := by
  let L := gainLogic N
  have htype : (checkObjectType ty name.position).Gains N := by
    unfold checkObjectType
    split
    · exact L.reject (p := True) _ nofun
    · exact .ret ty
  unfold CWithClasses.declareObject
  refine next htype fun ty' => ?_
  refine next (L.checkInit (p := True) hinit ty' name.position) fun ty'' => ?_
  split
  next cls hcls =>
    refine qualified hcls (Gains.bind ?_ fun _ => .ret _)
    exact ReadingLogic.Idle.looks (L := L) (.checkAgainstMember cls name ty'' compatible) True
  next hcls =>
    have hdeclare := declare (hname _ ⟨hcls, rfl⟩) name.position ty''
    exact plain (hdeclare.before fun _ => .ret ty'')

/-- What a declarator declares. -/
theorem initDeclarator {m : Node} (hm : (gainLogic N).Obeys m.phrase)
    (hinit : ∀ r, init = some r → (gainLogic N).Initiates r)
    (hname : ∀ name, m.declaredName? = some name → N name) (base : Ty) :
    (m.phrase.initDeclarator base init).Exports N (m.declaredName? = some ·) := by
  let L := gainLogic N
  have hdeclarator := hm.self.declarator True base fun _ _ _ => trivial
  unfold Phrase.initDeclarator
  refine after (m.yields_plainName base) hdeclarator fun declared hplain => ?_
  split
  · exact fault _
  next name hdeclared =>
    have hbinds : ∀ other, m.declaredName? = some other ↔ name.Binds other :=
      fun other => by rw [← hplain, Declared.plainName?_iff hdeclared]
    have hN : ∀ other, name.Binds other → N other :=
      fun other hother => hname other ((hbinds other).mpr hother)
    refine mono (D := name.Binds) ?_ (fun _ => id) fun other => (hbinds other).mp
    split
    · split
      next cls hcls =>
        refine qualified hcls (Gains.bind ?_ fun _ => .ret _)
        exact ReadingLogic.Idle.looks (L := L) (.checkAgainstMember cls name _ sameSignature) True
      next hcls => exact plain (declareFunction (hN _ ⟨hcls, rfl⟩) declared.ty)
    · exact declareObject declared.ty hN hinit

/-- One item of a declaration. -/
theorem initDeclItem {q : Node} (hq : (gainLogic N).Initiates q.phrase)
    (hname : ∀ name, q.itemName? = some name → N name) (base : Ty) :
    (q.phrase.initDeclItem base).Exports N (q.itemName? = some ·) := by
  have hitem : ∀ {m : Node}, q.itemDeclarator? = some m → (gainLogic N).Initiates m.phrase →
      ∀ {init : Option Phrase}, (∀ r, init = some r → (gainLogic N).Initiates r) →
      Check.Exports N (q.itemName? = some ·) (do let _ ← m.phrase.initDeclarator base init) := by
    intro m hdeclarator hm init hinit
    rw [q.itemName?_eq, hdeclarator, Option.bind_some] at hname ⊢
    exact (initDeclarator hm.obeys_of_initiates hinit hname base).before fun _ => .ret _
  unfold Phrase.initDeclItem Phrase.part
  rw [q.phrase_rule, q.phrase_clause]
  split
  next hrule =>
    refine part fun m hm => hitem ?_ (hq.child hm) fun r hr => hq.part hr
    rw [Node.itemDeclarator?, hrule, hm]
  next =>
    -- An item of any other rule that is no declarator itself cannot be read as one.
    by_cases hself : q.itemDeclarator? = some q
    · exact hitem hself hq Phrase.throughout_none
    · refine of_faulty fun s a s' hrun => ?_
      obtain ⟨ty, s₁, hdeclarator, -⟩ := exists_of_bind hrun
      exact hself (Node.itemDeclarator?_of_initDeclarator hdeclarator)

/-- A declaration of objects and functions. -/
theorem simpleDeclaration {n : Node} (hn : (gainLogic N).Initiates n.phrase)
    (hname : ∀ q ∈ n.declaredItems, ∀ name, q.itemName? = some name → N name) :
    n.clause.simpleDeclaration.Exports N fun name =>
      ∃ q ∈ n.declaredItems, q.itemName? = some name := by
  have hitems : ∀ q ∈ n.declaredItems, (gainLogic N).Initiates q.phrase := by
    intro q hq
    refine Phrase.throughout_flatten? (fun r hr => hn.part hr) q.phrase ?_ (p := n.phrase.part? 1)
    rw [Region.flatten_items]
    exact List.mem_map_of_mem hq
  unfold Clause.simpleDeclaration
  refine part fun m hm => ?_
  refine next (ReadingLogic.specifiers (p := True) (hn.child hm).obeys_of_initiates) fun base => ?_
  have hflatten : Phrase.flatten? (n.clause.part? 1) = n.declaredItems.map Node.phrase := by
    rw [← n.phrase_clause]
    exact Region.flatten_items n
  rw [hflatten]
  have hmap : (n.declaredItems.map Node.phrase).forM (fun item => item.initDeclItem base) =
      n.declaredItems.forM fun q => q.phrase.initDeclItem base := List.forM_map ..
  rw [hmap]
  exact forM fun q hq => initDeclItem (hitems q hq) (hname q hq) base

/-- A condition that declares a variable. -/
theorem conditionType {q : Node} (hrule : q.rule = .conditionDecl)
    (hq : (gainLogic N).Initiates q.phrase)
    (hname : ∀ name, (q.child? 1).bind Node.declaredName? = some name → N name) :
    q.phrase.conditionType.Exports N ((q.child? 1).bind Node.declaredName? = some ·) := by
  unfold Phrase.conditionType Phrase.part
  rw [q.phrase_rule, q.phrase_clause, if_pos hrule]
  refine part fun specifiers hspecifiers => ?_
  have hread := (hq.child hspecifiers).obeys_of_initiates
  refine next (ReadingLogic.specifiers (p := True) hread) fun base => ?_
  refine part fun m hm => ?_
  refine part fun init hinit => ?_
  rw [hm, Option.bind_some] at hname ⊢
  exact initDeclarator (hq.child hm).obeys_of_initiates (hq.child hinit).of_some hname base

end Check.Exports

/-! ### Function definitions -/

namespace Check.Gains

variable {α : Type} {x : Check α}

/-- A step in a scope of its own, which is handed over. -/
theorem bracket (kind : FrameKind) (hx : x.Keeps) : (Check.bracket kind x).Gains N := by
  refine of_bound fun s a s' hrun => ?_
  have hbound := hx.bracket_bound kind s
  rw [hrun] at hbound
  exact hbound.2

/-- Letting go of a frame. -/
theorem discard (frame : Option Frame) : (Check.discard frame).Gains N := by
  cases frame with
  | none => exact ret ()
  | some f => exact change fun s => s.bound_discard f

/-- Giving a function the scope of its body. -/
theorem attachScope (b : FunctionBody) (f : FunctionTy) (scope : Option Frame) :
    (b.attachScope f scope).Gains N := by
  unfold FunctionBody.attachScope
  split
  next frame _ =>
    intro s a s' hrun
    rw [bind_symbols] at hrun
    cases hdefine : s.symbols.define? f frame with
    | none =>
      rw [hdefine] at hrun
      exact (discard (some frame)).bind (fun _ => log _) s a s' hrun
    | some table =>
      rw [hdefine] at hrun
      cases hrun
      exact .of_bound (SymbolTable.bound_define hdefine)
  next => exact discard _

/-- The body of a function. -/
theorem checkBody {b : FunctionBody} (hb : bindingsLogic.toStepLogic.Body b) : b.check.Gains N := by
  cases hf : b.ty.asFunction? with
  | none =>
    unfold FunctionBody.check
    rw [hf]
    exact fault _
  | some f =>
    have hstatements : (b.checkStatements f).Keeps :=
      bindingsLogic.checkStatements f (fun init hinit => hb.ctorInit init hinit True)
        (hb.block True)
    have hscope : (b.scope f).Gains N := by
      unfold FunctionBody.scope
      split
      · exact (bracket .function hstatements).bind fun _ => ret _
      · exact (bracket _ (Keeps.bracket .function hstatements)).bind fun _ => ret _
    rw [FunctionBody.check_eq hf]
    exact hscope.bind fun frame => (attachScope b f frame).bind fun _ => log _

/-- The parts of a function definition. -/
theorem functionParts (c : Clause) : c.functionParts.Gains N := by
  let L := gainLogic N
  unfold Clause.functionParts
  split
  · exact L.part (p := True) (Q := fun _ => True) fun _ _ => L.part fun _ _ => ret _
  · refine L.part (p := True) (Q := fun _ => True) fun _ _ => ?_
    exact L.part fun _ _ => L.part fun _ _ => ret _
  · exact fault _

/-- A definition with a qualified name. -/
theorem defineMember (cls : Token) (name : DeclaredName) (ty : Ty) :
    (CWithClasses.defineMember cls name ty).Gains N := by
  unfold CWithClasses.defineMember
  refine bind (ReadingLogic.Idle.looks (L := gainLogic N) (.resolveQualified cls name) True)
    fun found => ?_
  split
  · split
    · exact (report _ _).bind fun _ => ret _
    · refine symbols.bind fun t => ?_
      split
      · exact (report _ _).bind fun _ => ret _
      · exact ret _
  · exact ret _
  · exact ret _

end Check.Gains

namespace Check.Exports

/-- A definition with a plain name. -/
theorem defineLocal {name : DeclaredName} (hname : N name.name) (ty : Ty) :
    (CWithClasses.defineLocal name ty).Exports N (· = name.name) := by
  unfold CWithClasses.defineLocal
  refine onLocal (fun t existing hlocal => ?_) fun t hlocal => ?_
  · rw [hlocal]
    dsimp only
    split
    · exact .ret _
    · exact (Gains.report _ _).bind fun _ => .ret _
  · rw [hlocal]
    exact (declareFunction hname ty).before fun _ => .ret _

/-- The declaration of the function that is defined. -/
theorem declareFunctionDef {n : Node}
    (hspecifiers : ∀ m, n.memberSpecifiers? = some m → (gainLogic N).Obeys m.phrase)
    (hdeclarator : ∀ q ∈ n.memberDeclarators, (gainLogic N).Obeys q.phrase)
    (hname : ∀ name, n.definedName? = some name → N name) :
    n.clause.declareFunctionDef.Exports N (n.definedName? = some ·) := by
  let L := gainLogic N
  unfold Clause.declareFunctionDef
  refine after n.yields_functionParts (.functionParts _) ?_
  rintro ⟨specifiers, declarator, ctorInit, body⟩ ⟨hslot, q, hq, hqSlot, hdefined⟩
  dsimp only at hslot hqSlot
  subst hslot hqSlot
  rw [hdefined] at hname ⊢
  have hbase : (checkSpecifiers? (n.memberSpecifiers?.map Node.phrase)).Gains N := by
    refine L.checkSpecifiers (p := True) fun r hr => ?_
    obtain ⟨m, hm, rfl⟩ := Option.map_eq_some_iff.mp hr
    exact hspecifiers m hm
  have hread := hdeclarator q (by rw [hq]; exact List.mem_singleton_self q)
  refine next hbase fun base => ?_
  refine after (q.yields_plainName base) (hread.self.declarator True base fun _ _ _ => trivial)
    fun declared hplain => ?_
  dsimp only
  split
  next name parameters f hdeclared _ _ =>
    have hbinds : ∀ other, q.declaredName? = some other ↔ name.Binds other :=
      fun other => by rw [← hplain, Declared.plainName?_iff hdeclared]
    refine mono (D := name.Binds) ?_ (fun _ => id) fun other => (hbinds other).mp
    split
    next cls hcls =>
      exact qualified hcls ((Gains.defineMember cls name declared.ty).bind fun _ => .ret _)
    next hcls =>
      have hlocal := defineLocal (hname _ ((hbinds _).mpr ⟨hcls, rfl⟩)) declared.ty
      exact plain (hlocal.before fun _ => .ret _)
  next => exact fault _

end Check.Exports

end CWithClasses
