import CWithClasses.Proofs.MemberTables.Declared

/-!
# Reading the body of a class

While the members of a class are declared, the state differs from the one before the body only in
the members that the class has got so far, apart from functions that were made and uses of names
that were recorded. `Checker.InBody` states this. Each declaration leads to a state of the same
kind, with the members that it introduces, and so does the whole member specification.
-/

namespace CWithClasses

open Check

namespace SymbolTable

variable {t : SymbolTable} {c : ClassRef} {access : Access} {members : List Member} {name : String}
  {count : Nat}

/-- A name that no member has means nothing. -/
theorem member?_ofMembers (h : name ∉ members.map Member.name) :
    (ClassBody.ofMembers members).member? name = none := by
  have htable : ∀ access, (Member.tableOf members access).lookup name = none := by
    intro access
    rw [List.lookup_eq_none_iff]
    intro entry hentry
    obtain ⟨m, hm, rfl⟩ := List.mem_map.mp (List.mem_reverse.mp hentry)
    refine bne_iff_ne.mpr fun heq => h ?_
    rw [heq]
    exact List.mem_map_of_mem (List.mem_filter.mp hm).1
  unfold ClassBody.member? ClassBody.ofMembers
  rw [htable, htable]
  rfl

/-- The members of the class in its body. -/
theorem classBody_inBody (hc : c.id < t.classes.size) :
    (t.inBody c access members count).classBody c = .ofMembers members := by
  refine (classBody_modifyClass hc c).trans ?_
  rw [if_pos rfl]

/-- A name that no member has is free. -/
theorem lookupLocal?_inBody (hc : c.id < t.classes.size) (h : name ∉ members.map Member.name) :
    (t.inBody c access members count).lookupLocal? name = none := by
  change ((t.inBody c access members count).member? c name).map (·.2) = none
  unfold member?
  rw [classBody_inBody hc, member?_ofMembers h]
  rfl

/-- A new name becomes a member in the current access region. -/
theorem insert_inBody (hc : c.id < t.classes.size) (h : name ∉ members.map Member.name) (ty : Ty) :
    (t.inBody c access members count).insert name ty =
      .ok (t.inBody c access (members ++ [⟨access, name, ty⟩]) count) := by
  have hadd : (ClassBody.ofMembers members).add name ty access =
      .ok (.ofMembers (members ++ [⟨access, name, ty⟩])) := by
    unfold ClassBody.add
    rw [member?_ofMembers h]
    cases access <;> simp [ClassBody.ofMembers, Member.tableOf]
  have hmodify := t.modifyClass_modifyClass c (fun _ => .ofMembers members)
    fun _ => .ofMembers (members ++ [⟨access, name, ty⟩])
  change (t.inBody c access members count).addMember c name ty access = _
  unfold addMember
  rw [classBody_inBody hc, hadd]
  unfold inBody
  rw [← hmodify]
  rfl

end SymbolTable

/-- The state in the body of a class that has got some members. Nothing else has changed since the
class was opened, apart from functions that were made and uses of names that were recorded. -/
structure Checker.InBody (s₀ : Checker) (c : ClassRef) (access : Access) (members : List Member)
    (s : Checker) : Prop where
  symbols : ∃ count, s.symbols = s₀.symbols.inBody c access members count
  resolutions : s₀.resolutions <+: s.resolutions
  returns : s.returns = s₀.returns
  held : s.held = s₀.held

namespace Checker.InBody

variable {s₀ s s' : Checker} {c : ClassRef} {access : Access} {old : List Member} {name : String}

/-- Reading changes nothing else. -/
theorem reads (h : s₀.InBody c access old s) (hreads : s.Reads s') : s₀.InBody c access old s' where
  symbols := by
    obtain ⟨count, hsymbols⟩ := h.symbols
    obtain ⟨more, hmore⟩ := hreads.symbols
    refine ⟨count + more, ?_⟩
    rw [hmore]
    unfold withFunctions
    rw [hsymbols]
    simp [SymbolTable.inBody]
  resolutions := h.resolutions.trans hreads.resolutions
  returns := hreads.returns.trans h.returns
  held := hreads.held.trans h.held

section Made

variable (hc : c.id < s₀.symbols.classes.size)

include hc

/-- A member is declared. -/
theorem declare (h : s₀.InBody c access old s)
    (hname : name ∉ old.map Member.name) {position : Position} {ty : Ty}
    (hrun : Check.declare name position ty s = .ok () s') :
    s₀.InBody c access (old ++ [⟨access, name, ty⟩]) s' := by
  obtain ⟨count, hsymbols⟩ := h.symbols
  rw [declare_eq position (by rw [hsymbols]; exact SymbolTable.insert_inBody hc hname ty)] at hrun
  cases hrun
  exact ⟨⟨count, rfl⟩, h.resolutions, h.returns, h.held⟩

omit hc in
/-- The access region changes. -/
theorem setAccess (h : s₀.InBody c access old s) (access' : Access) :
    s₀.InBody c access' old { s with symbols := s.symbols.setAccess access' } := by
  obtain ⟨count, hsymbols⟩ := h.symbols
  refine ⟨⟨count, ?_⟩, h.resolutions, h.returns, h.held⟩
  change s.symbols.setAccess access' = _
  rw [hsymbols]
  rfl

/-- A function is declared. -/
theorem declareFunction (h : s₀.InBody c access old s)
    (hname : name ∉ old.map Member.name) {position : Position} {ty bound : Ty}
    (hrun : CWithClasses.declareFunction { name, position } ty s = .ok bound s') :
    bound = ty ∧ s₀.InBody c access (old ++ [⟨access, name, ty⟩]) s' := by
  obtain ⟨count, hsymbols⟩ := h.symbols
  unfold CWithClasses.declareFunction at hrun
  rw [bind_symbols] at hrun
  dsimp only at hrun
  rw [hsymbols, SymbolTable.lookupLocal?_inBody hc hname] at hrun
  obtain ⟨_, s₁, hdeclare, hret⟩ := exists_of_bind hrun
  cases hret
  exact ⟨rfl, h.declare hc hname hdeclare⟩

/-- An object is declared, which is not constructed yet. -/
theorem declareObject (h : s₀.InBody c access old s)
    (hname : name ∉ old.map Member.name) {position : Position} {ty bound : Ty}
    (hrun : CWithClasses.declareObject { name, position } ty none s = .ok bound s') :
    s₀.InBody c access (old ++ [⟨access, name, memberTy ty⟩]) s' := by
  unfold CWithClasses.declareObject at hrun
  obtain ⟨object, s₁, hobject, hafter⟩ := exists_of_bind hrun
  obtain ⟨inited, s₂, hinit, hrest⟩ := exists_of_bind hafter
  have hs₁ : s₀.InBody c access old s₁ ∧ object = memberTy ty := by
    unfold checkObjectType at hobject
    unfold memberTy
    split at hobject
    next hvoid =>
      cases hobject
      rw [if_pos hvoid]
      exact ⟨h.reads (.reported s fun h => by cases h), rfl⟩
    next hvoid =>
      cases hobject
      rw [if_neg hvoid]
      exact ⟨h, rfl⟩
  have hs₂ : s₂ = s₁ ∧ inited = object := by
    obtain ⟨count, hsymbols⟩ := hs₁.1.symbols
    have hbody : s₁.symbols.current.isClassBody = true := by
      rw [hsymbols]
      rfl
    obtain ⟨_, s₃, hconstruct, hret⟩ := exists_of_bind hinit
    cases hret
    unfold checkDefaultConstruction at hconstruct
    rw [bind_symbols] at hconstruct
    dsimp only at hconstruct
    rw [hbody] at hconstruct
    cases hclass : object.objectClass? <;> rw [hclass] at hconstruct <;> cases hconstruct <;>
      exact ⟨rfl, rfl⟩
  obtain ⟨rfl, rfl⟩ := hs₂
  obtain ⟨hs₁, rfl⟩ := hs₁
  dsimp only at hrest
  obtain ⟨_, s₃, hdeclare, hret⟩ := exists_of_bind hrest
  cases hret
  exact hs₁.declare hc hname hdeclare

/-- A declarator with a plain name is declared. -/
theorem initDeclarator (h : s₀.InBody c access old s) {q : Node}
    (hq : (perusalLogic fun _ => True).Obeys q.phrase) (hplain : q.declaredName?.isSome)
    (hfresh : (old.map Member.name ++ q.declaredName?.toList).Nodup) {base ty : Ty}
    (hrun : q.phrase.initDeclarator base none s = .ok ty s') :
    ∃ new, Composes s₀.symbols c access base old [q] new ∧ s₀.InBody c access (old ++ new) s' := by
  obtain ⟨name, hname⟩ := Option.isSome_iff_exists.mp hplain
  have hnew : name ∉ old.map Member.name := by
    rw [hname] at hfresh
    exact fun hmem => List.disjoint_of_nodup_append hfresh hmem List.mem_cons_self
  unfold Phrase.initDeclarator at hrun
  obtain ⟨declared, s₁, hread, hrun⟩ := exists_of_bind hrun
  obtain ⟨position, hdeclared⟩ := q.yields_declaredName base s declared s₁ hread name hname
  have hs₁ : s₀.InBody c access old s₁ :=
    h.reads ((hq.self.declarator False base False.elim).reads s declared s₁ hread)
  obtain ⟨count, hsymbols⟩ := h.symbols
  refine ⟨[⟨access, name, memberTy declared.ty⟩], .cons hsymbols hread hname (.nil _), ?_⟩
  rw [hdeclared] at hrun
  dsimp only at hrun
  split at hrun
  next hfunction =>
    rw [memberTy_of_function hfunction]
    exact (hs₁.declareFunction hc hnew hrun).2
  next => exact hs₁.declareObject hc hnew hrun

omit hc in
/-- The type and the width of a bit field are read before its declarator. -/
theorem bitField (h : s₀.InBody c access old s) {q : Node}
    (hq : (perusalLogic fun _ => True).Obeys q.phrase) {base : Ty}
    (hrun : q.phrase.bitField base s = .ok () s') :
    ∃ s₁, s₀.InBody c access old s₁ ∧ (match q.child? 0 with
      | some name => do let _ ← name.phrase.initDeclarator base none
      | none => return : Check Unit) s₁ = .ok () s' := by
  let L := perusalLogic fun _ => True
  unfold Phrase.bitField at hrun
  obtain ⟨width, hwidth, hrun⟩ := Node.exists_of_part hrun
  obtain ⟨ty, s₁, hexpr, hrun⟩ := exists_of_bind hrun
  obtain ⟨_, s₂, hbase, hrun⟩ := exists_of_bind hrun
  obtain ⟨_, s₃, hty, hrun⟩ := exists_of_bind hrun
  have hpart := hq.child hwidth
  have hs₁ := h.reads ((hpart.self.expression False).reads s ty s₁ hexpr)
  have hintegral : ∀ ty position, (checkIntegral ty position).Peruses (fun _ => True) False
      fun _ => True :=
    fun ty position => ReadingLogic.Idle.looks (L := L) (.checkIntegral ty position) False
  have hs₃ :=
    (hs₁.reads ((hintegral _ _).reads s₁ _ s₂ hbase)).reads ((hintegral _ _).reads s₂ _ s₃ hty)
  refine ⟨s₃, hs₃, ?_⟩
  rw [q.phrase_part?] at hrun
  cases hchild : q.child? 0 with
  | none =>
    rw [hchild] at hrun
    exact hrun
  | some r =>
    rw [hchild] at hrun
    exact hrun

/-- An item is declared by its declarator. -/
theorem item (h : s₀.InBody c access old s) {q r : Node}
    (hr : (perusalLogic fun _ => True).Obeys r.phrase) (hdeclarator : q.itemDeclarator? = some r)
    (hplain : r.declaredName?.isSome)
    (hfresh : (old.map Member.name ++ q.itemDeclarator?.toList.filterMap Node.declaredName?).Nodup)
    {base ty : Ty} (hrun : r.phrase.initDeclarator base none s = .ok ty s') :
    ∃ new, Composes s₀.symbols c access base old q.itemDeclarator?.toList new ∧
      s₀.InBody c access (old ++ new) s' := by
  rw [hdeclarator] at hfresh ⊢
  refine h.initDeclarator hc hr hplain ?_ hrun
  cases hname : r.declaredName? <;> simpa [hname] using hfresh

/-- An item of a member declaration is declared. -/
theorem memberDeclarator (h : s₀.InBody c access old s) {q : Node}
    (hq : q.IsItem)
    (hfresh : (old.map Member.name ++ q.itemDeclarator?.toList.filterMap Node.declaredName?).Nodup)
    {base : Ty} (hrun : q.phrase.memberDeclarator base s = .ok () s') :
    ∃ new, Composes s₀.symbols c access base old q.itemDeclarator?.toList new ∧
      s₀.InBody c access (old ++ new) s' := by
  rcases q.memberDeclarator_cases base with ⟨hrule, heq⟩ | hrule | ⟨hrule, heq⟩ | heq
  · rw [heq] at hrun
    obtain ⟨r, hr, hrun⟩ := Node.exists_of_part hrun
    obtain ⟨ty, s₁, hinit, hret⟩ := exists_of_bind hrun
    cases hret
    have hdeclarator : q.itemDeclarator? = some r := by
      unfold Node.itemDeclarator?
      rw [hrule, hr]
    exact h.item hc (hq.child hr) hdeclarator (hq.plain r hdeclarator) hfresh hinit
  · exact absurd hrule hq.uninitialized.1
  · have hdeclarator : q.itemDeclarator? = q.child? 0 := by
      unfold Node.itemDeclarator?
      rw [hrule]
    rw [heq] at hrun
    obtain ⟨s₁, hs₁, hrun⟩ := h.bitField hq.obeys hrun
    cases hchild : q.child? 0 with
    | none =>
      rw [hchild] at hrun
      cases hrun
      rw [hdeclarator, hchild]
      exact ⟨[], .nil _, by rwa [List.append_nil]⟩
    | some r =>
      rw [hchild] at hrun
      obtain ⟨ty, s₂, hinit, hret⟩ := exists_of_bind hrun
      cases hret
      have hr := hdeclarator.trans hchild
      exact hs₁.item hc (hq.child hchild) hr (hq.plain r hr) hfresh hinit
  · rw [heq] at hrun
    obtain ⟨ty, s₁, hinit, hret⟩ := exists_of_bind hrun
    cases hret
    have hself := Node.itemDeclarator?_of_initDeclarator hinit
    exact h.item hc hq.obeys hself (hq.plain q hself) hfresh hinit

/-- An item of any other declaration is declared. -/
theorem initDeclItem (h : s₀.InBody c access old s) {q : Node}
    (hq : q.IsItem)
    (hfresh : (old.map Member.name ++ q.itemDeclarator?.toList.filterMap Node.declaredName?).Nodup)
    {base : Ty} (hrun : q.phrase.initDeclItem base s = .ok () s') :
    ∃ new, Composes s₀.symbols c access base old q.itemDeclarator?.toList new ∧
      s₀.InBody c access (old ++ new) s' := by
  unfold Phrase.initDeclItem at hrun
  rw [q.phrase_rule] at hrun
  by_cases hrule : q.rule = .initDecl
  · rw [if_pos hrule] at hrun
    obtain ⟨r, hr, hrun⟩ := Node.exists_of_part hrun
    obtain ⟨ty, s₁, hinit, hret⟩ := exists_of_bind hrun
    cases hret
    have hdeclarator : q.itemDeclarator? = some r := by
      unfold Node.itemDeclarator?
      rw [hrule, hr]
    rw [q.phrase_part?, hq.uninitialized.2 hrule] at hinit
    exact h.item hc (hq.child hr) hdeclarator (hq.plain r hdeclarator) hfresh hinit
  · rw [if_neg hrule] at hrun
    obtain ⟨ty, s₁, hinit, hret⟩ := exists_of_bind hrun
    cases hret
    have hself := Node.itemDeclarator?_of_initDeclarator hinit
    exact h.item hc hq.obeys hself (hq.plain q hself) hfresh hinit

omit hc in
/-- The items of a declaration are declared one after another. -/
theorem items {items : List Node} {base : Ty} {declare : Phrase → Check Unit}
    (hdeclare : ∀ {old s s'} {q : Node}, s₀.InBody c access old s → q ∈ items →
      (old.map Member.name ++ q.itemDeclarator?.toList.filterMap Node.declaredName?).Nodup →
      declare q.phrase s = .ok () s' →
      ∃ new, Composes s₀.symbols c access base old q.itemDeclarator?.toList new ∧
        s₀.InBody c access (old ++ new) s')
    (h : s₀.InBody c access old s)
    (hfresh : (old.map Member.name ++
      (items.filterMap Node.itemDeclarator?).filterMap Node.declaredName?).Nodup)
    (hrun : (items.map Node.phrase).forM declare s = .ok () s') :
    ∃ new, Composes s₀.symbols c access base old (items.filterMap Node.itemDeclarator?) new ∧
      s₀.InBody c access (old ++ new) s' := by
  induction items generalizing old s with
  | nil =>
    cases hrun
    exact ⟨[], .nil _, by rwa [List.append_nil]⟩
  | cons q rest ih =>
    obtain ⟨_, s₁, hfirst, hrest⟩ := exists_of_bind hrun
    have hsplit : (q :: rest).filterMap Node.itemDeclarator? =
        q.itemDeclarator?.toList ++ rest.filterMap Node.itemDeclarator? := by
      cases hq : q.itemDeclarator? <;> simp [hq]
    rw [hsplit, List.filterMap_append, ← List.append_assoc] at hfresh
    obtain ⟨new, hnew, hs₁⟩ := hdeclare h List.mem_cons_self (List.nodup_append.mp hfresh).1 hfirst
    have hnames : (old ++ new).map Member.name =
        old.map Member.name ++ q.itemDeclarator?.toList.filterMap Node.declaredName? := by
      rw [List.map_append, hnew.map_name]
    obtain ⟨more, hmore, hs'⟩ := ih (fun hs hq => hdeclare hs (List.mem_cons_of_mem _ hq)) hs₁
      (by rwa [hnames]) hrest
    rw [hsplit]
    exact ⟨new ++ more, hnew.append hmore, by rwa [← List.append_assoc]⟩

/-- A function definition declares its function. -/
theorem definition (h : s₀.InBody c access old s) {n : Node}
    (hn : n.isPlainDefinition = true) (hplain : ∀ q ∈ n.memberDeclarators, q.declaredName?.isSome)
    (hfresh : (old.map Member.name ++ n.memberDeclarators.filterMap Node.declaredName?).Nodup)
    {b : FunctionBody} (hrun : n.clause.declareFunctionDef s = .ok b s') :
    ∃ base new s₁ s₂, s₀.InBody c access old s₁ ∧
      checkSpecifiers? (n.memberSpecifiers?.map Node.phrase) s₁ = .ok base s₂ ∧
      Composes s₀.symbols c access base old n.memberDeclarators new ∧
      s₀.InBody c access (old ++ new) s' := by
  obtain ⟨parts, s₁, hparts, -⟩ := exists_of_bind hrun
  obtain ⟨hspecifiers, q, hq, hdeclarator, hsame⟩ := n.yields_functionParts s parts s₁ hparts
  obtain ⟨name, hname⟩ :=
    Option.isSome_iff_exists.mp (hplain q (by rw [hq]; exact List.mem_cons_self))
  have hnew : name ∉ old.map Member.name := by
    rw [hq, List.filterMap_cons_some hname] at hfresh
    exact fun hmem => List.disjoint_of_nodup_append hfresh hmem List.mem_cons_self
  obtain ⟨declared, s₃, position, d, hread, hdefine, hfunction, -⟩ :=
    Clause.exists_of_definedName hrun (hsame.trans hname)
  unfold Clause.readDefinition at hread
  rw [bind_ok hparts] at hread
  obtain ⟨base, s₂, hbase, hread⟩ := exists_of_bind hread
  rw [hspecifiers] at hbase
  rw [hdeclarator] at hread
  obtain ⟨hfirst, hsecond⟩ := Node.functionParts_perused (F := fun _ => True) hn s parts s₁ hparts
  rw [hspecifiers] at hfirst
  rw [hdeclarator] at hsecond
  have hs₁ := h.reads ((n.clause.peruses_functionParts (F := fun _ => True) (p := False)).reads
    s _ s₁ hparts)
  have hs₂ := hs₁.reads ((ReadingLogic.checkSpecifiers (p := False) hfirst).reads s₁ base s₂ hbase)
  have hs₃ := hs₂.reads ((hsecond.self.declarator False base False.elim).reads s₂ declared s₃ hread)
  have hty : memberTy declared.ty = declared.ty := memberTy_of_function hfunction
  refine ⟨base, [⟨access, name, declared.ty⟩], s₁, s₂, hs₁, hbase, ?_, ?_⟩
  · obtain ⟨count, hsymbols⟩ := hs₂.symbols
    rw [hq, ← hty]
    exact .cons hsymbols hread hname (.nil _)
  · unfold defineLocal at hdefine
    rw [bind_symbols] at hdefine
    obtain ⟨count, hsymbols⟩ := hs₃.symbols
    dsimp only at hdefine
    rw [hsymbols, SymbolTable.lookupLocal?_inBody hc hnew] at hdefine
    obtain ⟨bound, s₄, hdeclare, hret⟩ := exists_of_bind hdefine
    cases hret
    exact (hs₃.declareFunction hc hnew hdeclare).2

/-- A declaration of members. -/
theorem declaration (h : s₀.InBody c access old s) {d : Node}
    (hd : d.declaresMembers = true) (hfresh : (old.map Member.name ++ d.memberNames).Nodup)
    {bodies : List FunctionBody} (hrun : d.phrase.memberDeclaration s = .ok bodies s') :
    ∃ base new s₁ s₂, s₀.InBody c access old s₁ ∧
      checkSpecifiers? (d.memberSpecifiers?.map Node.phrase) s₁ = .ok base s₂ ∧
      Composes s₀.symbols c access base old d.memberDeclarators new ∧
      s₀.InBody c access (old ++ new) s' := by
  rw [d.memberNames_eq] at hfresh
  -- Behind the specifiers, the items are declared one after another.
  have hitems : ∀ {declare : Phrase → Check Unit} {base : Ty} {s₁ s' : Checker},
      d.rule ≠ .functionDef → d.rule ≠ .constructorDef →
      (∀ {old s s'} {q : Node}, s₀.InBody c access old s → q.IsItem →
        (old.map Member.name ++ q.itemDeclarator?.toList.filterMap Node.declaredName?).Nodup →
        declare q.phrase s = .ok () s' →
        ∃ new, Composes s₀.symbols c access base old q.itemDeclarator?.toList new ∧
          s₀.InBody c access (old ++ new) s') →
      checkSpecifiers? (d.phrase.part? 0) s = .ok base s₁ →
      (Phrase.flatten? (d.phrase.part? 1)).forM declare s₁ = .ok () s' →
      ∃ base new s₁ s₂, s₀.InBody c access old s₁ ∧
        checkSpecifiers? (d.memberSpecifiers?.map Node.phrase) s₁ = .ok base s₂ ∧
        Composes s₀.symbols c access base old d.memberDeclarators new ∧
        s₀.InBody c access (old ++ new) s' := by
    intro declare base s₁ s' hfunction hconstructor hdeclare hbase hforM
    obtain ⟨hobeys, hall⟩ := Node.isItem_of_declaresMembers hd hfunction hconstructor
    have hdeclarators : d.memberDeclarators = d.declaredItems.filterMap Node.itemDeclarator? := by
      unfold Node.memberDeclarators
      split <;> first | rfl | contradiction
    have hspecifiers : d.memberSpecifiers?.map Node.phrase = d.phrase.part? 0 := by
      rw [d.phrase_part?]
      unfold Node.memberSpecifiers?
      split <;> first | rfl | contradiction
    have hs₁ : s₀.InBody c access old s₁ :=
      h.reads ((ReadingLogic.checkSpecifiers (p := False) fun r hr => hobeys.part hr).reads s
        base s₁ hbase)
    rw [Region.flatten_items] at hforM
    rw [hdeclarators] at hfresh ⊢
    obtain ⟨new, hnew, hs'⟩ := items (fun hs hq => hdeclare hs (hall _ hq)) hs₁ hfresh hforM
    exact ⟨base, new, s, s₁, h, by rw [hspecifiers, hbase], hnew, hs'⟩
  rcases d.memberDeclaration_cases with ⟨hrule, heq⟩ | ⟨hrule, heq⟩ | ⟨hrule, heq⟩ | heq <;>
    rw [heq] at hrun
  · obtain ⟨b, s₁, hdefine, hret⟩ := exists_of_bind hrun
    cases hret
    unfold Node.declaresMembers at hd
    obtain ⟨hplain, hshape⟩ := Bool.and_eq_true_iff.mp hd
    rw [List.all_eq_true] at hplain
    rw [d.phrase_clause] at hdefine
    refine h.definition hc ?_ hplain hfresh hdefine
    rcases hrule with hrule | hrule <;> rw [hrule] at hshape <;> exact hshape
  · obtain ⟨base, s₁, hbase, hrun⟩ := exists_of_bind hrun
    obtain ⟨_, s₂, hforM, hret⟩ := exists_of_bind hrun
    cases hret
    exact hitems (by rw [hrule]; decide) (by rw [hrule]; decide)
      (fun hs hq hfresh hrun => hs.memberDeclarator hc hq hfresh hrun) hbase hforM
  · obtain ⟨_, s₂, hsimple, hret⟩ := exists_of_bind hrun
    cases hret
    obtain ⟨r, hr, hsimple⟩ := Node.exists_of_part hsimple
    obtain ⟨base, s₁, hbase, hforM⟩ := exists_of_bind hsimple
    refine hitems (by rw [hrule]; decide) (by rw [hrule]; decide)
      (fun hs hq hfresh hrun => hs.initDeclItem hc hq hfresh hrun) ?_ hforM
    rw [d.phrase_part?, hr]
    exact hbase
  · cases hrun

/-- The links of a member specification are read one after another. -/
theorem links (h : s₀.InBody c access old s)
    {links : List Node}
    {L : List (Access × Node)} (hL : Node.placedFrom? access links = some L)
    (hmembers : ∀ d ∈ L, d.2.declaresMembers = true)
    (hfresh : (old.map Member.name ++ Region.namesOf L).Nodup) {bodies : List (List FunctionBody)}
    (hrun : (links.map Node.phrase).mapM Phrase.memberLink s = .ok bodies s') :
    ∃ access' new, Fills s₀.symbols c old L new ∧ s₀.InBody c access' (old ++ new) s' := by
  induction links generalizing access old L s bodies with
  | nil =>
    cases hL
    cases hrun
    exact ⟨access, [], .nil _, by rwa [List.append_nil]⟩
  | cons link links ih =>
    rw [List.map_cons, List.mapM_cons] at hrun
    obtain ⟨first, s₁, hlink, hrun⟩ := exists_of_bind hrun
    obtain ⟨others, s₂, hrest, hret⟩ := exists_of_bind hrun
    cases hret
    rcases Region.memberLink_cases hL with ⟨d, L', rfl, hL', heq⟩ | ⟨access', hL', heq⟩ <;>
      rw [heq] at hlink
    · rw [Region.namesOf, List.flatMap_cons, ← List.append_assoc] at hfresh
      obtain ⟨base, new, s₂, s₃, hs₂, hbase, hnew, hs₁⟩ :=
        h.declaration hc (hmembers _ List.mem_cons_self) (List.nodup_append.mp hfresh).1 hlink
      obtain ⟨count, hsymbols⟩ := hs₂.symbols
      obtain ⟨access', more, hmore, hs'⟩ := ih hs₁ hL'
        (fun d hd => hmembers d (List.mem_cons_of_mem _ hd))
        (by rwa [List.map_append, hnew.map_name, ← Node.memberNames_eq]) hrest
      exact ⟨access', new ++ more, .cons hsymbols hbase hnew hmore, by rwa [← List.append_assoc]⟩
    · cases hlink
      exact ih (h.setAccess access') hL' hmembers hfresh hrest

end Made

end Checker.InBody

end CWithClasses
