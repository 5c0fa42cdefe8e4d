import CWithClasses.Proofs.MemberTables.Body
import CWithClasses.Proofs.Retention.Step

/-!
# The tables of a class

The class specification as a whole: a class is opened, its members are declared, and the bodies of
its methods are checked afterwards, when the class is complete. The bodies may do anything, but they
lose nothing that was there before. So each member ends up in the table of the access region that it
stands in, with the type that its declarator is composed to.
-/

namespace CWithClasses

open Check
open Node (word tree)

/-! ### Opening the class and closing it -/

namespace SymbolTable

variable {t t' : SymbolTable} {c : ClassRef} {name : String}

/-- A new class leaves the meanings of names alone. -/
theorem lookupLocal?_newClass (t : SymbolTable) (className name : String) :
    ((t.newClass className).2.declareClass (t.newClass className).1).lookupLocal? name =
      t.lookupLocal? name := by
  obtain ⟨-, -, hbindings, hcls⟩ :=
    declareClass_rest (t.newClass className).2 (t.newClass className).1
  have hmore := t.moreClasses_newClass className (t.newClass className).1
  unfold lookupLocal? findIn
  rw [hcls, hbindings]
  unfold member?
  simp only [hmore.classBody_eq]
  rfl

/-- What a name means is retained. -/
theorem Retains.lookupLocal? (h : t.Retains True [] t') {ty : Ty}
    (hbound : t.lookupLocal? name = some ty) : t'.lookupLocal? name = some ty := by
  have hcurrent : t'.current = t.current := (List.cons.inj h.frames_eq).1
  cases hcls : t.current.cls? with
  | none =>
    rw [lookupLocal?_eq hcls] at hbound
    rw [lookupLocal?_eq (hcurrent ▸ hcls), hcurrent, hbound]
  | some c =>
    rw [lookupLocal?_of_cls? hcls] at hbound
    rw [lookupLocal?_of_cls? (hcurrent ▸ hcls)]
    obtain ⟨m, hm, rfl⟩ := Option.map_eq_some_iff.mp hbound
    exact congrArg (Option.map _) (h.members hm)

end SymbolTable

/-- The body of a new class is opened. -/
theorem Checker.InBody.start {s₀ : Checker} {c : ClassRef} (hempty : s₀.symbols.classBody c = {})
    (access : Access) : s₀.InBody c access [] ((s₀.opened (.classBody c)).withAccess access) := by
  refine ⟨⟨0, ?_⟩, List.prefix_rfl, rfl, rfl⟩
  have hclasses : (s₀.symbols.modifyClass c fun _ => .ofMembers []).classes =
      s₀.symbols.classes := by
    refine Array.ext_getElem? fun i => ?_
    change (s₀.symbols.classes.modify c.id _)[i]? = _
    rw [Array.getElem?_modify]
    split
    next heq =>
      subst heq
      unfold SymbolTable.classBody at hempty
      cases hb : s₀.symbols.classes[c.id]? with
      | none => rfl
      | some b =>
        rw [hb] at hempty
        exact congrArg some hempty.symm
    next => rfl
  unfold SymbolTable.inBody
  rw [hclasses, Array.replicate_zero, Array.append_empty]
  rfl

/-- When the class is complete, the state around its body has kept what was there, and the methods
can be checked. -/
theorem Checker.InBody.completed {s₀ s : Checker} {c : ClassRef} {access : Access}
    {members : List Member} (h : s₀.InBody c access members s) (hs₀ : s₀.Settled) (hc : s₀.Opens c)
    (hempty : s₀.symbols.classBody c = {}) :
    ∃ s₁ : Checker, s₁.Settled ∧ s₀.symbols.Retains True [] s₁.symbols ∧
      s₁.symbols.classBody c = { ClassBody.ofMembers members with complete := true } ∧
      s₁.Retains True [.classBody c] [] { s with symbols := s.symbols.markComplete c } := by
  obtain ⟨count, hsymbols⟩ := h.symbols
  let filled : ClassBody := { ClassBody.ofMembers members with complete := true }
  let table : SymbolTable :=
    { s₀.symbols.modifyClass c fun _ => filled with
      bodies := s₀.symbols.bodies ++ Array.replicate count none }
  have hcompleted : s.symbols.markComplete c =
      { table with current := { kind := .classBody c, access }, outer := s₀.symbols.frames } := by
    rw [hsymbols]
    exact congrArg (fun t : SymbolTable => { table with
      current := { kind := .classBody c, access }
      outer := s₀.symbols.frames
      classes := t.classes }) (s₀.symbols.modifyClass_modifyClass c (fun _ => .ofMembers members)
        fun b => { b with complete := true })
  have hretains : s₀.symbols.Retains True [] table := by
    have hclass : s₀.symbols.Retains True [] (s₀.symbols.modifyClass c fun _ => filled) := by
      refine (SymbolTable.Retains.refl _).modifyClass fun b _ hb _ _ => ?_
      obtain rfl : b = {} := by
        unfold SymbolTable.classBody at hempty
        rwa [hb] at hempty
      exact ⟨fun _ _ hm => (by cases hm), fun x hx =>
        absurd hx (ClassBody.not_has_of_isEmpty rfl x), fun _ hcomplete => (by cases hcomplete)⟩
    exact { hclass with
      bodies := fun i f hf => (SymbolTable.join_append_none ..).trans hf
      stored := fun i f hf => .inl ((SymbolTable.join_append_none ..).symm.trans hf) }
  have hkept : s₀.Retains True [] [] { s with symbols := table } :=
    ⟨hretains, h.resolutions, h.returns, h.held⟩
  refine ⟨{ s with symbols := table }, ?_, hretains, ?_, ?_, List.prefix_rfl, rfl, rfl⟩
  · refine hkept.settled hs₀ (fun i hi => .inl ?_) fun i hi => ?_
    · rw [SymbolTable.mem_liveBodies] at hi ⊢
      rwa [← SymbolTable.join_append_none s₀.symbols.bodies count]
    · refine (SymbolTable.liveClasses_modifyClass hi).imp_right fun heq => ?_
      rw [heq]
      exact hkept.allMentions hc.allMentions
  · refine (SymbolTable.classBody_modifyClass hc.made c).trans ?_
    rw [if_pos rfl]
  · change table.Retains True [.classBody c] (s.symbols.markComplete c)
    rw [hcompleted]
    exact ((SymbolTable.Retains.refl table).push (.classBody c)).withCurrent
      (fun _ => List.cons_ne_nil _ _)
      ⟨rfl, List.Subset.refl _, List.Subset.refl _, fun _ => .inl, fun _ => ⟨rfl, rfl⟩⟩

/-- The class of a class head whose name is free. It is new, and the name means it. -/
theorem Checker.Grounded.openClass_free {s s₀ : Checker} {c : ClassRef} {token : Token}
    (h : s.Grounded) (hfree : s.symbols.lookupLocal? token.text = none)
    (hrun : CWithClasses.openClass token s = .ok c s₀) :
    s₀.Opens c ∧ s₀.symbols.classBody c = {} ∧ c = ⟨s.symbols.classes.size, token.text⟩ ∧
      s₀.symbols.lookupLocal? token.text = some (.object c) := by
  unfold CWithClasses.openClass at hrun
  rw [bind_symbols, hfree] at hrun
  obtain ⟨d, s₁, hnew, hrun⟩ := exists_of_bind hrun
  obtain ⟨_, s₂, hdeclare, hret⟩ := exists_of_bind hrun
  cases hret
  obtain ⟨hopens, hempty, hc, hcls⟩ := Opens.newClass h hnew
  have hgrounded := (h.step (.newClass token.text) hnew).1
  have hfree₁ : s₁.symbols.lookupLocal? token.text = none := by
    cases hnew
    exact (SymbolTable.lookupLocal?_newClass ..).trans hfree
  obtain ⟨t, hinsert, hbound⟩ := SymbolTable.insert_free
    (fun e => hgrounded.made_of_cls? List.mem_cons_self) hfree₁ (.object c)
  have hother : ∀ e, s₁.symbols.current.cls? = some e → c.id ≠ e.id := by
    intro e he
    have hmade := h.made_of_cls? List.mem_cons_self (hcls ▸ he)
    rw [hc]
    exact hmade.ne'
  obtain ⟨hopens', hsame⟩ := hopens.insert hinsert hother
  rw [declare_eq token.position hinsert] at hdeclare
  cases hdeclare
  exact ⟨hopens', hsame.trans hempty, hc, hbound⟩

/-! ### Classes -/

/-- The tree specifies a class with a name. Its members are declared in the given regions, of which
the first one depends on the key: it is private after `class`, and public after `struct` and
`union`. -/
structure Node.SpecifiesClass (n head : Node) (key name : Token)
    (L : List (Access × Node)) : Prop where
  opening : n.child? 0 = some head ∧ head.rule = .classHead
  keyword : ∃ word, head.child? 0 = some word ∧ word.token = some key
  named : ∃ word, head.child? 1 = some word ∧ word.token = some name
  regions : key.kind = .classKey ∧ Regions .priv (n.child? 1) L ∨
    (key.kind = .structKey ∨ key.kind = .unionKey) ∧ Regions .pub (n.child? 1) L

/-- What is left to be checked behind the links of a member specification. -/
theorem Check.Retentive.yields_classLinks {s₀ : Checker} (hs₀ : s₀.Settled) (n : Node) :
    ((n.classLinks.map Node.phrase).mapM Phrase.memberLink).Yields fun bodies =>
      ∀ b ∈ bodies.flatten, (retentionLogic hs₀ True).Body b := by
  have hlinks : ∀ link ∈ n.classLinks.map Node.phrase,
      (retentionLogic hs₀ True).MemberLink link := by
    unfold Node.classLinks
    cases n.child? 1 with
    | none => exact fun _ hlink => by cases hlink
    | some chain =>
      have hsound := (retentionLogic hs₀ True).sound .memberSpec chain (.inl trivial)
      change ∀ link ∈ chain.memberLinks.map Node.phrase, _
      rw [← chain.phrase_memberLinks]
      exact hsound
  have hall := StepRules.yields.mapM (p := True) fun link hlink (_ : True) =>
    (hlinks link hlink).bodies
  intro s bodies s' hrun b hb
  obtain ⟨list, hlist, hmem⟩ := List.mem_flatten.mp hb
  exact hall trivial s bodies s' hrun list hlist b hmem

/-- The bodies of methods lose nothing, and then the class is closed. -/
theorem Checker.Retains.methods {s₁ s s' : Checker} (hs₁ : s₁.Settled) {kind : FrameKind}
    {bodies : List FunctionBody} (hbodies : ∀ b ∈ bodies, (retentionLogic hs₁ True).Body b)
    (h : s₁.Retains True [kind] [] s)
    (hrun : (do bodies.forM FunctionBody.check; dropScope : Check Unit) s = .ok () s') :
    s₁.Retains True [] [] s' := by
  obtain ⟨_, s₂, hchecked, hdrop⟩ := exists_of_bind hrun
  have hbody : ∀ b ∈ bodies, b.check.Retaining s₁ True [kind] [] fun _ => True := by
    intro b hb
    obtain ⟨f, hf⟩ := StepLogic.exists_asFunction (hbodies b hb).function
    have hrun : Retentive s₁ True b.run :=
      .run (fun init hinit => (hbodies b hb).ctorInit init hinit True) ((hbodies b hb).block True)
    exact Retentive.functionBody hs₁ hf hrun _ _
  obtain ⟨hs₂, -⟩ := Retaining.forM hbody s _ s₂ h hchecked
  obtain ⟨rest, hpop, htable⟩ := hs₂.symbols.pop
  unfold dropScope at hdrop
  rw [bind_ok (popScope_eq hpop)] at hdrop
  refine (Retaining.discard hs₁ hs₂.symbols.current.late_of_new _ _ s' ?_ hdrop).1
  exact ⟨htable, hs₂.resolutions, hs₂.returns, hs₂.held⟩

/-- The class head opens the class that has the name. -/
theorem Node.SpecifiesClass.classHead_eq {n head : Node} {key name : Token}
    {L : List (Access × Node)}
    (h : n.SpecifiesClass head key name L) : head.phrase.classHead = openClass name := by
  obtain ⟨word, hword, hname⟩ := h.named
  unfold Phrase.classHead Phrase.part Clause.part
  rw [head.phrase_rule, h.opening.2, head.phrase_clause, head.clause_part?, hword]
  change (do openClass (← liftM word.phrase.node.leafToken)) = _
  unfold Node.leafToken
  rw [word.phrase_node, hname]
  rfl

/-- The members of a class end up in the tables of their regions. The class needs a name that is
free in the scope around it, and members with plain names that differ from one another. Then the
class is new and complete afterwards. Each of its tables holds the names that are declared in its
region, and the type of a member is the one that its declarator is composed to, except that a member
of type `void` has an unknown type. The name of the class means it in the scope around it. This
holds in states that are grounded, as the state is in which a check starts, and with it all that a
check comes to (`Checker.grounded_of_comesTo`). -/
theorem Node.checkClassSpec_tables :
    (∀ config, (Checker.start config).Grounded) ∧
    ∀ {n head : Node} {key name : Token} {L : List (Access × Node)} {s s' : Checker} {ty : Ty},
      n.SpecifiesClass head key name L → (∀ d ∈ L, d.2.declaresMembers = true) →
      (Region.namesOf L).Nodup → s.Grounded → s.symbols.lookupLocal? name.text = none →
      n.checkClassSpec s = .ok ty s' →
      ∃ c s₀ found, head.phrase.classHead s = .ok c s₀ ∧ ty = .object c ∧
        c = ⟨s.symbols.classes.size, name.text⟩ ∧ Fills s₀.symbols c [] L found ∧
        found.map (fun m => (m.access, m.name)) =
          L.flatMap (fun d => d.2.memberNames.map (d.1, ·)) ∧
        s'.symbols.classBody c = { ClassBody.ofMembers found with complete := true } ∧
        s'.symbols.frames = s₀.symbols.frames ∧
        s'.symbols.lookupLocal? name.text = some (.object c) := by
  refine ⟨Checker.grounded_start, ?_⟩
  intro n head key name L s s' ty hn hmembers hfresh hs hfree hrun
  obtain ⟨hhead, hrule⟩ := hn.opening
  obtain ⟨keyword, hkeyword, hkey⟩ := hn.keyword
  have hregions : key.kind.isClassKey = true ∧
      placedFrom? key.kind.defaultAccess n.classLinks = some L := by
    rcases hn.regions with ⟨hkind, hregions⟩ | ⟨hkind | hkind, hregions⟩ <;> rw [hkind] <;>
      exact ⟨rfl, hregions.placedFrom?⟩
  obtain ⟨hclassKey, hL⟩ := hregions
  rw [checkClassSpec_eq hhead hkeyword hkey, hclassKey] at hrun
  obtain ⟨c, s₀, hopen, hrun⟩ := exists_of_bind hrun
  obtain ⟨_, s₁, hread, hrun⟩ := exists_of_bind hrun
  cases hrun
  have hsettled := (hs.step (.classHead head) hopen).1.settled
  obtain ⟨hopens, hempty, hnew, hbound⟩ :=
    hs.openClass_free hfree (hn.classHead_eq ▸ hopen)
  obtain ⟨bodies, s₂, hlinks, hread⟩ := exists_of_bind
    (s := (s₀.opened (.classBody c)).withAccess key.kind.defaultAccess) hread
  have hs₁ := Checker.InBody.start hempty key.kind.defaultAccess
  obtain ⟨access, found, hfills, hs₂⟩ := hs₁.links hopens.made hL hmembers hfresh hlinks
  obtain ⟨around, haround, hbefore, hclass, hinside⟩ := hs₂.completed hsettled hopens hempty
  have hbodies := Retentive.yields_classLinks haround n _ bodies s₂ hlinks
  have hafter : around.Retains True [] [] s₁ := hinside.methods haround hbodies hread
  refine ⟨c, s₀, found, hopen, rfl, hnew, hfills, hfills.names, ?_, ?_, ?_⟩
  · have hcomplete : around.symbols.isComplete c = true := by
      unfold SymbolTable.isComplete
      rw [hclass]
    exact (hafter.symbols.classBody_eq trivial hcomplete).trans hclass
  · exact hafter.symbols.frames_eq.trans hbefore.frames_eq
  · exact hafter.symbols.lookupLocal? (hbefore.lookupLocal? hbound)

/-- A class with members in all kinds of regions, and a method with a class of its own:
`class S { int width : 3; public: void nothing; int twice() { struct S { }; return width; }
protected: int *next; };`. -/
def layeredClass : Node :=
  let name (text : String) : Option Node := word .identifier text
  let method : Option Node := tree .functionDef [word .intType "int",
    tree .functionDeclarator [name "twice", none], tree .compound [tree .statementSeq
      [tree .simpleDecl
          [tree .classSpec [tree .classHead [word .structKey "struct", name "S"], none], none],
        tree .returnJump [name "width"]]]]
  { rule := .classSpec
    children := [tree .classHead [word .classKey "class", name "S"],
      tree .memberSpec [tree .memberDecl [word .intType "int", tree .bitField
          [name "width", word .intConst "3"]],
        tree .accessSpec [word .publicAccess "public",
          tree .memberSpec [tree .memberDecl [word .voidType "void", name "nothing"],
            tree .memberSpec [method,
              tree .accessSpec [word .protectedAccess "protected",
                tree .memberDecl [word .intType "int",
                  tree .pointerDeclarator [word .star "*", name "next"]]]]]]]] }

/-- The members stand in the regions that their access specifiers open, and the class of the same
name within the method leaves the name of the class as it is. -/
theorem checkClassSpec_layeredClass : ∃ c s' found,
    layeredClass.checkClassSpec (.start .bare) = .ok (.object c) s' ∧
    s'.symbols.classBody c = { ClassBody.ofMembers found with complete := true } ∧
    found.map (fun m => (m.access, m.name)) =
      [(.priv, "width"), (.pub, "nothing"), (.pub, "twice"), (.priv, "next")] ∧
    s'.symbols.lookupLocal? "S" = some (.object c) := by
  obtain ⟨hstart, htables⟩ := Node.checkClassSpec_tables
  have hfindings : layeredClass.classFindings? .bare =
      some (⟨0, "S"⟩, [("twice", "int ()", true), ("nothing", "<unknown>", false)], 1) := by
    decide +kernel
  obtain ⟨s', hrun, -, -⟩ := Node.exists_of_classFindings? hfindings
  have hregions : Node.Regions .priv (layeredClass.child? 1) (layeredClass.placed?.getD []) :=
    .member rfl rfl (.publicAccess rfl rfl rfl rfl (.member rfl rfl (.member rfl rfl
      (.privateAccess rfl rfl rfl (.inr rfl) (.last (by decide) (by decide))))))
  obtain ⟨c, -, found, -, hc, -, -, hnames, hbody, -, hbound⟩ := htables
    (n := layeredClass) ⟨⟨rfl, rfl⟩, ⟨_, rfl, rfl⟩, ⟨_, rfl, rfl⟩, .inl ⟨rfl, hregions⟩⟩
    (by decide) (by decide) (hstart .bare) (by decide +kernel) hrun
  cases hc
  exact ⟨_, s', found, hrun, hbody, hnames, hbound⟩

end CWithClasses
