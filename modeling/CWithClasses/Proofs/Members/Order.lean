import CWithClasses.Proofs.Members.Class
import CWithClasses.Proofs.TypeNames

/-!
# The order of members

The order of the members of a class does not matter, as long as they stay in their access regions
and none of them hides a type name. Methods are numbered in the order in which they are declared, so
two runs make the same functions with different numbers. Once all members are declared, the two
states match up to these numbers, and then each body is checked alike.
-/

namespace CWithClasses

open Check
open Node (word tree)

/-! ### Tables in another order -/

/-- In a table in which no name occurs twice, the order does not matter. -/
theorem Bindings.lookup_perm {b b' : Bindings} (h : b.Perm b') (hnodup : (b.map Prod.fst).Nodup)
    (name : String) : b'.lookup name = b.lookup name := by
  induction h with
  | nil => rfl
  | cons entry _ ih => rw [List.lookup_cons, List.lookup_cons, ih (List.nodup_cons.mp hnodup).2]
  | swap entry entry' rest =>
    obtain ⟨key, ty⟩ := entry
    obtain ⟨key', ty'⟩ := entry'
    have hne : key' ≠ key := fun heq => (List.nodup_cons.mp hnodup).1 (heq ▸ List.mem_cons_self)
    simp only [List.lookup_cons]
    cases hfirst : name == key <;> cases hsecond : name == key'
    case true.true => exact absurd ((beq_iff_eq.mp hsecond).symm.trans (beq_iff_eq.mp hfirst)) hne
    all_goals rfl
  | trans h₁₂ _ ih ih' =>
    rw [ih' ((h₁₂.map Prod.fst).nodup_iff.mp hnodup), ih hnodup]

namespace Effect

variable {E F : Effect} {σ : Renaming}

/-- The tables of members in another order. -/
theorem table_perm (h : (E.rename σ).members.Perm F.members) (access : Access) :
    (Bindings.rename σ (E.table access)).Perm (F.table access) := by
  have htable : Bindings.rename σ (E.table access) = (E.rename σ).table access := by
    unfold table rename Bindings.rename
    rw [List.filter_map, List.map_map, List.map_map]
    rfl
  rw [htable]
  exact (h.filter _).map _

/-- No name occurs twice in a table if none is added twice. -/
theorem nodup_table (h : E.names.Nodup) (access : Access) :
    ((E.table access).map Prod.fst).Nodup := by
  refine List.Nodup.sublist ?_ h
  unfold table names
  rw [List.map_map]
  exact (List.filter_sublist).map _

/-- A class that gets the same members in another order. -/
theorem seen_gain {b : ClassBody} (h : (E.rename σ).members.Perm F.members) (hE : E.names.Nodup)
    (hb : ∀ x, b.mentions.Has x → σ.either x = x) :
    ClassBody.Seen σ False { b.gain E with complete := true }
      { b.gain F with complete := true } := by
  have hold := ClassBody.seen_of_kept hb
  have htable : ∀ access (rest : Bindings), Bindings.Seen σ [] rest rest →
      Bindings.Seen σ [] (E.table access ++ rest) (F.table access ++ rest) := by
    intro access rest hrest name hname
    have hnodup : ((Bindings.rename σ (E.table access)).map Prod.fst).Nodup := by
      unfold Bindings.rename
      rw [List.map_map]
      exact nodup_table hE access
    rw [List.lookup_append, List.lookup_append, Bindings.lookup_perm (table_perm h access) hnodup,
      Bindings.lookup_rename]
    cases (E.table access).lookup name with
    | none => exact hrest name hname
    | some ty => rfl
  have hprivate := htable .priv b.privateMembers (hold.privateMembers not_false)
  refine ⟨htable .pub b.publicMembers hold.publicMembers, fun name => ?_, fun _ => hprivate, rfl⟩
  change (List.lookup name (F.table .priv ++ b.privateMembers)).isSome =
    (List.lookup name (E.table .priv ++ b.privateMembers)).isSome
  rw [hprivate name List.not_mem_nil, Option.isSome_map]

end Effect

/-! ### Contributions in another order -/

namespace Contribution.Renumbered

variable {base : Nat} {ρ : Renaming} {Cs Cs' : List Contribution}

/-- The same bodies are left. -/
theorem bodies_perm (h : Renumbered base ρ Cs Cs') :
    ((allBodies Cs).map (FunctionBody.rename ρ)).Perm (allBodies Cs') := by
  have hbodies := h.perm.flatMap_right fun C => C.bodies
  unfold allBodies
  rw [List.map_flatMap]
  rwa [List.flatMap_map] at hbodies

/-- The same methods have bodies. -/
theorem mem_numbers (h : Renumbered base ρ Cs Cs') (i : Nat) :
    ρ.fn i ∈ FunctionBody.numbers (allBodies Cs') ↔ i ∈ FunctionBody.numbers (allBodies Cs) := by
  have hperm := h.bodies_perm.filterMap fun b => b.ty.asFunction?.map FunctionTy.id
  have hmap : ((allBodies Cs).map (FunctionBody.rename ρ)).filterMap
      (fun b => b.ty.asFunction?.map FunctionTy.id) =
        (FunctionBody.numbers (allBodies Cs)).map ρ.fn := by
    unfold FunctionBody.numbers
    rw [List.filterMap_map, List.map_filterMap]
    refine List.filterMap_congr fun b _ => ?_
    change (b.ty.rename ρ).asFunction?.map FunctionTy.id = _
    rw [Ty.asFunction?_rename, Option.map_map, Option.map_map]
    rfl
  rw [hmap] at hperm
  exact hperm.mem_iff.symm.trans (List.mem_map_of_injective ρ.injective_fn)

/-- Other functions keep their numbers. -/
theorem lt_iff (h : Renumbered base ρ Cs Cs') (i : Nat) : ρ.fn i < base ↔ i < base := by
  constructor
  · intro hlt
    have hsame : ρ.fn (ρ.fn i) = ρ.fn i := h.outside _ (.inl hlt)
    rwa [ρ.injective_fn hsame] at hlt
  · intro hlt
    rwa [h.outside i (.inl hlt)]

/-- What has been made before keeps its number. -/
theorem keptBy {t : SymbolTable} (h : Renumbered t.bodies.size ρ Cs Cs') : t.KeptBy ρ := by
  intro x hx
  cases x with
  | inl i => exact congrArg Sum.inl (h.outside i (.inl hx))
  | inr i => exact congrArg Sum.inr (h.classes i)

end Contribution.Renumbered

/-! ### Two runs -/

/-- A table of a class as it is written out: for each member its name, its type, and whether it is a
function that has a body. -/
def SymbolTable.written (t : SymbolTable) (c : ClassRef) (access : Access) :
    List (String × String × Bool) :=
  ((t.classBody c).table access).map fun entry => (entry.1, entry.2.render, t.isDefined entry.2)

/-- What is added for a body is determined. -/
theorem Checker.rightUnique_adds (s : Checker) : Relator.RightUnique s.Adds := by
  rintro b new new' ⟨s₁, hrun, hnew⟩ ⟨s₂, hrun', hnew'⟩
  rw [hrun] at hrun'
  cases hrun'
  exact List.append_cancel_left (hnew.symm.trans hnew')

namespace Checker

variable {s t t' : Checker} {c : ClassRef} {types : List String} {L L' : List (Access × Node)}
  {Cs Cs' : List Contribution} {ρ : Renaming} {news news' : List (List Diagnostic)}
  {access access' : Access} {log log' : List Event} {links links' : List Node}

open Contribution (Renumbered total allBodies)

/-- When all members are declared, the two states match. -/
theorem Enters.matches (h : s.Enters c types L) (hρ : Renumbered s.symbols.bodies.size ρ Cs Cs')
    (hCs : (s.region c types).Spread s.symbols.bodies.size L Cs) :
    (s.filled c access (total Cs) log).Matches ρ (s.filled c access' (total Cs') log') := by
  have hrooted := h.grounded.toRooted
  have hkept : s.symbols.KeptBy ρ := hρ.keptBy
  have hclass : ∀ d : ClassRef, d.rename ρ = d := fun d => by
    unfold ClassRef.rename
    rw [hρ.classes]
  have hsize : ∀ {E : Effect} {access log}, (s.filled c access E log).symbols.bodies.size =
      s.symbols.bodies.size + E.count := by
    intro E access log
    change (s.symbols.bodies ++ Array.replicate _ none).size = _
    rw [Array.size_append, Array.size_replicate]
  refine ⟨⟨.cons ?_ ?_, fun d => ?_, fun _ _ => not_false⟩,
    ⟨rfl, rfl, ?_⟩, fun k => ?_, fun k => ?_,
    ⟨h.limit, h.limit⟩, ⟨settled_filled h.grounded.settled h.opens,
      settled_filled h.grounded.settled h.opens⟩⟩
  · refine ⟨?_, fun _ _ => rfl⟩
    change FrameKind.classBody c = .classBody (c.rename ρ)
    rw [hclass]
  · exact List.forall₂_same.mpr fun f hf =>
      Frame.seen_of_kept fun x hx => hkept x (hrooted.scopes f hf x hx)
  · change ClassBody.Seen ρ False _ (SymbolTable.classBody _ (d.rename ρ))
    rw [hclass, classBody_filled h.opens.made, classBody_filled h.opens.made]
    have hmembers : ∀ e x, (s.symbols.classBody e).mentions.Has x → ρ.either x = x :=
      fun e x hx => hkept x (hrooted.classBody e hx)
    split
    · have hnames : (total Cs).names.Nodup :=
        List.nodup_reverse.mp (h.nodup.sublist hCs.names_sublist)
      exact Effect.seen_gain hρ.members_perm hnames (hmembers c)
    · exact ClassBody.seen_of_kept (hmembers d)
  · refine List.forall₂_same.mpr fun ty hty => (Ty.rename_eq_of_kept fun x hx => ?_).symm
    exact hkept x (hrooted.returns ty hty x hx)
  · rw [hρ.classes]
    change _ = (s.symbols.classes.modify c.id _).size + k
    rw [Array.size_modify]
    exact congrArg (· + k) Array.size_modify
  · rw [hsize, hsize, hρ.count_eq]
    exact hρ.outside _ (.inr (by omega))

namespace HasRead

/-- The same functions have bodies. -/
theorem isDefined_eq (h : s.HasRead c Cs news t) (h' : s.HasRead c Cs' news' t')
    (hρ : Renumbered s.symbols.bodies.size ρ Cs Cs') (ty : Ty) :
    t'.symbols.isDefined (ty.rename ρ) = t.symbols.isDefined ty := by
  unfold SymbolTable.isDefined
  rw [Ty.asFunction?_rename]
  cases ty.asFunction? with
  | none => rfl
  | some f =>
    change (t'.symbols.bodies[ρ.fn f.id]?.join).isSome = (t.symbols.bodies[f.id]?.join).isSome
    have hlive : ∀ i, ρ.fn i ∈ s.symbols.liveBodies ↔ i ∈ s.symbols.liveBodies := by
      intro i
      have hbound : ∀ {j}, j ∈ s.symbols.liveBodies → j < s.symbols.bodies.size := by
        intro j hj
        by_contra hnot
        rw [SymbolTable.mem_liveBodies, Array.getElem?_eq_none (Nat.le_of_not_lt hnot)] at hj
        cases hj
      constructor
      · intro hi
        rwa [hρ.outside i (.inl ((hρ.lt_iff i).mp (hbound hi)))] at hi
      · intro hi
        rwa [hρ.outside i (.inl (hbound hi))]
    rw [Bool.eq_iff_iff, ← SymbolTable.mem_liveBodies, ← SymbolTable.mem_liveBodies, h.defined,
      h'.defined, hlive, hρ.mem_numbers]

/-- The tables of the class are written alike. -/
theorem written_perm (h : s.HasRead c Cs news t) (h' : s.HasRead c Cs' news' t')
    (hρ : Renumbered s.symbols.bodies.size ρ Cs Cs') (hs : s.Rooted) (access : Access) :
    (t.symbols.written c access).Perm (t'.symbols.written c access) := by
  have htable : ∀ {E : Effect} {b : ClassBody}, ({ b.gain E with complete := true } :
      ClassBody).table access = E.table access ++ b.table access := by
    intro E b
    cases access <;> rfl
  have hold : Bindings.rename ρ ((s.symbols.classBody c).table access) =
      (s.symbols.classBody c).table access := by
    refine (List.map_congr_left fun entry hentry => ?_).trans (List.map_id _)
    have hmention : ∀ x, entry.2.mentions.Has x → (s.symbols.classBody c).mentions.Has x := by
      intro x hx
      unfold ClassBody.mentions
      rw [Mentions.has_append]
      cases access with
      | pub => exact .inl (Mentions.has_ofList.mpr ⟨entry, hentry, hx⟩)
      | priv => exact .inr (Mentions.has_ofList.mpr ⟨entry, hentry, hx⟩)
    exact congrArg (entry.1, ·) (Ty.rename_eq_of_kept fun x hx =>
      hρ.keptBy x (hs.classBody c (hmention x hx)))
  have hperm : (Bindings.rename ρ ((t.symbols.classBody c).table access)).Perm
      ((t'.symbols.classBody c).table access) := by
    rw [h.members, h'.members, htable, htable]
    unfold Bindings.rename at hold ⊢
    rw [List.map_append, hold]
    exact (Effect.table_perm hρ.members_perm access).append_right _
  refine List.Perm.trans (.of_eq ?_) (hperm.map _)
  unfold SymbolTable.written Bindings.rename
  rw [List.map_map]
  refine List.map_congr_left fun entry _ => ?_
  change _ = (entry.1, (entry.2.rename ρ).render, t'.symbols.isDefined (entry.2.rename ρ))
  rw [Ty.render_rename, h.isDefined_eq h' hρ]

end HasRead

/-- Reading a class whose members are in another order. -/
theorem Enters.readClass_perm (h : s.Enters c types L) (hperm : L.Perm L')
    (hL : Node.placedFrom? access links = some L) (hL' : Node.placedFrom? access links' = some L')
    (hrun : Check.readClass c access links s = .ok () t) :
    ∃ t', Check.readClass c access links' s = .ok () t' ∧
      (∀ access, (t.symbols.written c access).Perm (t'.symbols.written c access)) ∧
      t.diagnostics.Perm t'.diagnostics := by
  have h' := h.perm hperm
  obtain ⟨Cs, hCs⟩ : ∃ Cs, (s.region c types).Spread s.symbols.bodies.size L Cs := by
    unfold Check.readClass at hrun
    obtain ⟨bodies, s₁, hlinks, -⟩ :=
      exists_of_bind (s := (s.opened (.classBody c)).withAccess access) hrun
    exact Region.Spread.of_links (s := (s.opened (.classBody c)).withAccess access) hL h.plain
      (h.holds access) (h.fresh access) hlinks
  obtain ⟨ρ, Cs', hCs', hρ⟩ := hCs.perm hperm ((h.fresh .pub).admits (h.holds .pub) h.plain)
  obtain ⟨first, log, heq⟩ := h.readClass_eq hL hCs
  obtain ⟨second, log', heq'⟩ := h'.readClass_eq hL' hCs'
  rw [heq] at hrun
  obtain ⟨_, s₁, hbodies, hdrop⟩ := exists_of_bind hrun
  obtain ⟨news, t₁, hnews, hdrop₁, hread⟩ := h.finish hCs hbodies
  obtain rfl : t = t₁ := by
    rw [hdrop] at hdrop₁
    cases hdrop₁
    rfl
  have hmatches : (s.filled c first (total Cs) log).Matches ρ
      (s.filled c second (total Cs') log') :=
    h.matches hρ hCs
  have hadds : List.Forall₂ (s.filled c second (total Cs') log').Adds
      ((allBodies Cs).map (FunctionBody.rename ρ)) news := by
    rw [List.forall₂_map_left_iff]
    have hinline := (List.forall₂_and_left _ _).mpr ⟨(h.ready hCs first log).inline, hnews⟩
    exact hinline.imp fun b new hb => by
      obtain ⟨⟨E, hE⟩, hnew⟩ := hb
      exact hmatches.adds hE hnew
  obtain ⟨news', hnews', -⟩ := List.perm_comp_forall₂ hρ.bodies_perm.symm hadds
  obtain ⟨s₂, hbodies'⟩ :=
    (h'.ready hCs' second log').exists_forM (List.Subset.refl _) (.refl _)
      (List.nil_subset _) hnews'
  obtain ⟨news'', t', hnews'', hdrop', hread'⟩ := h'.finish hCs' hbodies'
  have hreports : news.Perm news'' :=
    List.rel_perm_imp (rightUnique_adds _) hadds hnews'' hρ.bodies_perm
  refine ⟨t', ?_, hread.written_perm hread' hρ h.grounded.toRooted, ?_⟩
  · rw [heq', bind_ok hbodies', hdrop']
  · rw [hread.reports, hread'.reports]
    exact (hρ.reports_perm.append_left _).append hreports.flatten

end Checker

/-! ### Class specifications -/

/-- The links of the members of a class specification. -/
def Node.classLinks (n : Node) : List Node := ((n.child? 1).map memberLinks).getD []

/-- A class specification whose members are given has a head and a key. -/
theorem Node.exists_of_placed? {n : Node} {L : List (Access × Node)} (h : n.placed? = some L) :
    ∃ head keyword key, n.child? 0 = some head ∧ head.child? 0 = some keyword ∧
      keyword.token = some key ∧ placedFrom? key.kind.defaultAccess n.classLinks = some L := by
  unfold placed? at h
  obtain ⟨head, hhead, h⟩ := Option.bind_eq_some_iff.mp h
  obtain ⟨keyword, hkeyword, h⟩ := Option.bind_eq_some_iff.mp h
  obtain ⟨key, hkey, h⟩ := Option.bind_eq_some_iff.mp h
  refine ⟨head, keyword, key, hhead, hkeyword, hkey, ?_⟩
  unfold classLinks
  cases hchild : n.child? 1 with
  | none =>
    rw [hchild] at h
    exact h
  | some chain =>
    rw [hchild] at h
    exact h

/-- A class specification opens a class and reads its members. -/
theorem Node.checkClassSpec_eq {n head keyword : Node} {key : Token}
    (hhead : n.child? 0 = some head)
    (hkeyword : head.child? 0 = some keyword) (hkey : keyword.token = some key) :
    n.checkClassSpec =
      if !key.kind.isClassKey then head.phrase.unexpected "class head"
      else do
        let cls ← head.phrase.classHead
        Check.readClass cls key.kind.defaultAccess n.classLinks
        let body := (← Check.symbols).classBody cls
        Check.log (.definedClass (.object cls) body.publicMembers.length body.privateMembers.length)
        return .object cls := by
  have hpart : ∀ {m q : Node} {i : Nat}, m.child? i = some q → m.clause.part i = pure q.phrase := by
    intro m q i hq
    unfold Clause.part
    rw [m.clause_part?, hq]
    rfl
  have htoken : (liftM keyword.phrase.node.leafToken : Check Token) = pure key := by
    unfold Node.leafToken
    rw [keyword.phrase_node, hkey]
    rfl
  have hmembers : Phrase.members (n.clause.part? 1) = (do
      return (← (n.classLinks.map Node.phrase).mapM Phrase.memberLink).flatten) := by
    unfold classLinks
    rw [n.clause_part?]
    cases n.child? 1 with
    | none => rfl
    | some chain =>
      change (do return (← chain.phrase.memberLinks.mapM Phrase.memberLink).flatten) = _
      rw [chain.phrase_memberLinks]
      rfl
  unfold checkClassSpec Clause.classSpec Check.readClass
  rw [n.phrase_clause, hpart hhead, pure_bind]
  unfold Phrase.part
  rw [head.phrase_clause, hpart hkeyword, pure_bind, htoken, pure_bind, hmembers]
  simp only [bind_assoc, pure_bind]

/-- A class head binds names at most. -/
theorem Phrase.keeps_classHead (p : Phrase) : p.classHead.Keeps :=
  bindingsLogic.toStepLogic.classHead (p := True)
    (fun _ => ⟨fun _ => trivial, fun _ _ _ => trivial⟩) fun _ _ => trivial

/-- Members of a class may change places, as long as they stay in their access regions. They have to
be plain, with names that are new to the class and differ from one another, and none of them may
hide a type name. Then the class gets the same members with the same types, the same methods have
bodies, and the same is reported. All this holds in states that are grounded, as are all that a
check comes to (`Checker.grounded_of_comesTo`): it starts in such a state, in which no class has
members either, and the class leaves one behind. -/
theorem Node.checkClassSpec_perm :
    (∀ config c name, (Checker.start config).Grounded ∧
      (Checker.start config).symbols.member? c name = none) ∧
    ∀ {n n' : Node} {members members' : List (Access × Node)} {types : List String} {s t : Checker}
      {c : ClassRef}, n'.child? 0 = n.child? 0 → n.placed? = some members →
      n'.placed? = some members' → members.Perm members' → s.Grounded → s.limit = none →
      n.checkClassSpec s = .ok (.object c) t → s.Accepts c types members →
      ∃ t', n'.checkClassSpec s = .ok (.object c) t' ∧
        (∀ access, (t.symbols.written c access).Perm (t'.symbols.written c access)) ∧
        t.diagnostics.Perm t'.diagnostics ∧ t.Grounded ∧ t'.Grounded := by
  refine ⟨fun config c name =>
    ⟨Checker.grounded_start config, Checker.member?_start config c name⟩, ?_⟩
  intro n n' members members' types s t c hhead hmembers hmembers' hperm hs hlimit hrun haccepts
  obtain ⟨head, keyword, key, hchild, hkeyword, hkey, hlinks⟩ := exists_of_placed? hmembers
  obtain ⟨head', keyword', key', hchild', hkeyword', hkey', hlinks'⟩ := exists_of_placed? hmembers'
  obtain rfl : head' = head := Option.some.inj (hchild'.symm.trans (hhead.trans hchild))
  obtain rfl : keyword' = keyword := Option.some.inj (hkeyword'.symm.trans hkeyword)
  obtain rfl : key' = key := Option.some.inj (hkey'.symm.trans hkey)
  have hafter := (hs.step (.classSpec n) hrun).1
  rw [checkClassSpec_eq hchild hkeyword hkey] at hrun
  split at hrun
  · cases hrun
  · obtain ⟨d, s₁, hopen, hrun⟩ := Check.exists_of_bind hrun
    obtain ⟨_, s₂, hread, hrun⟩ := Check.exists_of_bind hrun
    obtain rfl : d = c := by
      cases hrun
      rfl
    obtain ⟨hgrounded, hopens, hfree⟩ := hs.classHead hopen
    have hkeeps := head'.phrase.keeps_classHead.of_ok hopen
    have henters : s₁.Enters d types members :=
      { plain := haccepts.plain
        nodup := haccepts.nodup
        free := fun name hname => hfree name (haccepts.free name hname)
        hides := fun name hname htype => by
          rw [hkeeps.openClass?]
          exact haccepts.hides name hname htype
        grounded := hgrounded
        opens := hopens
        limit := hkeeps.limit.trans hlimit }
    obtain ⟨t₂, hread', hwritten, hreports⟩ := henters.readClass_perm hperm hlinks hlinks' hread
    cases hrun
    let body := t₂.symbols.classBody d
    let t' := t₂.logged
      (.definedClass (.object d) body.publicMembers.length body.privateMembers.length)
    have hrun' : n'.checkClassSpec s = .ok (.object d) t' := by
      rw [checkClassSpec_eq hchild' hkeyword hkey, if_neg (by assumption), Check.bind_ok hopen,
        Check.bind_ok hread']
      rfl
    exact ⟨t', hrun', hwritten, hreports, hafter, (hs.step (.classSpec n') hrun').1⟩

/-- A class with the given members, with an access specifier before each of them. -/
def classOf (members : List (Access × Node)) : Node :=
  let specifier : Access → Option Node
    | .pub => word .publicAccess "public"
    | .priv => word .privateAccess "private"
  let link (member : Access × Node) (rest : Option Node) : Option Node :=
    tree .accessSpec [specifier member.1, tree .memberSpec [some member.2, rest]]
  { rule := .classSpec
    children := [tree .classHead [word .structKey "struct", word .identifier "S"],
      members.foldr link none] }

/-- Methods that use what is declared behind them, and one name that no one declares:
`int next() { return *count + step(); } int step() { return missing + next(); }` in the public
region, and `int *count;` in the private one. -/
def entangledMembers : List (Access × Node) :=
  let method (name : String) (left right : Option Node) : Node :=
    { rule := .functionDef
      children := [word .intType "int", tree .functionDeclarator [word .identifier name, none],
        tree .compound [tree .statementSeq [tree .returnJump [tree .add [left, right]]]]] }
  let call (name : String) : Option Node := tree .call [word .identifier name, none]
  let field : Node :=
    { rule := .memberDecl
      children := [word .intType "int",
        tree .pointerDeclarator [word .star "*", word .identifier "count"]] }
  [(.pub, method "next" (tree .dereference [word .identifier "count"]) (call "step")),
    (.pub, method "step" (word .identifier "missing") (call "next")), (.priv, field)]

/-- What the check of a class tells: the class, its public members, and the number of reports. -/
def Node.classFindings? (n : Node) (config : Config) :
    Option (ClassRef × List (String × String × Bool) × Nat) :=
  match n.checkClassSpec (.start config) with
  | .ok (.object c) t => some (c, t.symbols.written c .pub, t.diagnostics.length)
  | _ => none

/-- What is told is the end of the check. -/
theorem Node.exists_of_classFindings? {n : Node} {config : Config} {c : ClassRef}
    {members : List (String × String × Bool)} {count : Nat}
    (h : n.classFindings? config = some (c, members, count)) :
    ∃ t, n.checkClassSpec (.start config) = .ok (.object c) t ∧
      t.symbols.written c .pub = members ∧ t.diagnostics.length = count := by
  unfold classFindings? at h
  split at h
  · cases h
    exact ⟨_, by assumption, rfl, rfl⟩
  · cases h

/-- In either order, the methods find what is declared behind them, and the name that no one
declares is reported once. -/
theorem checkClassSpec_entangledMembers : ∃ c t t',
    (classOf entangledMembers).checkClassSpec (.start .bare) = .ok (.object c) t ∧
    (classOf entangledMembers.reverse).checkClassSpec (.start .bare) = .ok (.object c) t' ∧
    t.symbols.written c .pub = [("step", "int ()", true), ("next", "int ()", true)] ∧
    (∀ access, (t.symbols.written c access).Perm (t'.symbols.written c access)) ∧
    t.diagnostics.length = 1 ∧ t.diagnostics.Perm t'.diagnostics := by
  obtain ⟨hstart, hreorder⟩ := Node.checkClassSpec_perm
  have hfindings : (classOf entangledMembers).classFindings? .bare =
      some (⟨0, "S"⟩, [("step", "int ()", true), ("next", "int ()", true)], 1) := by decide +kernel
  obtain ⟨t, hrun, hpublic, hlength⟩ := Node.exists_of_classFindings? hfindings
  have haccepts : (Checker.start .bare).Accepts ⟨0, "S"⟩ [] entangledMembers :=
    { plain := by decide
      nodup := by decide
      free := fun name _ => (hstart .bare _ name).2
      hides := fun _ _ h => absurd h List.not_mem_nil }
  have hhead : (classOf entangledMembers.reverse).child? 0 = (classOf entangledMembers).child? 0 :=
    rfl
  have hmembers : (classOf entangledMembers).placed? = some entangledMembers := rfl
  have hmembers' : (classOf entangledMembers.reverse).placed? = some entangledMembers.reverse := rfl
  obtain ⟨t', hrun', hwritten, hreports, -⟩ := hreorder hhead hmembers hmembers'
    (List.reverse_perm entangledMembers).symm (hstart .bare ⟨0, "S"⟩ "").1 rfl hrun haccepts
  exact ⟨_, t, t', hrun, hrun', hpublic, hwritten, hlength, hreports⟩

/-- A member that names a class, and one that takes the name of the class:
`ostream *out;` and `int ostream;`. -/
def hidingMembers : List (Access × Node) :=
  let field (specifier declarator : Option Node) : Node :=
    { rule := .memberDecl, children := [specifier, declarator] }
  [(.pub, field (word .className "ostream")
      (tree .pointerDeclarator [word .star "*", word .identifier "out"])),
    (.pub, field (word .intType "int") (word .identifier "ostream"))]

/-- Behind a member that takes its name, a class cannot be named any more, so these members may not
change places. -/
theorem checkClassSpec_hidingMembers :
    (classOf hidingMembers).placed? = some hidingMembers ∧
    (classOf hidingMembers.reverse).placed? = some hidingMembers.reverse ∧
    (∀ member ∈ hidingMembers, member.2.isPlain ["ostream"] = true) ∧
    (Region.namesOf hidingMembers).Nodup ∧
    ∃ c t t', (classOf hidingMembers).checkClassSpec (.start { headers := [.iostream] }) =
        .ok (.object c) t ∧
      (classOf hidingMembers.reverse).checkClassSpec (.start { headers := [.iostream] }) =
        .ok (.object c) t' ∧
      ¬ (t.symbols.written c .pub).Perm (t'.symbols.written c .pub) ∧
      ¬ t.diagnostics.Perm t'.diagnostics := by
  have hfindings : (classOf hidingMembers).classFindings? { headers := [.iostream] } =
      some (⟨2, "S"⟩, [("ostream", "int", false), ("out", "class ostream *", false)], 0) := by
    decide +kernel
  have hfindings' : (classOf hidingMembers.reverse).classFindings? { headers := [.iostream] } =
      some (⟨2, "S"⟩, [("out", "<unknown> *", false), ("ostream", "int", false)], 1) := by
    decide +kernel
  obtain ⟨t, hrun, hwritten, hlength⟩ := Node.exists_of_classFindings? hfindings
  obtain ⟨t', hrun', hwritten', hlength'⟩ := Node.exists_of_classFindings? hfindings'
  refine ⟨rfl, rfl, by decide, by decide, _, t, t', hrun, hrun', ?_, fun h => ?_⟩
  · rw [hwritten, hwritten']
    decide
  · have hsame := h.length_eq
    rw [hlength, hlength'] at hsame
    cases hsame

end CWithClasses
