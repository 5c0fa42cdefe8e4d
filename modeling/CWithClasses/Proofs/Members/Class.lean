import CWithClasses.Proofs.Members.Filling

/-!
# Reading the body of a class

The members of a class are declared first, and the bodies of its methods are checked afterwards.
What comes out is told by what the members contribute: `Checker.Enters.readClass_eq` reduces a run
to the checks of the bodies, and `Checker.Enters.finish` describes the state in the end.
-/

namespace CWithClasses

open Check

/-! ### Type names in the body of a class -/

/-- The class that a type name means. -/
def SymbolTable.namedClass (t : SymbolTable) (name : String) : Except Problem ClassRef :=
  match t.lookupTypeName name with
  | .ok (.object c) => .ok c
  | .ok _ => .error (.notFound name)
  | .error e => .error e

/-- A type name means a class or nothing. -/
theorem SymbolTable.lookupTypeName_eq_map (t : SymbolTable) (name : String) :
    t.lookupTypeName name = (t.namedClass name).map .object := by
  unfold namedClass
  cases hfound : t.lookupTypeName name with
  | error e => rfl
  | ok ty =>
    obtain ⟨c, rfl⟩ := lookupTypeName_object hfound
    rfl

namespace Checker

variable {s t : Checker} {c d : ClassRef} {types : List String} {L L' : List (Access × Node)}
  {name : String}

/-- A class that a type name means has been made. -/
theorem Rooted.made_of_namedClass (h : s.Rooted) (hd : s.symbols.namedClass name = .ok d) :
    d.id < s.symbols.classes.size := by
  have hfound : s.symbols.lookupTypeName name = .ok (.object d) := by
    rw [SymbolTable.lookupTypeName_eq_map, hd]
    rfl
  unfold SymbolTable.lookupTypeName at hfound
  split at hfound
  next e hopen =>
    cases hfound
    obtain ⟨f, hf, hcls⟩ := List.exists_of_findSome?_eq_some hopen
    exact h.made_of_cls? hf (Option.filter_eq_some_iff.mp hcls).1
  next =>
    have hlookup : s.symbols.lookup? name = some (.object d) := by
      unfold SymbolTable.lookup at hfound
      cases hty : s.symbols.lookup? name with
      | none =>
        rw [hty] at hfound
        cases hfound
      | some ty =>
        rw [hty] at hfound
        cases ty <;> cases hfound
        rfl
    obtain ⟨f, hf, hty⟩ := List.exists_of_findSome?_eq_some hlookup
    exact h.made
      (SymbolTable.mentioned_of_findIn hf hty (x := .inr d.id) (Mentions.has_ofClass.mpr rfl))

/-- Opening the body of a class that has been made. -/
theorem Rooted.opened (h : s.Rooted) (hc : c.id < s.symbols.classes.size) :
    (s.opened (.classBody c)).Rooted where
  scopes f hf x hx := by
    rcases List.mem_cons.mp hf with rfl | hf
    · rw [Frame.has_classBody.mp hx]
      exact hc
    · exact h.scopes f hf x hx
  members := h.members
  returns := h.returns

/-- The place in the body of a class that is about to be read. -/
def region (s : Checker) (c : ClassRef) (types : List String) : Region where
  cls := c
  access := .pub
  types := types
  meaning := (s.opened (.classBody c)).symbols.namedClass

/-- The declarations can be made in the body of the class: they are plain, their names are new to
the class and differ from one another, and none of them hides a type name. A class whose body is
open is not hidden by a member of its name. -/
structure Accepts (s : Checker) (c : ClassRef) (types : List String) (L : List (Access × Node)) :
    Prop where
  plain : ∀ x ∈ L, x.2.isPlain types = true
  nodup : (Region.namesOf L).Nodup
  free : ∀ name ∈ Region.namesOf L, s.symbols.member? c name = none
  hides : ∀ name ∈ Region.namesOf L, name ∈ types →
    name = c.name ∨ (s.symbols.openClass? name).isSome = true

/-- The body of the class is about to be read, and declares what is given. -/
structure Enters (s : Checker) (c : ClassRef) (types : List String) (L : List (Access × Node)) :
    Prop extends s.Accepts c types L where
  grounded : s.Grounded
  opens : s.Opens c
  limit : s.limit = none

/-- Declarations may change places. -/
theorem Accepts.perm (h : s.Accepts c types L) (hL : L.Perm L') : s.Accepts c types L' := by
  have hnames : (Region.namesOf L).Perm (Region.namesOf L') := hL.flatMap_right _
  exact ⟨fun x hx => h.plain x (hL.mem_iff.mpr hx), hnames.nodup_iff.mp h.nodup,
    fun name hname => h.free name (hnames.mem_iff.mpr hname),
    fun name hname => h.hides name (hnames.mem_iff.mpr hname)⟩

namespace Enters

/-- Declarations may change places. -/
theorem perm (h : s.Enters c types L) (hL : L.Perm L') : s.Enters c types L' :=
  { h.toAccepts.perm hL with grounded := h.grounded, opens := h.opens, limit := h.limit }

/-- In its body, the check stands at the place. -/
theorem holds (h : s.Enters c types L) (access : Access) :
    ((s.region c types).within access).Holds ((s.opened (.classBody c)).withAccess access) :=
  ⟨h.limit, rfl, rfl, h.opens.made, fun name _ => SymbolTable.lookupTypeName_eq_map _ name⟩

/-- The names may become members. -/
theorem fresh (h : s.Enters c types L) (access : Access) :
    (s.region c types).Fresh (Region.namesOf L) ((s.opened (.classBody c)).withAccess access) := by
  refine ⟨h.nodup, h.free, fun name hname htype => ?_⟩
  have hsome : ∀ {t : SymbolTable}, (t.openClass? name).isSome = true ↔
      ∃ f ∈ t.frames, (f.cls?.filter fun c => c.name == name).isSome = true :=
    List.findSome?_isSome_iff
  rw [hsome]
  rcases h.hides name hname htype with rfl | hopen
  · refine ⟨_, List.mem_cons_self, ?_⟩
    change ((some c).filter fun d => d.name == c.name).isSome = true
    simp
  · obtain ⟨f, hf, hcls⟩ := hsome.mp hopen
    exact ⟨f, List.mem_cons_of_mem _ hf, hcls⟩

end Enters

end Checker

/-! ### What members contribute -/

/-- If a type keeps its numbers, then one by one. -/
theorem Ty.kept_of_rename_eq {σ : Renaming} {ty : Ty} (h : ty.rename σ = ty) {x : Nat ⊕ Nat}
    (hx : ty.mentions.Has x) : σ.either x = x := by
  have hmentions : ty.mentions.rename σ = ty.mentions := by rw [← Ty.mentions_rename, h]
  cases x with
  | inl i =>
    have hall : ty.mentions.functions.map σ.fn = ty.mentions.functions.map id :=
      (congrArg Mentions.functions hmentions).trans (List.map_id _).symm
    exact congrArg Sum.inl (List.map_inj_left.mp hall i hx)
  | inr i =>
    have hall : ty.mentions.classes.map σ.cls = ty.mentions.classes.map id :=
      (congrArg Mentions.classes hmentions).trans (List.map_id _).symm
    exact congrArg Sum.inr (List.map_inj_left.mp hall i hx)

/-- If what is not yet made gets other numbers, then only what has been made keeps its number. -/
theorem SymbolTable.made_of_raise {t : SymbolTable} {x : Nat ⊕ Nat}
    (h : (Renaming.raise t.bodies.size t.classes.size 1 1).either x = x) : t.Made x := by
  by_contra hnot
  cases x with
  | inl i =>
    have hid : (if i < t.bodies.size then i else i + 1) = i := Sum.inl.inj h
    rw [if_neg (c := i < t.bodies.size) hnot] at hid
    omega
  | inr i =>
    have hid : (if i < t.classes.size then i else i + 1) = i := Sum.inr.inj h
    rw [if_neg (c := i < t.classes.size) hnot] at hid
    omega

/-- If contributions keep their numbers, so do their members and bodies. -/
theorem Contribution.kept_of_rename_eq {σ : Renaming} {Cs : List Contribution}
    (h : Cs.map (rename σ) = Cs) {C : Contribution} (hC : C ∈ Cs) :
    (∀ m ∈ C.members, m.rename σ = m) ∧ ∀ b ∈ C.bodies, b.rename σ = b := by
  have hfix : C.rename σ = C := List.map_inj_left.mp (h.trans (List.map_id _).symm) C hC
  have hmembers : C.members.map (Member.rename σ) = C.members.map id :=
    (congrArg (fun D : Contribution => D.members) hfix).trans (List.map_id _).symm
  have hbodies : C.bodies.map (FunctionBody.rename σ) = C.bodies.map id :=
    (congrArg Contribution.bodies hfix).trans (List.map_id _).symm
  exact ⟨List.map_inj_left.mp hmembers, List.map_inj_left.mp hbodies⟩

/-- The bodies of some contributions. -/
def Contribution.allBodies (Cs : List Contribution) : List FunctionBody :=
  Cs.flatMap fun C => C.bodies

namespace Checker.Enters

variable {s : Checker} {c : ClassRef} {types : List String} {L : List (Access × Node)}
  {Cs : List Contribution} {σ : Renaming}

/-- What members contribute mentions nothing but what has been made in the end. -/
theorem rename_eq (h : s.Enters c types L)
    (hCs : (s.region c types).Spread s.symbols.bodies.size L Cs)
    (hσ : (s.withFunctions (Contribution.total Cs).count).symbols.KeptBy σ) :
    Cs.map (Contribution.rename σ) = Cs := by
  have hadmits := (h.fresh .pub).admits (h.holds .pub) h.plain
  refine hCs.rename_eq hadmits (fun name _ d hd => ?_) fun i _ hi => ?_
  · have hrooted := h.grounded.toRooted.opened h.opens.made
    exact Sum.inr.inj (hσ (.inr d.id) (hrooted.made_of_namedClass hd))
  · refine Sum.inl.inj (hσ (.inl i) ?_)
    change i < (s.symbols.bodies ++ Array.replicate _ none).size
    rwa [Array.size_append, Array.size_replicate]

/-- The types of the members mention what has been made in the end. -/
theorem makesAll (h : s.Enters c types L)
    (hCs : (s.region c types).Spread s.symbols.bodies.size L Cs) :
    s.MakesAll (Contribution.total Cs) := by
  intro m hm x hx
  obtain ⟨C, hC, hmember⟩ := List.mem_flatMap.mp ((Contribution.members_total Cs).mem_iff.mp hm)
  have hkept := h.rename_eq hCs (SymbolTable.keptBy_raise _ 1 1)
  have hty := congrArg Member.ty ((Contribution.kept_of_rename_eq hkept hC).1 m hmember)
  exact SymbolTable.made_of_raise (Ty.kept_of_rename_eq hty hx)

/-- Methods that have a body are members. -/
theorem mentioned_of_mem_numbers (hCs : (s.region c types).Spread s.symbols.bodies.size L Cs)
    {i : Nat} (hi : i ∈ FunctionBody.numbers (Contribution.allBodies Cs)) :
    ∃ m ∈ (Contribution.total Cs).members, m.ty.mentions.Has (.inl i) := by
  obtain ⟨b, hb, hid⟩ := List.mem_filterMap.mp hi
  obtain ⟨f, hf, rfl⟩ := Option.map_eq_some_iff.mp hid
  obtain ⟨C, hC, hb⟩ := List.mem_flatMap.mp hb
  obtain ⟨m, hm, hty⟩ := (hCs.inline C hC b hb).member
  refine ⟨m, (Contribution.members_total Cs).mem_iff.mpr (List.mem_flatMap.mpr ⟨C, hC, hm⟩), ?_⟩
  rw [hty]
  exact Ty.mem_mentions_of_asFunction hf

/-- Once all members are declared, the bodies of methods can be checked. -/
theorem ready (h : s.Enters c types L)
    (hCs : (s.region c types).Spread s.symbols.bodies.size L Cs) (access : Access)
    (log : List Event) :
    (s.filled c access (Contribution.total Cs) log).Ready (Contribution.allBodies Cs) where
  rooted := rooted_filled h.grounded.toRooted h.opens.made (h.makesAll hCs)
  settled := settled_filled h.grounded.settled h.opens
  limit := h.limit
  inline b hb := by
    obtain ⟨C, hC, hb⟩ := List.mem_flatMap.mp hb
    exact ⟨C.toEffect, hCs.inline C hC b hb⟩
  kept b hb σ hσ := by
    obtain ⟨C, hC, hb⟩ := List.mem_flatMap.mp hb
    have hkept := h.rename_eq hCs fun x hx => hσ x (made_filled.mpr hx)
    exact (Contribution.kept_of_rename_eq hkept hC).2 b hb
  mentioned _ hi := SymbolTable.Mentioned.allMentions
    (.inr (exists_mem_filled h.opens.made (.inr (mentioned_of_mem_numbers hCs hi))))

end Checker.Enters

/-! ### Reading a class -/

/-- Reads the members of a class, given by their links, and checks the bodies of its methods. -/
def Check.readClass (c : ClassRef) (access : Access) (links : List Node) : Check Unit := do
  pushScope (.classBody c)
  modifySymbols (·.setAccess access)
  let bodies ← (links.map Node.phrase).mapM Phrase.memberLink
  modifySymbols (·.markComplete c)
  bodies.flatten.forM FunctionBody.check
  dropScope

/-- The second state is the first one after a class has been read, given what its members contribute
and what is reported about their bodies. -/
structure Checker.HasRead (s : Checker) (c : ClassRef) (Cs : List Contribution)
    (news : List (List Diagnostic)) (t : Checker) : Prop where
  members : t.symbols.classBody c =
    { (s.symbols.classBody c).gain (Contribution.total Cs) with complete := true }
  defined : ∀ i, i ∈ t.symbols.liveBodies ↔
    i ∈ s.symbols.liveBodies ∨ i ∈ FunctionBody.numbers (Contribution.allBodies Cs)
  reports : t.diagnostics = s.diagnostics ++ (Contribution.total Cs).reports ++ news.flatten

namespace Checker.Enters

variable {s s₁ t : Checker} {c : ClassRef} {types : List String} {L : List (Access × Node)}
  {Cs : List Contribution} {access : Access} {links : List Node} {log : List Event}

/-- Reading a class comes down to checking the bodies of its methods. -/
theorem readClass_eq (h : s.Enters c types L) (hL : Node.placedFrom? access links = some L)
    (hCs : (s.region c types).Spread s.symbols.bodies.size L Cs) :
    ∃ access' log, Check.readClass c access links s =
      (do (Contribution.allBodies Cs).forM FunctionBody.check; Check.dropScope)
        (s.filled c access' (Contribution.total Cs) log) := by
  obtain ⟨bodies, s₁, access', hrun, hbodies, htakes⟩ :=
    Region.Spread.run_links hL (h.holds access) (h.fresh access) hCs
  obtain ⟨log, hfilled⟩ := Takes.markComplete (c := c) htakes
  refine ⟨access', log, ?_⟩
  unfold Check.readClass
  change ((links.map Node.phrase).mapM Phrase.memberLink >>= _)
    ((s.opened (.classBody c)).withAccess access) = _
  rw [bind_ok hrun, hbodies]
  exact congrArg
    (do (Contribution.allBodies Cs).forM FunctionBody.check; dropScope : Check Unit) hfilled

/-- If the bodies can be checked, the class can be closed. -/
theorem finish (h : s.Enters c types L)
    (hCs : (s.region c types).Spread s.symbols.bodies.size L Cs)
    (hrun : (Contribution.allBodies Cs).forM FunctionBody.check
      (s.filled c access (Contribution.total Cs) log) = .ok () s₁) :
    ∃ news t, List.Forall₂ (s.filled c access (Contribution.total Cs) log).Adds
        (Contribution.allBodies Cs) news ∧
      Check.dropScope s₁ = .ok () t ∧ s.HasRead c Cs news t := by
  obtain ⟨news, hnews, hreports, hattached⟩ :=
    (h.ready hCs access log).forM_ok (List.Subset.refl _) (.refl _) (List.nil_subset _) hrun
  rw [List.nil_append] at hattached
  obtain ⟨t, hdrop, hsymbols, hdiagnostics⟩ :=
    hattached.dropScope h.grounded h.opens fun i hi => mentioned_of_mem_numbers hCs hi
  have hclasses : t.symbols.classes = s₁.symbols.classes := by rw [hsymbols]; rfl
  have hbodies : t.symbols.bodies = s₁.symbols.bodies := by rw [hsymbols]; rfl
  refine ⟨news, t, hnews, hdrop, ?_, fun i => ?_, hdiagnostics.trans hreports⟩
  · have hbody : t.symbols.classBody c = s₁.symbols.classBody c := by
      unfold SymbolTable.classBody
      rw [hclasses]
    rw [hbody, hattached.classes.classBody_eq, classBody_filled h.opens.made, if_pos rfl]
  · rw [SymbolTable.mem_liveBodies, hbodies, ← SymbolTable.mem_liveBodies, hattached.live,
      liveBodies_filled]

end Checker.Enters

end CWithClasses
