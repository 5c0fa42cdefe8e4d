import CWithClasses.Proofs.Members.Opening
import CWithClasses.Proofs.Members.Spread

/-!
# A class with its members

`Checker.filled` is the state in which all members of a class have been declared and the bodies of
its methods are still to be checked. It depends on the members only through their effect. In this
state the methods can be checked, and the class can be closed afterwards without anything being let
go.
-/

namespace CWithClasses

open Check

/-- What the members of a class mention after an effect. -/
theorem ClassBody.has_gain {b : ClassBody} {E : Effect} {x : Nat ⊕ Nat} :
    (b.gain E).mentions.Has x ↔ b.mentions.Has x ∨ ∃ m ∈ E.members, m.ty.mentions.Has x := by
  have htable : ∀ access, (∃ entry ∈ E.table access, entry.2.mentions.Has x) ↔
      ∃ m ∈ E.members, m.access = access ∧ m.ty.mentions.Has x := by
    intro access
    unfold Effect.table
    simp only [List.mem_map, List.mem_filter, decide_eq_true_eq]
    constructor
    · rintro ⟨_, ⟨m, ⟨hm, haccess⟩, rfl⟩, hx⟩
      exact ⟨m, hm, haccess, hx⟩
    · rintro ⟨m, hm, haccess, hx⟩
      exact ⟨_, ⟨m, ⟨hm, haccess⟩, rfl⟩, hx⟩
  unfold ClassBody.mentions Bindings.mentions ClassBody.gain
  simp only [Mentions.has_append, Mentions.has_ofList, List.mem_append, or_and_right,
    exists_or, htable]
  constructor
  · rintro ((⟨m, hm, -, hx⟩ | hx) | ⟨m, hm, -, hx⟩ | hx)
    · exact .inr ⟨m, hm, hx⟩
    · exact .inl (.inl hx)
    · exact .inr ⟨m, hm, hx⟩
    · exact .inl (.inr hx)
  · rintro ((hx | hx) | ⟨m, hm, hx⟩)
    · exact .inl (.inr hx)
    · exact .inr (.inr hx)
    · cases haccess : m.access with
      | pub => exact .inl (.inl ⟨m, hm, haccess, hx⟩)
      | priv => exact .inr (.inl ⟨m, hm, haccess, hx⟩)

/-- The scope of a class body mentions its class only. -/
theorem Frame.has_classBody {c : ClassRef} {access : Access} {x : Nat ⊕ Nat} :
    (Frame.mentions { kind := .classBody c, access }).Has x ↔ x = .inr c.id := by
  simp [Frame.mentions, Frame.cls?, Bindings.mentions, Mentions.has_ofClass]

namespace Checker

variable {s s₁ : Checker} {c : ClassRef} {access : Access} {E : Effect} {log : List Event}
  {ids : List Nat}

/-- The state in the body of a class after all its members have been declared. -/
def filled (s : Checker) (c : ClassRef) (access : Access) (E : Effect)
    (log : List Event) : Checker :=
  { s with
    symbols := {
      current := { kind := .classBody c, access }
      outer := s.symbols.frames
      classes := (s.symbols.modifyClass c fun b => { b.gain E with complete := true }).classes
      bodies := s.symbols.bodies ++ Array.replicate E.count none }
    diagnostics := s.diagnostics ++ E.reports
    log }

/-- An effect on a class whose body is open, followed by the mark that its body has been read. -/
theorem Takes.markComplete
    (h : Takes c ((s.opened (.classBody c)).withAccess access) E s₁) :
    ∃ log, { s₁ with symbols := s₁.symbols.markComplete c } = s.filled c access E log := by
  obtain ⟨log, rfl⟩ := h
  refine ⟨log, ?_⟩
  unfold filled
  rw [← s.symbols.modifyClass_modifyClass c (fun b => b.gain E) fun b =>
    { b with complete := true }]
  rfl

/-- The types of the members mention what has been made once all members are declared. -/
def MakesAll (s : Checker) (E : Effect) : Prop :=
  ∀ m ∈ E.members, ∀ x, m.ty.mentions.Has x → (s.withFunctions E.count).symbols.Made x

section Filled

/-- What has been made when the class is filled. -/
theorem made_filled {x : Nat ⊕ Nat} :
    (s.filled c access E log).symbols.Made x ↔ (s.withFunctions E.count).symbols.Made x := by
  cases x with
  | inl i => exact Iff.rfl
  | inr i =>
    change i < (s.symbols.classes.modify c.id _).size ↔ _
    rw [Array.size_modify]
    exact Iff.rfl

/-- What has been made before. -/
theorem made_filled_of_made {x : Nat ⊕ Nat} (hx : s.symbols.Made x) :
    (s.filled c access E log).symbols.Made x := by
  rw [made_filled]
  refine hx.mono ?_ le_rfl
  change _ ≤ (s.symbols.bodies ++ _).size
  rw [Array.size_append]
  exact Nat.le_add_right ..

/-- The functions that have a body are those that had one before. -/
theorem liveBodies_filled :
    (s.filled c access E log).symbols.liveBodies = s.symbols.liveBodies := by
  ext i
  rw [SymbolTable.mem_liveBodies, SymbolTable.mem_liveBodies]
  exact Bool.eq_iff_iff.mp (congrArg Option.isSome (SymbolTable.join_append_none ..))

/-- The members of the class. -/
theorem classBody_filled (hc : c.id < s.symbols.classes.size) (d : ClassRef) :
    (s.filled c access E log).symbols.classBody d =
      if d.id = c.id then { (s.symbols.classBody c).gain E with complete := true }
      else s.symbols.classBody d :=
  SymbolTable.classBody_modifyClass hc d

/-- What classes mention when the class is filled. -/
theorem exists_mem_filled (hc : c.id < s.symbols.classes.size) {x : Nat ⊕ Nat}
    (hx : (∃ b ∈ s.symbols.classes, b.mentions.Has x) ∨ ∃ m ∈ E.members, m.ty.mentions.Has x) :
    ∃ b ∈ (s.filled c access E log).symbols.classes, b.mentions.Has x := by
  rcases hx with hx | hx
  · exact SymbolTable.has_modifyClass (f := fun b => { b.gain E with complete := true })
      (fun hx => ClassBody.has_gain.mpr (.inl hx)) hx
  · refine ⟨{ (s.symbols.classBody c).gain E with complete := true }, ?_,
      ClassBody.has_gain.mpr (.inr hx)⟩
    refine Array.mem_of_getElem? (i := c.id) ?_
    change (s.symbols.classes.modify c.id _)[c.id]? = _
    rw [Array.getElem?_modify, if_pos rfl, SymbolTable.getElem?_classes hc]
    rfl

/-- What was mentioned before is mentioned when the class is filled. -/
theorem allMentions_filled (hc : c.id < s.symbols.classes.size) {x : Nat ⊕ Nat}
    (hx : s.allMentions.Has x) : (s.filled c access E log).allMentions.Has x := by
  refine allMentions_imp (s := s) id (fun hx => ?_) hx
  rw [SymbolTable.has_mentions] at hx ⊢
  refine hx.imp ?_ (Or.imp ?_ ?_)
  · rintro ⟨f, hf, hx⟩
    exact ⟨f, List.mem_cons_of_mem _ hf, hx⟩
  · exact fun hx => exists_mem_filled hc (.inl hx)
  · rintro ⟨f, ⟨i, hi⟩, hx⟩
    exact ⟨f, ⟨i, (SymbolTable.join_append_none ..).trans hi⟩, hx⟩

/-- All that is mentioned has been made. -/
theorem rooted_filled (hs : s.Rooted) (hc : c.id < s.symbols.classes.size) (hE : s.MakesAll E) :
    (s.filled c access E log).Rooted where
  scopes f hf x hx := by
    rcases List.mem_cons.mp hf with rfl | hf
    · rw [Frame.has_classBody.mp hx]
      exact made_filled_of_made (x := .inr c.id) hc
    · exact made_filled_of_made (hs.scopes f hf x hx)
  members b hb x hx := by
    rcases SymbolTable.mem_modifyClass (f := fun b => { b.gain E with complete := true }) hb
      with hold | rfl
    · exact made_filled_of_made (hs.members b hold x hx)
    · rcases ClassBody.has_gain.mp hx with hx | ⟨m, hm, hx⟩
      · exact made_filled_of_made (hs.classBody c hx)
      · exact made_filled.mpr (hE m hm x hx)
  returns ty hty x hx := made_filled_of_made (hs.returns ty hty x hx)

/-- There is nothing to let go. -/
theorem settled_filled (hs : s.Settled) (hc : s.Opens c) : (s.filled c access E log).Settled := by
  refine hs.mono (fun i hi => .inl (liveBodies_filled ▸ hi)) (fun i hi => ?_)
    fun x => allMentions_filled hc.made
  refine (SymbolTable.liveClasses_modifyClass hi).imp_right fun heq => ?_
  rw [heq]
  exact allMentions_filled hc.made hc.allMentions

end Filled

/-- The class is closed after the bodies of its methods have been checked, and nothing is let go. -/
theorem Attached.dropScope (h : (s.filled c access E log).Attached ids s₁) (hs : s.Grounded)
    (hc : s.Opens c)
    (hids : ∀ i ∈ ids, ∃ m ∈ E.members, m.ty.mentions.Has (.inl i)) :
    ∃ t : Checker, Check.dropScope s₁ = .ok () t ∧ t.symbols = s.closedTable s₁ ∧
      t.diagnostics = s₁.diagnostics := by
  have hpop : s₁.symbols.pop? = some (s₁.symbols.current, s.closedTable s₁) := by
    unfold SymbolTable.pop?
    rw [h.outer]
    rfl
  have hsettled₁ : s₁.Settled := by
    refine h.settled (settled_filled hs.settled hc) fun i hi => ?_
    exact SymbolTable.Mentioned.allMentions (.inr (exists_mem_filled hc.made (.inr (hids i hi))))
  have hclasses : ∀ {x : Nat ⊕ Nat}, (∃ b ∈ s.symbols.classes, b.mentions.Has x) →
      ∃ b ∈ s₁.symbols.classes, b.mentions.Has x := by
    intro x hx
    obtain ⟨b, hb, hx⟩ := exists_mem_filled hc.made (.inl hx)
    obtain ⟨k, hk⟩ := h.classes
    exact ⟨b, hk ▸ Array.mem_append_left _ hb, hx⟩
  let t : Checker :=
    { s₁ with symbols := s.closedTable s₁ }.logged (.poppedScope (s.closedTable s₁).depth)
  have hsettled : t.Settled := by
    refine hsettled₁.mono (fun _ => .inl) (fun _ => .inl) fun x hx => ?_
    unfold allMentions at hx ⊢
    rw [Mentions.has_append, SymbolTable.has_mentions] at hx ⊢
    rcases hx with hx | ⟨f, hf, hx⟩ | hx
    · exact .inl hx
    · rcases List.mem_cons.mp hf with rfl | hf
      · -- Only the scope of the class body is gone, and something else mentions the class.
        rw [h.current] at hx
        rw [Frame.has_classBody.mp hx]
        exact .inr (hc.mentioned.imp id fun hx => .inl (hclasses hx))
      · rw [h.outer] at hf
        exact .inr (.inl ⟨f, hf, hx⟩)
    · exact .inr (.inr hx)
  refine ⟨t, ?_, rfl, rfl⟩
  unfold Check.dropScope
  rw [bind_ok (popScope_eq hpop)]
  refine congrArg (EStateM.Result.ok ()) (hsettled.discard_eq ?_)
  rw [h.current]
  rfl

end Checker

end CWithClasses
