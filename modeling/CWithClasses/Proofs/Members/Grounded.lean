import CWithClasses.Proofs.Members.Deferred
import CWithClasses.Proofs.Nesting

/-!
# Grounded states

In a grounded state, all that is mentioned has been made, and there is nothing to let go. Every
check starts in a state of this kind. What tables mention is said here for one change of a table
after another.
-/

namespace CWithClasses

open Check

/-! ### Grounded states -/

/-- A scope or a member mentions the function or the class. -/
def SymbolTable.Mentioned (t : SymbolTable) (x : Nat ⊕ Nat) : Prop :=
  (∃ f ∈ t.frames, f.mentions.Has x) ∨ ∃ b ∈ t.classes, b.mentions.Has x

/-- What a scope or a member mentions is mentioned. -/
theorem SymbolTable.Mentioned.allMentions {s : Checker} {x : Nat ⊕ Nat}
    (h : s.symbols.Mentioned x) :
    s.allMentions.Has x := by
  unfold Checker.allMentions
  rw [Mentions.has_append, SymbolTable.has_mentions]
  exact .inr (h.imp_right .inl)

/-- All that is mentioned has been made, and there is nothing to let go. Some scope is no class
body, so that classes belong somewhere. -/
structure Checker.Grounded (s : Checker) : Prop extends s.Rooted where
  settled : s.Settled
  outside : ∃ f ∈ s.symbols.frames, f.isClassBody = false

/-! ### New classes -/

/-- What a scope mentions in which a class was recorded. -/
theorem Frame.has_record (f : Frame) (c : ClassRef) {x : Nat ⊕ Nat} :
    (f.record c).mentions.Has x ↔ f.mentions.Has x ∨ x = .inr c.id := by
  unfold Frame.record
  split
  next hknown =>
    obtain ⟨d, hd, hid⟩ := List.any_eq_true.mp hknown
    rw [beq_iff_eq] at hid
    refine (or_iff_left_of_imp fun hx => ?_).symm
    unfold Frame.mentions
    simp only [Mentions.has_append, Mentions.has_ofList, Mentions.has_ofClass]
    exact .inl (.inr ⟨d, hd, hid ▸ hx⟩)
  next =>
    have hcls : ({ f with classes := f.classes ++ [c] } : Frame).cls? = f.cls? := rfl
    unfold Frame.mentions
    simp only [hcls, Mentions.has_append, Mentions.has_ofList, Mentions.has_ofClass,
      List.mem_append, List.mem_singleton, or_and_right, exists_or, exists_eq_left]
    rw [← or_assoc, or_right_comm]

/-- What a scope mentions in which a name was bound. -/
theorem Frame.has_bind (f : Frame) (name : String) (ty : Ty) {x : Nat ⊕ Nat} :
    ({ f with bindings := (name, ty) :: f.bindings } : Frame).mentions.Has x ↔
      f.mentions.Has x ∨ ty.mentions.Has x := by
  have hcls : ({ f with bindings := (name, ty) :: f.bindings } : Frame).cls? = f.cls? := rfl
  unfold Frame.mentions Bindings.mentions
  simp only [hcls, Mentions.has_append, Mentions.has_ofList, List.mem_cons,
    exists_eq_or_imp, or_assoc]
  rw [or_comm]
  simp only [or_assoc]

namespace SymbolTable

variable {t : SymbolTable} {c : ClassRef} {x : Nat ⊕ Nat} {frames : List Frame}

/-- What scopes mention in which a class was recorded. -/
theorem has_recordClass : (∃ f ∈ recordClass c frames, f.mentions.Has x) ↔
    (∃ f ∈ frames, f.mentions.Has x) ∨ (x = .inr c.id ∧ ∃ f ∈ frames, f.isClassBody = false) := by
  induction frames with
  | nil => simp [recordClass]
  | cons f rest ih =>
    unfold recordClass
    split
    next hbody =>
      simp only [List.mem_cons, exists_eq_or_imp, ih, hbody, Bool.true_eq_false, false_or, or_assoc]
    next hbody =>
      rw [Bool.not_eq_true] at hbody
      simp only [List.mem_cons, exists_eq_or_imp, hbody, true_or, and_true, Frame.has_record]
      rw [or_right_comm]

/-- More has been made. -/
theorem Made.mono {t₁ : SymbolTable} (hx : t.Made x) (hbodies : t.bodies.size ≤ t₁.bodies.size)
    (hclasses : t.classes.size ≤ t₁.classes.size) : t₁.Made x := by
  cases x with
  | inl i => exact Nat.lt_of_lt_of_le hx hbodies
  | inr i => exact Nat.lt_of_lt_of_le hx hclasses

end SymbolTable

/-! ### Changed members -/

namespace SymbolTable

variable {t : SymbolTable} {c : ClassRef} {f : ClassBody → ClassBody} {x : Nat ⊕ Nat}

/-- A change of one class leaves the others alone. -/
theorem getElem?_modifyClass {i : Nat} {b : ClassBody} (hb : t.classes[i]? = some b) :
    (t.modifyClass c f).classes[i]? = some (if c.id = i then f (t.classBody c) else b) := by
  change (t.classes.modify c.id f)[i]? = _
  rw [Array.getElem?_modify, hb]
  split
  next heq =>
    subst heq
    unfold classBody
    rw [hb]
    rfl
  next => rfl

/-- The members of a class after a change are those from before, or due to the change. -/
theorem mem_modifyClass {b : ClassBody} (hb : b ∈ (t.modifyClass c f).classes) :
    b ∈ t.classes ∨ b = f (t.classBody c) := by
  obtain ⟨i, hi, rfl⟩ := Array.mem_iff_getElem.mp hb
  have hlt : i < t.classes.size := Nat.lt_of_lt_of_eq hi Array.size_modify
  have hplace := getElem?_modifyClass (c := c) (f := f) (Array.getElem?_eq_getElem hlt)
  rw [Array.getElem?_eq_getElem hi] at hplace
  rw [Option.some.inj hplace]
  split
  · exact .inr rfl
  · exact .inl (Array.getElem_mem hlt)

/-- What is mentioned stays mentioned if the changed class still mentions it. -/
theorem has_modifyClass (hf : (t.classBody c).mentions.Has x → (f (t.classBody c)).mentions.Has x)
    (h : ∃ b ∈ t.classes, b.mentions.Has x) :
    ∃ b ∈ (t.modifyClass c f).classes, b.mentions.Has x := by
  obtain ⟨b, hb, hx⟩ := h
  obtain ⟨i, hi⟩ := Array.mem_iff_getElem?.mp hb
  refine ⟨_, Array.mem_of_getElem? (getElem?_modifyClass hi), ?_⟩
  split
  next heq =>
    subst heq
    unfold classBody at hf ⊢
    rw [hi] at hf ⊢
    exact hf hx
  next => exact hx

/-- What is mentioned after a change was mentioned before, or is due to the change. -/
theorem mentioned_modifyClass (hx : (t.modifyClass c f).Mentioned x) :
    t.Mentioned x ∨ (f (t.classBody c)).mentions.Has x := by
  rcases hx with hx | ⟨b, hb, hx⟩
  · exact .inl (.inl hx)
  · rcases mem_modifyClass hb with hb | rfl
    · exact .inl (.inr ⟨b, hb, hx⟩)
    · exact .inr hx

/-- Only the changed class may have come to life. -/
theorem liveClasses_modifyClass {i : Nat} (hi : i ∈ (t.modifyClass c f).liveClasses) :
    i ∈ t.liveClasses ∨ i = c.id := by
  rw [mem_liveClasses] at hi ⊢
  change ((t.classes.modify c.id f)[i]?.any _) = true at hi
  rw [Array.getElem?_modify] at hi
  split at hi
  next heq => exact .inr heq.symm
  next => exact .inl hi

end SymbolTable

/-- What the members of a class mention to which one was added. -/
theorem ClassBody.has_add {b b₁ : ClassBody} {name : String} {ty : Ty} {access : Access}
    {x : Nat ⊕ Nat} (h : b.add name ty access = .ok b₁) :
    b₁.mentions.Has x ↔ b.mentions.Has x ∨ ty.mentions.Has x := by
  unfold ClassBody.add at h
  unfold ClassBody.mentions Bindings.mentions
  cases hfound : b.member? name with
  | some m =>
    rw [hfound] at h
    cases h
  | none =>
    rw [hfound] at h
    cases access with
    | pub =>
      cases h
      simp only [Mentions.has_append, Mentions.has_ofList, List.mem_cons, exists_eq_or_imp]
      rw [or_assoc, or_comm]
    | priv =>
      cases h
      simp only [Mentions.has_append, Mentions.has_ofList, List.mem_cons, exists_eq_or_imp]
      rw [or_left_comm, or_comm]

/-- The type of a member is one of those that the class mentions. -/
theorem ClassBody.has_of_member? {b : ClassBody} {name : String} {m : Access × Ty} {x : Nat ⊕ Nat}
    (h : b.member? name = some m) (hx : m.2.mentions.Has x) : b.mentions.Has x := by
  have hentry : (b.table m.1).mentions.Has x :=
    Mentions.has_ofList.mpr ⟨_, Bindings.mem_of_lookup (lookup_table h), hx⟩
  unfold ClassBody.mentions
  rw [Mentions.has_append]
  cases hregion : m.1 <;> rw [hregion] at hentry
  · exact .inl hentry
  · exact .inr hentry

/-- What a name means in a scope is mentioned there or in a class. -/
theorem SymbolTable.mentioned_of_findIn {t : SymbolTable} {f : Frame} {name : String} {ty : Ty}
    {x : Nat ⊕ Nat} (hf : f ∈ t.frames) (hty : t.findIn f name = some ty) (hx : ty.mentions.Has x) :
    t.Mentioned x := by
  unfold SymbolTable.findIn at hty
  cases hcls : f.cls? with
  | none =>
    rw [hcls] at hty
    refine .inl ⟨f, hf, ?_⟩
    unfold Frame.mentions
    rw [Mentions.has_append, Mentions.has_append]
    exact .inl (.inl (Mentions.has_ofList.mpr ⟨_, Bindings.mem_of_lookup hty, hx⟩))
  | some c =>
    rw [hcls] at hty
    obtain ⟨m, hm, rfl⟩ := Option.map_eq_some_iff.mp hty
    exact .inr (exists_of_classBody (ClassBody.has_of_member? hm hx))

/-! ### Free names -/

/-- A name that no member has can be given to one. -/
theorem ClassBody.exists_add {b : ClassBody} {name : String} (h : b.member? name = none) (ty : Ty)
    (access : Access) :
    ∃ b', b.add name ty access = .ok b' ∧ b'.member? name = some (access, ty) := by
  unfold add
  rw [h]
  unfold member? at h
  cases access with
  | pub => exact ⟨_, rfl, by simp [member?]⟩
  | priv =>
    refine ⟨_, rfl, ?_⟩
    cases hpublic : b.publicMembers.lookup name with
    | none => simp [member?, hpublic]
    | some ty =>
      rw [hpublic] at h
      cases h

namespace SymbolTable

variable {t : SymbolTable} {name : String} {c : ClassRef}

/-- In the body of a class, names mean its members. -/
theorem lookupLocal?_of_cls? (h : t.current.cls? = some c) (name : String) :
    t.lookupLocal? name = (t.member? c name).map (·.2) := by
  unfold lookupLocal? findIn
  rw [h]

/-- A free name can be bound. -/
theorem insert_free (hmade : ∀ c, t.current.cls? = some c → c.id < t.classes.size)
    (hfree : t.lookupLocal? name = none) (ty : Ty) :
    ∃ t', t.insert name ty = .ok t' ∧ t'.lookupLocal? name = some ty := by
  cases hcls : t.current.cls? with
  | none =>
    rw [lookupLocal?_eq hcls] at hfree
    let t' : SymbolTable :=
      { t with current := { t.current with bindings := (name, ty) :: t.current.bindings } }
    refine ⟨t', ?_, (lookupLocal?_eq (t := t') hcls name).trans List.lookup_cons_self⟩
    unfold insert
    rw [hcls]
    dsimp only
    rw [hfree]
  | some c =>
    rw [lookupLocal?_of_cls? hcls, Option.map_eq_none_iff] at hfree
    obtain ⟨b, hadd, hmember⟩ := ClassBody.exists_add hfree ty t.current.access
    refine ⟨t.modifyClass c fun _ => b, ?_, ?_⟩
    · unfold insert addMember
      rw [hcls]
      dsimp only
      rw [hadd]
    · refine (lookupLocal?_of_cls? (t := t.modifyClass c fun _ => b) hcls name).trans ?_
      unfold member?
      rw [classBody_modifyClass (hmade c hcls), if_pos rfl, hmember]
      rfl

end SymbolTable

/-- The class of an open scope is mentioned. -/
theorem SymbolTable.mentioned_of_cls? {t : SymbolTable} {f : Frame} {c : ClassRef}
    (hf : f ∈ t.frames) (hc : f.cls? = some c) : t.Mentioned (.inr c.id) := by
  refine .inl ⟨f, hf, ?_⟩
  unfold Frame.mentions
  simp [hc, Mentions.has_ofClass]

namespace Checker.Rooted

variable {s : Checker}

/-- What scopes and members mention has been made. -/
theorem made (h : s.Rooted) {x : Nat ⊕ Nat} (hx : s.symbols.Mentioned x) : s.symbols.Made x := by
  rcases hx with ⟨f, hf, hx⟩ | ⟨b, hb, hx⟩
  · exact h.scopes f hf x hx
  · exact h.members b hb x hx

/-- The class of an open body has been made. -/
theorem made_of_cls? (h : s.Rooted) {f : Frame} {c : ClassRef} (hf : f ∈ s.symbols.frames)
    (hc : f.cls? = some c) : c.id < s.symbols.classes.size :=
  h.made (SymbolTable.mentioned_of_cls? hf hc)

end Checker.Rooted

/-! ### The start of a check -/

/-- The types of built-in declarations mention nothing. -/
theorem Config.closed_builtins (config : Config) : ∀ entry ∈ config.builtins, entry.2.Closed := by
  intro entry hentry
  rcases List.mem_cons.mp hentry with rfl | hentry
  · intro x hx
    cases x <;> exact List.not_mem_nil hx
  · obtain ⟨header, -, hmem⟩ := List.mem_flatMap.mp hentry
    exact header.closed entry hmem

/-- Only built-in declarations have been made in a table that holds those of a configuration. -/
theorem SymbolTable.seeded_populated (config : Config) : (populated config).Seeded := by
  have hall : ∀ (entries : List (String × Builtin)) (t : SymbolTable), t.Seeded →
      (∀ entry ∈ entries, entry.2.Closed) → (entries.foldl declareBuiltin t).Seeded := by
    intro entries
    induction entries with
    | nil => exact fun _ ht _ => ht
    | cons entry rest ih =>
      intro t ht hclosed
      exact ih _ (ht.declareBuiltin (hclosed entry List.mem_cons_self))
        fun entry hentry => hclosed entry (List.mem_cons_of_mem _ hentry)
  exact hall config.builtins .empty .empty config.closed_builtins

/-- At the start of a check, no class has members. -/
theorem Checker.member?_start (config : Config) (c : ClassRef) (name : String) :
    (Checker.start config).symbols.member? c name = none := by
  have hseeded := SymbolTable.seeded_populated config
  change ((SymbolTable.populated config).classes[c.id]?.getD {}).member? name = none
  cases hbody : (SymbolTable.populated config).classes[c.id]? with
  | none => rfl
  | some b =>
    obtain ⟨hpublic, hprivate⟩ :=
      Bool.and_eq_true_iff.mp (hseeded.members b (Array.mem_of_getElem? hbody))
    change b.member? name = none
    unfold ClassBody.member?
    rw [List.isEmpty_iff.mp hpublic, List.isEmpty_iff.mp hprivate]
    rfl

/-- The start of a check is grounded. -/
theorem Checker.grounded_start (config : Config) : (Checker.start config).Grounded := by
  have hseeded := SymbolTable.seeded_populated config
  have hframes : (Checker.start config).symbols.frames = [(SymbolTable.populated config).current] :=
    congrArg (_ :: ·) hseeded.outer
  have hcls := hseeded.cls?_eq
  refine ⟨⟨fun f hf x hx => ?_, fun b hb x hx => ?_, fun ty hty => ?_⟩,
    ⟨fun i hi => ?_, fun i hi => ?_⟩, ?_⟩
  · rw [hframes, List.mem_singleton] at hf
    subst hf
    unfold Frame.mentions at hx
    rw [Mentions.has_append, Mentions.has_append, hcls] at hx
    rcases hx with (hx | hx) | hx
    · obtain ⟨entry, hentry, hx⟩ := Mentions.has_ofList.mp hx
      exact hseeded.bindings entry hentry x hx
    · obtain ⟨c, hc, hx⟩ := Mentions.has_ofList.mp hx
      rw [Mentions.has_ofClass.mp hx]
      exact hseeded.recorded c hc
    · exact absurd hx Mentions.not_has_empty
  · exact absurd hx (ClassBody.not_has_of_isEmpty (hseeded.members b hb) x)
  · cases hty
  · rw [SymbolTable.mem_liveBodies] at hi
    change (SymbolTable.populated config).bodies[i]?.join.isSome = true at hi
    rw [hseeded.bodies i] at hi
    cases hi
  · rw [SymbolTable.mem_liveClasses] at hi
    change ((SymbolTable.populated config).classes[i]?.any fun b => !b.isEmpty) = true at hi
    cases hbody : (SymbolTable.populated config).classes[i]? with
    | none =>
      rw [hbody] at hi
      cases hi
    | some b =>
      rw [hbody, Option.any_some, hseeded.members b (Array.mem_of_getElem? hbody)] at hi
      cases hi
  · refine ⟨_, List.mem_cons_self, ?_⟩
    unfold Frame.isClassBody
    change (SymbolTable.populated config).current.cls?.isSome = false
    rw [hcls]
    rfl

end CWithClasses
