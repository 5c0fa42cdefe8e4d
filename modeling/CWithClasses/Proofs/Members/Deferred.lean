import CWithClasses.Proofs.Likeness.Seeding
import CWithClasses.Proofs.Members.Body

/-!
# Bodies one after another

The bodies of a class are checked one after another, and each of them leaves functions and classes
behind that were made inside of it. But nothing outside of the body mentions these, so the next body
is checked as if it was the first one. `Checker.Ready.forM_ok` and `Checker.Ready.exists_forM` say
this of all bodies of a class: what is reported in the end is what each body adds by itself.
-/

namespace CWithClasses

open Check

/-! ### Numbers that are in use -/

/-- All numbers move up, but for the first functions and the first classes. -/
def Renaming.raise (functions classes k l : Nat) : Renaming where
  cls i := if i < classes then i else i + l
  fn i := if i < functions then i else i + k
  injective_cls := by
    intro i j hij
    dsimp only at hij
    split_ifs at hij <;> omega
  injective_fn := by
    intro i j hij
    dsimp only at hij
    split_ifs at hij <;> omega

/-- The renaming keeps the numbers of all that has been made. -/
def SymbolTable.KeptBy (t : SymbolTable) (σ : Renaming) : Prop := ∀ x, t.Made x → σ.either x = x

/-- Only what is not yet made gets other numbers. -/
theorem SymbolTable.keptBy_raise (t : SymbolTable) (k l : Nat) :
    t.KeptBy (.raise t.bodies.size t.classes.size k l) := by
  intro x hx
  cases x with
  | inl i => exact congrArg Sum.inl (if_pos hx)
  | inr i => exact congrArg Sum.inr (if_pos hx)

section Kept

variable {σ : Renaming}

/-- A type whose numbers are kept. -/
theorem Ty.rename_eq_of_kept {ty : Ty} (h : ∀ x, ty.mentions.Has x → σ.either x = x) :
    ty.rename σ = ty := by
  have hid : ∀ x, Renaming.id.either x = x := fun x => by cases x <;> rfl
  rw [Ty.rename_congr fun x hx => (h x hx).trans (hid x).symm, Ty.rename_id]

/-- Bindings whose numbers are kept. -/
theorem Bindings.seen_of_kept {b : Bindings} {hidden : List String}
    (h : ∀ x, (Bindings.mentions b).Has x → σ.either x = x) : Bindings.Seen σ hidden b b := by
  intro name _
  cases hfound : b.lookup name with
  | none => rfl
  | some ty =>
    have hmem : (name, ty) ∈ b := Bindings.mem_of_lookup hfound
    rw [Option.map_some, Ty.rename_eq_of_kept fun x hx =>
      h x (Mentions.has_ofList.mpr ⟨_, hmem, hx⟩)]

/-- A scope whose numbers are kept. -/
theorem Frame.seen_of_kept {f : Frame} (h : ∀ x, f.mentions.Has x → σ.either x = x) :
    f.Seen σ.view f := by
  unfold Frame.mentions at h
  simp only [Mentions.has_append] at h
  refine ⟨?_, Bindings.seen_of_kept fun x hx => h x (.inl (.inl hx))⟩
  unfold Frame.cls? at h
  cases hkind : f.kind with
  | classBody c =>
    rw [hkind] at h
    have hid : σ.cls c.id = c.id :=
      Sum.inr.inj (h (.inr c.id) (.inr (Mentions.has_ofList.mpr
        ⟨c, List.mem_singleton_self c, Mentions.has_ofClass.mpr rfl⟩)))
    change FrameKind.classBody c = .classBody ⟨σ.cls c.id, c.name⟩
    rw [hid]
  | _ => rfl

/-- Members whose numbers are kept. -/
theorem ClassBody.seen_of_kept {b : ClassBody} (h : ∀ x, b.mentions.Has x → σ.either x = x) :
    b.Seen σ False b := by
  unfold ClassBody.mentions at h
  simp only [Mentions.has_append] at h
  exact ⟨Bindings.seen_of_kept fun x hx => h x (.inl hx), fun _ => rfl,
    fun _ => Bindings.seen_of_kept fun x hx => h x (.inr hx), rfl⟩

end Kept

/-- What a class mentions is mentioned by one that has been made. -/
theorem SymbolTable.exists_of_classBody {t : SymbolTable} {c : ClassRef} {x : Nat ⊕ Nat}
    (hx : (t.classBody c).mentions.Has x) : ∃ b ∈ t.classes, b.mentions.Has x := by
  unfold SymbolTable.classBody at hx
  cases hbody : t.classes[c.id]? with
  | none =>
    rw [hbody] at hx
    exact absurd hx (ClassBody.not_has_of_isEmpty rfl x)
  | some b =>
    rw [hbody] at hx
    exact ⟨b, Array.mem_of_getElem? hbody, hx⟩

namespace Checker

variable {s s₁ : Checker} {σ : Renaming} {ids : List Nat}

/-- All that the scopes, the members of classes and the results of functions mention has been
made. -/
structure Rooted (s : Checker) : Prop where
  scopes : ∀ f ∈ s.symbols.frames, ∀ x, f.mentions.Has x → s.symbols.Made x
  members : ∀ b ∈ s.symbols.classes, ∀ x, b.mentions.Has x → s.symbols.Made x
  returns : ∀ ty ∈ s.returns, ∀ x, ty.mentions.Has x → s.symbols.Made x

/-- The members of a class mention what has been made. -/
theorem Rooted.classBody (h : s.Rooted) (c : ClassRef) {x : Nat ⊕ Nat}
    (hx : (s.symbols.classBody c).mentions.Has x) : s.symbols.Made x := by
  obtain ⟨b, hb, hx⟩ := SymbolTable.exists_of_classBody hx
  exact h.members b hb x hx

/-- What has been made in the meantime is not seen. -/
theorem Attached.matches_raise (h : s.Attached ids s₁) (hs : s.Rooted) (hlimit : s.limit = none)
    (hsettled : s.Settled) (hsettled₁ : s₁.Settled) :
    s.Matches (.raise s.symbols.bodies.size s.symbols.classes.size
      (s₁.symbols.bodies.size - s.symbols.bodies.size)
      (s₁.symbols.classes.size - s.symbols.classes.size)) s₁ := by
  have hsize := h.size
  have hsize' := h.classes.size_le
  generalize hk : s₁.symbols.bodies.size - s.symbols.bodies.size = k
  generalize hl : s₁.symbols.classes.size - s.symbols.classes.size = l
  have hkept := s.symbols.keptBy_raise k l
  generalize hσ : Renaming.raise s.symbols.bodies.size s.symbols.classes.size k l = σ at hkept ⊢
  refine ⟨⟨?_, fun c => ?_, fun _ _ => not_false⟩,
    ⟨h.loops, h.switches, ?_⟩, fun i => ?_, fun i => ?_,
    ⟨hlimit, h.limit.trans hlimit⟩, ⟨hsettled, hsettled₁⟩⟩
  · have hframes : s₁.symbols.frames = s.symbols.frames := by
      unfold SymbolTable.frames
      rw [h.current, h.outer]
    rw [hframes]
    exact List.forall₂_same.mpr fun f hf =>
      Frame.seen_of_kept fun x hx => hkept x (hs.scopes f hf x hx)
  · rw [h.classes.classBody_eq]
    by_cases hc : c.id < s.symbols.classes.size
    · have hid : c.rename σ = c := by
        have hid := Sum.inr.inj (hkept (.inr c.id) hc)
        unfold ClassRef.rename
        rw [hid]
      change ClassBody.Seen σ False _ (s.symbols.classBody (c.rename σ))
      rw [hid]
      exact ClassBody.seen_of_kept fun x hx => hkept x (hs.classBody c hx)
    · -- Neither class has members: the first one is not made, and the second one is new.
      have hid : s.symbols.classes.size ≤ (c.rename σ).id := by
        change _ ≤ σ.cls c.id
        rw [← hσ]
        change _ ≤ if c.id < s.symbols.classes.size then c.id else c.id + l
        rw [if_neg hc]
        omega
      change ClassBody.Seen σ False (s.symbols.classBody c) (s.symbols.classBody (c.rename σ))
      unfold SymbolTable.classBody
      rw [Array.getElem?_eq_none (Nat.le_of_not_lt hc), Array.getElem?_eq_none hid]
      exact ClassBody.seen_of_kept fun x hx => absurd hx (ClassBody.not_has_of_isEmpty rfl x)
  · rw [h.returns]
    refine List.forall₂_same.mpr fun ty hty => (Ty.rename_eq_of_kept fun x hx => ?_).symm
    exact hkept x (hs.returns ty hty x hx)
  · rw [← hσ]
    change (if _ < _ then _ else _) = _
    rw [if_neg (by omega)]
    omega
  · rw [← hσ]
    change (if _ < _ then _ else _) = _
    rw [if_neg (by omega)]
    omega

end Checker

/-! ### What a body adds -/

/-- The numbers of the functions that bodies belong to. -/
def FunctionBody.numbers (bodies : List FunctionBody) : List Nat :=
  bodies.filterMap fun b => b.ty.asFunction?.map FunctionTy.id

/-- The number of one more body. -/
theorem FunctionBody.append_numbers_subset {bodies : List FunctionBody} {ids : List Nat}
    {b : FunctionBody} {f : FunctionTy} (hids : ids ⊆ numbers bodies) (hb : b ∈ bodies)
    (hf : b.ty.asFunction? = some f) : ids ++ [f.id] ⊆ numbers bodies := by
  refine List.append_subset.mpr ⟨hids, List.cons_subset.mpr ⟨?_, List.nil_subset _⟩⟩
  exact List.mem_filterMap.mpr ⟨b, hb, by simp [hf]⟩

namespace Checker

/-- Checking the body in the state adds the given reports. -/
def Adds (s : Checker) (b : FunctionBody) (new : List Diagnostic) : Prop :=
  ∃ s₁, b.check s = .ok () s₁ ∧ s₁.diagnostics = s.diagnostics ++ new

/-- All members of a class have been declared, and the bodies of its methods are to be checked. -/
structure Ready (s : Checker) (bodies : List FunctionBody) : Prop where
  rooted : s.Rooted
  settled : s.Settled
  limit : s.limit = none
  inline : ∀ b ∈ bodies, ∃ E, b.Inline E
  kept : ∀ b ∈ bodies, ∀ σ, s.symbols.KeptBy σ → b.rename σ = b
  mentioned : ∀ i ∈ FunctionBody.numbers bodies, s.allMentions.Has (.inl i)

/-- In states that match, a body adds the same. -/
theorem Matches.adds {s s' : Checker} {σ : Renaming} {b : FunctionBody} {new : List Diagnostic}
    {E : Effect} (h : s.Matches σ s') (hb : b.Inline E) (hnew : s.Adds b new) :
    s'.Adds (b.rename σ) new := by
  obtain ⟨f, hf⟩ := StepLogic.exists_asFunction hb.function
  obtain ⟨s₁, hrun, hreports⟩ := hnew
  rcases Renaming.check hb hf h with
    ⟨s₂, s₁', new', hrun₂, hrun', -, -, hnew, hnew'⟩ | ⟨e, s₂, s₂', hrun₂, -⟩
  · rw [hrun] at hrun₂
    cases hrun₂
    rw [hreports] at hnew
    rw [List.append_cancel_left hnew]
    exact ⟨s₁', hrun', hnew'⟩
  · rw [hrun] at hrun₂
    cases hrun₂

namespace Ready

variable {s s₁ s₂ : Checker} {bodies rest : List FunctionBody} {b : FunctionBody} {ids : List Nat}

/-- A body is checked later as it is checked first. -/
theorem step (h : s.Ready bodies) (hb : b ∈ bodies) (hs₁ : s.Attached ids s₁)
    (hids : ids ⊆ FunctionBody.numbers bodies) {f : FunctionTy} (hf : b.ty.asFunction? = some f) :
    (∃ s₂ new, b.check s₁ = .ok () s₂ ∧ s.Adds b new ∧ s₂.diagnostics = s₁.diagnostics ++ new ∧
      s.Attached (ids ++ [f.id]) s₂) ∨
    ∃ e s₂ s₃, b.check s = .error e s₂ ∧ b.check s₁ = .error e s₃ := by
  have hmatches := hs₁.matches_raise h.rooted h.limit h.settled
    (hs₁.settled h.settled fun i hi => h.mentioned i (hids hi))
  have hkept := h.kept b hb _ (s.symbols.keptBy_raise
    (s₁.symbols.bodies.size - s.symbols.bodies.size)
    (s₁.symbols.classes.size - s.symbols.classes.size))
  generalize Renaming.raise _ _ _ _ = σ at hmatches hkept
  have hid : f.rename σ = f := by
    have hrenamed : (b.rename σ).ty.asFunction? = some (f.rename σ) := by
      change (b.ty.rename σ).asFunction? = _
      rw [Ty.asFunction?_rename, hf]
      rfl
    rw [hkept, hf] at hrenamed
    exact (Option.some.inj hrenamed).symm
  obtain ⟨E, hinline⟩ := h.inline b hb
  rcases Renaming.check hinline hf hmatches with
    ⟨s₂, s₃, new, hrun, hrun₁, -, hattached, hnew, hnew₁⟩ | ⟨e, s₂, s₃, hrun, hrun₁⟩
  · rw [hkept] at hrun₁
    rw [show σ.fn f.id = f.id from congrArg FunctionTy.id hid] at hattached
    exact .inl ⟨s₃, new, hrun₁, ⟨s₂, hrun, hnew⟩, hnew₁, hs₁.trans hattached⟩
  · rw [hkept] at hrun₁
    exact .inr ⟨e, s₂, s₃, hrun, hrun₁⟩

/-- If all bodies can be checked, all that is reported is what each of them adds. -/
theorem forM_ok (h : s.Ready bodies) (hrest : rest ⊆ bodies) (hs₁ : s.Attached ids s₁)
    (hids : ids ⊆ FunctionBody.numbers bodies)
    (hrun : rest.forM FunctionBody.check s₁ = .ok () s₂) :
    ∃ news, List.Forall₂ s.Adds rest news ∧ s₂.diagnostics = s₁.diagnostics ++ news.flatten ∧
      s.Attached (ids ++ FunctionBody.numbers rest) s₂ := by
  induction rest generalizing s₁ ids with
  | nil =>
    cases hrun
    refine ⟨[], .nil, (List.append_nil _).symm, ?_⟩
    simpa [FunctionBody.numbers] using hs₁
  | cons b rest ih =>
    have hb := hrest List.mem_cons_self
    obtain ⟨E, hinline⟩ := h.inline b hb
    obtain ⟨f, hf⟩ := StepLogic.exists_asFunction hinline.function
    change (b.check >>= fun _ => rest.forM FunctionBody.check) s₁ = .ok () s₂ at hrun
    obtain ⟨_, s₁', hfirst, hrun⟩ := exists_of_bind hrun
    have hnumbers : FunctionBody.numbers (b :: rest) = f.id :: FunctionBody.numbers rest := by
      simp [FunctionBody.numbers, hf]
    rcases h.step hb hs₁ hids hf with ⟨s₁'', new, hrun₁, hadds, hnew, hattached⟩ |
      ⟨e, _, _, -, hrun₁⟩
    · rw [hfirst] at hrun₁
      cases hrun₁
      obtain ⟨news, hnews, hreports, hlast⟩ := ih (fun x hx => hrest (List.mem_cons_of_mem _ hx))
        hattached (FunctionBody.append_numbers_subset hids hb hf) hrun
      refine ⟨new :: news, .cons hadds hnews, ?_, ?_⟩
      · rw [hreports, hnew, List.flatten_cons, List.append_assoc]
      · rw [hnumbers]
        simpa using hlast
    · rw [hfirst] at hrun₁
      cases hrun₁

/-- If each body can be checked by itself, all of them can be checked one after another. -/
theorem exists_forM (h : s.Ready bodies) (hrest : rest ⊆ bodies) (hs₁ : s.Attached ids s₁)
    (hids : ids ⊆ FunctionBody.numbers bodies) {news : List (List Diagnostic)}
    (hnews : List.Forall₂ s.Adds rest news) :
    ∃ s₂, rest.forM FunctionBody.check s₁ = .ok () s₂ := by
  induction hnews generalizing s₁ ids with
  | nil => exact ⟨s₁, rfl⟩
  | @cons b new rest news hadds _ ih =>
    have hb := hrest List.mem_cons_self
    obtain ⟨E, hinline⟩ := h.inline b hb
    obtain ⟨f, hf⟩ := StepLogic.exists_asFunction hinline.function
    rcases h.step hb hs₁ hids hf with ⟨s₂, _, hrun, -, -, hattached⟩ | ⟨e, _, _, hrun, -⟩
    · obtain ⟨s₃, hlast⟩ := ih (fun x hx => hrest (List.mem_cons_of_mem _ hx)) hattached
        (FunctionBody.append_numbers_subset hids hb hf)
      refine ⟨s₃, ?_⟩
      change (b.check >>= fun _ => rest.forM FunctionBody.check) s₁ = .ok () s₃
      rw [bind_ok hrun, hlast]
    · obtain ⟨_, hok, -⟩ := hadds
      rw [hrun] at hok
      cases hok

end Ready

end Checker

end CWithClasses
