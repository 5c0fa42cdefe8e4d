import CWithClasses.Proofs.Grounding.Course

/-!
# Opening a class

A class head makes a class or finds one that was only declared. Afterwards something outside of its
body mentions the class, so that the class is not let go when the body is closed.
-/

namespace CWithClasses

open Check

namespace Checker

variable {s s₁ : Checker} {c : ClassRef} {name : String}

/-- The body of the class can be read: the class has been made, and a scope or a member mentions
it. -/
structure Opens (s : Checker) (c : ClassRef) : Prop where
  made : c.id < s.symbols.classes.size
  mentioned : (∃ f ∈ s.symbols.frames, f.mentions.Has (.inr c.id)) ∨
    ∃ b ∈ s.symbols.classes, b.mentions.Has (.inr c.id)

namespace Opens

/-- A class that can be opened is mentioned. -/
theorem allMentions (h : s.Opens c) : s.allMentions.Has (.inr c.id) :=
  SymbolTable.Mentioned.allMentions h.mentioned

/-- A new class can be opened, and has no members. -/
theorem newClass (h : s.Grounded) (hrun : Check.newClass name s = .ok c s₁) :
    s₁.Opens c ∧ s₁.symbols.classBody c = {} ∧ c = ⟨s.symbols.classes.size, name⟩ ∧
      s₁.symbols.current.cls? = s.symbols.current.cls? := by
  cases hrun
  let t := (s.symbols.newClass name).2.declareClass ⟨s.symbols.classes.size, name⟩
  obtain ⟨hclasses, -, -, hcls⟩ :=
    (s.symbols.newClass name).2.declareClass_rest ⟨s.symbols.classes.size, name⟩
  refine ⟨⟨?_, .inl ?_⟩, ?_, rfl, hcls⟩
  · change s.symbols.classes.size < t.classes.size
    rw [hclasses]
    exact Nat.lt_of_lt_of_eq (Nat.lt_succ_self _) (Array.size_push _).symm
  · change ∃ f ∈ t.frames, _
    rw [SymbolTable.frames_declareClass]
    exact SymbolTable.has_recordClass.mpr (.inr ⟨rfl, h.outside⟩)
  · change t.classBody _ = _
    unfold SymbolTable.classBody
    rw [hclasses]
    change (s.symbols.classes.push {})[s.symbols.classes.size]?.getD {} = _
    rw [Array.getElem?_push_size]
    rfl

/-- Binding a name. Only the class whose body is the innermost scope may change. -/
theorem insert (h : s.Opens c) {ty : Ty} {t : SymbolTable}
    (hinsert : s.symbols.insert name ty = .ok t)
    (hother : ∀ d, s.symbols.current.cls? = some d → c.id ≠ d.id) :
    Opens { s with symbols := t } c ∧ t.classBody c = s.symbols.classBody c := by
  have hretains : s.symbols.Retains False [] t := .insert (.refl _) False.elim hinsert
  refine ⟨⟨h.made.trans_le hretains.size_le, hretains.mentioned h.mentioned⟩, ?_⟩
  obtain ⟨d, b, hcls, -, rfl⟩ | ⟨-, -, rfl⟩ := SymbolTable.insert_cases hinsert
  · change ((s.symbols.classes.modify d.id _)[c.id]?).getD {} = _
    rw [Array.getElem?_modify, if_neg (hother d hcls).symm]
    rfl
  · rfl

end Opens

/-- The class that a class head opens. Its members are those that it had before. -/
theorem Grounded.openClass (h : s.Grounded) {token : Token}
    (hrun : CWithClasses.openClass token s = .ok c s₁) :
    s₁.Opens c ∧ ∀ name, s.symbols.member? c name = none → s₁.symbols.member? c name = none := by
  have hnone : ∀ {s : Checker} (name : String), s.symbols.classBody c = {} →
      s.symbols.member? c name = none := by
    intro s name hempty
    unfold SymbolTable.member?
    rw [hempty]
    rfl
  unfold CWithClasses.openClass at hrun
  rw [bind_symbols] at hrun
  cases hfound : s.symbols.lookupLocal? token.text with
  | none =>
    rw [hfound] at hrun
    obtain ⟨d, s₂, hnew, hrun⟩ := exists_of_bind hrun
    obtain ⟨_, s₃, hdeclare, hrun⟩ := exists_of_bind hrun
    cases hrun
    obtain ⟨hopens, hempty, rfl, hcls⟩ := Opens.newClass h hnew
    have hother : ∀ d, s₂.symbols.current.cls? = some d → s.symbols.classes.size ≠ d.id := by
      intro d hd
      have hmade := h.made_of_cls? List.mem_cons_self (hcls ▸ hd)
      omega
    rcases declare_ok hdeclare with ⟨t, hinsert, rfl⟩ | hsymbols
    · obtain ⟨hopens', hsame⟩ := hopens.insert hinsert hother
      exact ⟨hopens', fun name _ => hnone name (hsame.trans hempty)⟩
    · rw [← hsymbols] at hempty
      exact ⟨⟨hsymbols ▸ hopens.made, hsymbols ▸ hopens.mentioned⟩, fun name _ => hnone name hempty⟩
  | some existing =>
    rw [hfound] at hrun
    dsimp only at hrun
    cases hopen : existing.objectClass?.filter fun c => !s.symbols.isComplete c with
    | some d =>
      rw [hopen] at hrun
      cases hrun
      obtain ⟨hobject, -⟩ := Option.filter_eq_some_iff.mp hopen
      have hexisting : existing = .object c := by
        cases existing <;> cases hobject
        rfl
      rw [hexisting] at hfound
      have hmention : (Ty.object c).mentions.Has (.inr c.id) := Mentions.has_ofClass.mpr rfl
      have hmentioned := SymbolTable.mentioned_of_findIn List.mem_cons_self hfound hmention
      exact ⟨⟨h.made hmentioned, hmentioned⟩, fun _ hname => hname⟩
    | none =>
      rw [hopen] at hrun
      obtain ⟨_, s₂, hreport, hnew⟩ := exists_of_bind hrun
      have hs₂ := (h.step (.report _ _) hreport).1
      obtain ⟨hopens, hempty, -⟩ := Opens.newClass hs₂ hnew
      exact ⟨hopens, fun name _ => hnone name hempty⟩

/-- The class of a class head, which may be without a name. -/
theorem Grounded.classHead (h : s.Grounded) {n : Node} (hrun : n.phrase.classHead s = .ok c s₁) :
    s₁.Grounded ∧ s₁.Opens c ∧
      ∀ name, s.symbols.member? c name = none → s₁.symbols.member? c name = none := by
  refine ⟨(h.step (.classHead n) hrun).1, ?_⟩
  have hcases : n.phrase.classHead =
      (do CWithClasses.openClass (← (← n.phrase.part 1).node.leafToken)) ∨
      n.phrase.classHead = Check.newClass "<anonymous>" ∨
      n.phrase.classHead = n.phrase.unexpected "class head" := by
    unfold Phrase.classHead
    split
    · exact .inl rfl
    · exact .inr (.inl rfl)
    · exact .inr (.inr rfl)
  rcases hcases with heq | heq | heq <;> rw [heq] at hrun
  · obtain ⟨q, s₂, hpart, hrun⟩ := exists_of_bind hrun
    obtain ⟨token, s₃, htoken, hrun⟩ := exists_of_bind hrun
    have hs₂ : s₂ = s := by
      unfold Phrase.part Clause.part at hpart
      cases hq : n.phrase.clause.part? 1 <;> rw [hq] at hpart <;> cases hpart
      rfl
    have hs₃ : s₃ = s := by
      unfold Node.leafToken at htoken
      cases hleaf : q.node.token <;> rw [hleaf] at htoken <;> cases htoken
      exact hs₂
    exact h.openClass (hs₃ ▸ hrun)
  · obtain ⟨hopens, hempty, -⟩ := Opens.newClass h hrun
    refine ⟨hopens, fun name _ => ?_⟩
    unfold SymbolTable.member?
    rw [hempty]
    rfl
  · cases hrun

end Checker

end CWithClasses
