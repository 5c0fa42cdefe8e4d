import CWithClasses.Proofs.Upkeep.Table

/-!
# Reading without classes

Specifiers, declarators and expressions change the table of a check in two ways: they make
functions, and they declare classes. In a tree that contains neither a class specification nor a
class that is named with its key, only functions are made, and no name is declared once too often.
-/

namespace CWithClasses

open Check

variable {F : Nat → Prop}

/-! ### Steps that only read -/

/-- From the first state to the second one, the scopes and the classes have stayed the same,
functions have been made that have no bodies, uses of names have been recorded, and no redeclaration
has been reported. -/
structure Checker.Reads (s s' : Checker) : Prop where
  symbols : ∃ count, s'.symbols = (s.withFunctions count).symbols
  limit : s'.limit = s.limit
  reports : ∃ new, s'.diagnostics = s.diagnostics ++ new ∧
    ∀ d ∈ new, ¬ d.problem.isRedeclaration = true
  resolutions : s.resolutions <+: s'.resolutions
  returns : s'.returns = s.returns
  held : s'.held = s.held

namespace Checker.Reads

variable {s s₁ s₂ : Checker}

/-- Nothing changes. -/
theorem refl (s : Checker) : s.Reads s where
  symbols := ⟨0, by rw [s.withFunctions_zero]⟩
  limit := rfl
  reports := ⟨[], (List.append_nil _).symm, fun _ hd => by cases hd⟩
  resolutions := List.prefix_rfl
  returns := rfl
  held := rfl

/-- One change after another. -/
theorem trans (h : s.Reads s₁) (h' : s₁.Reads s₂) : s.Reads s₂ := by
  obtain ⟨count, hsymbols⟩ := h.symbols
  obtain ⟨count', hsymbols'⟩ := h'.symbols
  obtain ⟨new, hnew, hall⟩ := h.reports
  obtain ⟨new', hnew', hall'⟩ := h'.reports
  refine ⟨⟨count + count', ?_⟩, h'.limit.trans h.limit, ⟨new ++ new', ?_, fun d hd => ?_⟩,
    h.resolutions.trans h'.resolutions, h'.returns.trans h.returns, h'.held.trans h.held⟩
  · rw [hsymbols']
    unfold withFunctions
    rw [hsymbols]
    simp [withFunctions, Array.append_assoc]
  · rw [hnew', hnew, List.append_assoc]
  · exact (List.mem_append.mp hd).elim (hall d) (hall' d)

/-- No function that has been made is taken back. -/
theorem size_le (h : s.Reads s₁) : s.symbols.bodies.size ≤ s₁.symbols.bodies.size := by
  obtain ⟨count, hsymbols⟩ := h.symbols
  rw [hsymbols]
  exact (SymbolTable.Sheds.withFunctions s count).functions

/-- A report of some other problem. -/
theorem reported (s : Checker) {d : Diagnostic} (hd : ¬ d.problem.isRedeclaration = true) :
    s.Reads (s.reported d) := by
  by_cases hfull : s.limit.any fun limit => limit ≤ s.diagnostics.length
  · have hsame : s.reported d = { s with log := (s.reported d).log, dropped := s.dropped + 1 } := by
      unfold Checker.reported
      rw [if_pos hfull]
      split <;> rfl
    rw [hsame]
    exact { refl s with }
  · have hsame : s.reported d = { s with
        diagnostics := s.diagnostics ++ [d], log := (s.reported d).log } := by
      unfold Checker.reported
      rw [if_neg hfull]
      rfl
    rw [hsame]
    refine { refl s with reports := ⟨[d], rfl, fun d' hd' => ?_⟩ }
    exact List.mem_singleton.mp hd' ▸ hd

end Checker.Reads

/-- The step only reads, and its result is as stated if the functions that it makes are given
ones. -/
structure Check.Peruses (F : Nat → Prop) {α : Type} (p : Prop) (x : Check α)
    (Q : α → Prop) : Prop where
  reads : ∀ s a s', x s = .ok a s' → s.Reads s'
  result : p → ∀ s a s', x s = .ok a s' → s.Makes F s' → Q a

namespace Check.Peruses

variable {α β : Type} {p q : Prop}

/-- A step that only has a result. -/
theorem ret {Q : α → Prop} (a : α) (ha : p → Q a) : Peruses F p (pure a) Q where
  reads s _ _ h := by
    cases h
    exact .refl s
  result hp _ _ _ h _ := by
    cases h
    exact ha hp

/-- One step after another. -/
theorem seq {x : Check α} {f : α → Check β} {R P : α → Prop} {Q : β → Prop} (hR : x.Yields R)
    (hx : Peruses F p x P) (hf : ∀ a, R a → Peruses F (p ∧ P a) (f a) Q) :
    Peruses F p (x >>= f) Q := by
  refine ⟨fun s b s' h => ?_, fun hp s b s' h hmakes => ?_⟩
  · obtain ⟨a, s₁, hfirst, hsecond⟩ := exists_of_bind h
    exact (hx.reads s a s₁ hfirst).trans ((hf a (hR s a s₁ hfirst)).reads s₁ b s' hsecond)
  · obtain ⟨a, s₁, hfirst, hsecond⟩ := exists_of_bind h
    have hrest := hf a (hR s a s₁ hfirst)
    have hle := (hx.reads s a s₁ hfirst).size_le
    have hle' := (hrest.reads s₁ b s' hsecond).size_le
    have ha := hx.result hp s a s₁ hfirst fun i hi hlt => hmakes i hi (hlt.trans_le hle')
    exact hrest.result ⟨hp, ha⟩ s₁ b s' hsecond fun i hi hlt => hmakes i (hle.trans hi) hlt

/-- More may be assumed, and less concluded. -/
theorem conseq {x : Check α} {P Q : α → Prop} (hx : Peruses F p x P) (hq : q → p)
    (hQ : ∀ a, q → P a → Q a) : Peruses F q x Q where
  reads := hx.reads
  result hp s a s' h hmakes := hQ a hp (hx.result (hq hp) s a s' h hmakes)

/-- A fault. -/
theorem fault {Q : α → Prop} (e : Fault) : Peruses F p (throw e) Q where
  reads _ _ _ h := by cases h
  result _ _ _ _ h := by cases h

/-- A change of the state by which nothing is declared. -/
theorem change {f : Checker → Checker} (hf : ∀ s : Checker, s.Reads (f s)) :
    Peruses F p (modify f) fun _ => True where
  reads s _ _ h := by
    cases h
    exact hf s
  result _ _ _ _ _ _ := trivial

/-- Looking at the table. -/
theorem symbols : Peruses F p Check.symbols fun _ => True where
  reads s _ _ h := by
    cases h
    exact .refl s
  result _ _ _ _ _ _ := trivial

/-- Making a function whose number is a given one. -/
theorem newFunction {result : Ty} {params : List Ty} (required : Nat)
    (h : p → result.Over F ∧ ∀ t ∈ params, t.Over F) :
    Peruses F p (Check.newFunction result params required) (Ty.Over F) where
  reads s _ _ hrun := by
    rw [Check.newFunction_eq] at hrun
    cases hrun
    exact { Checker.Reads.refl s with symbols := ⟨1, rfl⟩ }
  result hp s _ _ hrun hmakes := by
    rw [Check.newFunction_eq] at hrun
    cases hrun
    have hlt : s.symbols.bodies.size < (s.withFunctions 1).symbols.bodies.size := by
      simp [Checker.withFunctions]
    exact Ty.over_function.mpr ⟨hmakes _ (Nat.le_refl _) hlt, h hp⟩

end Check.Peruses

/-- The logic of steps that only read. -/
def perusalLogic (F : Nat → Prop) : ReadingLogic where
  triple := Check.Peruses F
  ret := .ret
  seq := .seq
  conseq := .conseq
  guard := .deep F
  names _ := True
  fault := .fault
  symbols := .conseq .symbols id fun table _ _ => (TypeGuard.Open.deep F).offers table
  log _ := .change fun s => { Checker.Reads.refl s with }
  report _ he := .change fun s => .reported s he
  resolve _ _ _ := .change fun s =>
    { Checker.Reads.refl s with resolutions := List.prefix_append _ _ }
  newFunction := .newFunction

/-! ### Trees without classes -/

/-- Whether the tree contains neither a class specification nor a class that is named with its
key. -/
def Node.isClassFree (n : Node) : Bool :=
  n.subtrees.all fun m => m.rule != .classSpec && m.rule != .elaborated

/-- A tree without classes is only read, and so is all that it is made of. -/
theorem Node.perused {n : Node} (h : n.isClassFree = true) :
    n.phrase.Throughout (Phrase.Obeys (perusalLogic F)) := by
  unfold isClassFree at h
  rw [List.all_eq_true] at h
  refine throughout_phrase fun m hm hparts => ?_
  have hfree := h m hm
  rw [Bool.and_eq_true, bne_iff_ne, bne_iff_ne] at hfree
  refine obeys hparts (fun _ _ _ _ _ _ _ _ _ _ _ _ _ _ => trivial) (fun hrule => ?_) fun hrule => ?_
  · exact absurd hrule hfree.1
  · exact absurd hrule hfree.2

end CWithClasses
