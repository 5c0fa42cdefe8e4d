import CWithClasses.Type.Compatible

/-!
# What a type accepts

A type accepts everything about which nothing is known, and every type that is the same. Beyond
that, each shape of a type has one lemma that says which types it accepts, provided that something
is known about them.
-/

namespace CWithClasses

/-- What is neither a pointer nor a function is compared by rank, or as an array. -/
theorem compatible_plain {s : Ty} (t : Ty) (hs : s.isPointer = false ∧ s.function? = none) :
    compatible s t = (agree s t ||
      match widens? s t with
      | some wide => wide
      | none => sameArray s t) := by
  cases s with
  | pointer _ => cases hs.1
  | function => cases hs.2
  | _ => rfl

/-- Behind pointers, what is neither a pointer nor a function has to be the same. -/
theorem compatibleTargets_plain {s : Ty} (t : Ty) (hs : s.isPointer = false ∧ s.function? = none) :
    compatibleTargets s t = sameType s t := by
  cases s with
  | pointer _ => cases hs.1
  | function => cases hs.2
  | _ => rfl

/-! ### Types that are the same -/

section Same

variable {a b : Ty}

/-- Types that agree are compatible. -/
theorem compatible_of_agree (h : agree a b = true) : compatible a b = true := by
  cases a <;> simp only [compatible, h, Bool.true_or]

/-- A type about which nothing is known is accepted everywhere. -/
theorem compatible_of_isUnknown (hb : b.isUnknown = true) : compatible a b = true :=
  compatible_of_agree (by rw [agree, hb, Bool.or_true, Bool.true_or])

/-- Types that are the same are compatible. -/
theorem compatible_of_sameType (h : sameType a b = true) : compatible a b = true :=
  compatible_of_agree (by rw [agree, h, Bool.or_true])

/-- Parameters that are the same are compatible. -/
theorem compatibleParams_of_sameTypes : ∀ {ps qs : List Ty}, sameTypes ps qs = true →
    compatibleParams ps qs = true
  | [], [], _ => by simp [compatibleParams]
  | [], _ :: _, h => by simp [sameTypes] at h
  | _ :: _, [], h => by simp [sameTypes] at h
  | p :: ps, q :: qs, h => by
      rw [sameTypes, Bool.and_eq_true] at h
      rw [compatibleParams, compatible_of_sameType h.1, compatibleParams_of_sameTypes h.2]
      rfl

/-- Pointers to the same type may stand for one another. -/
theorem compatibleTargets_of_sameType : ∀ {a b : Ty}, sameType a b = true →
    compatibleTargets a b = true
  | .pointer target, b, h => by
      cases b with
      | pointer target' =>
        rw [compatibleTargets]
        exact compatibleTargets_of_sameType (a := target) h
      | _ => cases h
  | .function id result params required, b, h => by
      cases b with
      | function =>
        rw [sameType, Bool.and_eq_true] at h
        rw [compatibleTargets, compatible_of_sameType h.1, compatibleParams_of_sameTypes h.2]
        rfl
      | _ => cases h
  | .int, b, h | .double, b, h | .char, b, h | .bool, b, h | .void, b, h | .unknown, b, h
  | .object _, b, h | .array _ _, b, h => by
      rw [compatibleTargets_plain b ⟨rfl, rfl⟩]
      exact h

end Same

/-! ### What each shape accepts -/

section Shapes

variable {a b : Ty}

/-- Known types agree only if they are the same. -/
theorem agree_eq_sameType (ha : a.isUnknown = false) (hb : b.isUnknown = false) :
    agree a b = sameType a b := by
  rw [agree, ha, hb, Bool.false_or, Bool.false_or]

/-- A pointer to a target may stand for one to what is expected: either may lead to anything, or
what they lead to is compatible. -/
def Ty.StandsFor (target expected : Ty) : Prop :=
  expected.isVoid = true ∨ target.isVoid = true ∨ compatibleTargets expected target = true

/-- A pointer accepts what decays to a pointer that may stand for it. -/
theorem compatible_pointer_of_decay {expected target : Ty} (hdecay : b.decay = .pointer target)
    (h : target.StandsFor expected) : compatible (.pointer expected) b = true := by
  have hstands :
      (expected.isVoid || target.isVoid || compatibleTargets expected target) = true := by
    rw [Bool.or_eq_true, Bool.or_eq_true, or_assoc]
    exact h
  rw [compatible, hdecay]
  dsimp only
  rw [hstands, Bool.or_true]

/-- A pointer accepts only what decays to a pointer that may stand for it. -/
theorem compatible_pointer_iff {expected : Ty} (ha : (Ty.pointer expected).isUnknown = false)
    (hb : b.isUnknown = false) :
    compatible (.pointer expected) b = true ↔
      ∃ target, b.decay = .pointer target ∧ target.StandsFor expected := by
  constructor
  · intro h
    rw [compatible, agree_eq_sameType ha hb] at h
    rcases Bool.or_eq_true_iff.mp h with hsame | htargets
    · cases b with
      | pointer target => exact ⟨target, rfl, .inr (.inr (compatibleTargets_of_sameType hsame))⟩
      | _ => cases hsame
    · cases hdecay : b.decay with
      | pointer target =>
        rw [hdecay] at htargets
        dsimp only at htargets
        rw [Bool.or_eq_true, Bool.or_eq_true, or_assoc] at htargets
        exact ⟨target, rfl, htargets⟩
      | _ => simp [hdecay] at htargets
  · rintro ⟨target, hdecay, hstands⟩
    exact compatible_pointer_of_decay hdecay hstands

/-- A function accepts functions with compatible results and parameters. -/
theorem compatible_function_iff {i m : Nat} {r : Ty} {ps : List Ty} (hb : b.isUnknown = false) :
    compatible (.function i r ps m) b = true ↔
      ∃ j s qs n, b = .function j s qs n ∧ compatible r s = true ∧
        compatibleParams ps qs = true := by
  have hagree := agree_eq_sameType (a := .function i r ps m) rfl hb
  cases b with
  | function j s qs n =>
    rw [compatible, hagree, sameType, Bool.or_eq_true, Bool.and_eq_true, Bool.and_eq_true]
    constructor
    · rintro (⟨hresult, hparams⟩ | ⟨hresult, hparams⟩)
      · exact ⟨j, s, qs, n, rfl, compatible_of_sameType hresult,
          compatibleParams_of_sameTypes hparams⟩
      · exact ⟨j, s, qs, n, rfl, hresult, hparams⟩
    · rintro ⟨_, _, _, _, heq, hresult, hparams⟩
      cases heq
      exact .inr ⟨hresult, hparams⟩
  | _ => simp [compatible, hagree, sameType]

/-- An array accepts arrays of the same elements, unless both state a size and the sizes differ. -/
theorem compatible_array_iff {element : Ty} {size : Nat} (hb : b.isUnknown = false) :
    compatible (.array element size) b = true ↔
      ∃ element' size', b = .array element' size' ∧ (size = size' ∨ size = 0 ∨ size' = 0) ∧
        sameType element element' = true := by
  have hrank : widens? (.array element size) b = none := rfl
  rw [compatible_plain b ⟨rfl, rfl⟩, agree_eq_sameType rfl hb, hrank]
  cases b with
  | array element' size' =>
    simp only [sameType, sameArray, Bool.or_eq_true, Bool.and_eq_true, beq_iff_eq, or_assoc]
    constructor
    · rintro (⟨hsize, helement⟩ | ⟨hsize, helement⟩)
      · exact ⟨element', size', rfl, .inl hsize, helement⟩
      · exact ⟨element', size', rfl, hsize, helement⟩
    · rintro ⟨_, _, heq, hsize, helement⟩
      cases heq
      exact .inr ⟨hsize, helement⟩
  | _ => simp [sameType, sameArray]

/-- An arithmetic type accepts the arithmetic types that are not wider. -/
theorem compatible_arithmetic_iff {wide : Nat} (ha : a.rank? = some wide)
    (hb : b.isUnknown = false) :
    compatible a b = true ↔ ∃ narrow, b.rank? = some narrow ∧ narrow ≤ wide := by
  have hknown : a.isUnknown = false := by
    cases a <;> first | rfl | cases ha
  have hplain : a.isPointer = false ∧ a.function? = none := by
    cases a <;> first | exact ⟨rfl, rfl⟩ | cases ha
  rw [compatible_plain b hplain, agree_eq_sameType hknown hb]
  cases a <;> cases ha <;> cases b <;> simp [sameType, widens?, Ty.rank?, sameArray]

/-- A class accepts itself only, and nothing is accepted in place of nothing. -/
theorem compatible_same_iff (ha : a = .void ∨ ∃ c, a = .object c) (hb : b.isUnknown = false) :
    compatible a b = true ↔ sameType a b = true := by
  obtain rfl | ⟨c, rfl⟩ := ha
  · rw [compatible_plain b ⟨rfl, rfl⟩, agree_eq_sameType rfl hb]
    cases b <;> simp [widens?, Ty.rank?, sameArray]
  · rw [compatible_plain b ⟨rfl, rfl⟩, agree_eq_sameType rfl hb]
    cases b <;> simp [widens?, Ty.rank?, sameArray]

end Shapes

end CWithClasses
