import CWithClasses.Proofs.Acceptance
import CWithClasses.Proofs.Sameness

/-!
# Compatibility is an order

A type is definite if nothing about it is left open: no part of it is unknown, all its arrays have a
stated size, and `void` stands only where a function returns nothing. Among definite types and
`void` itself, compatibility is a partial order: every type accepts itself, a type accepts what is
accepted by a type that it accepts, and types that accept one another are the same.

What a shape of an expected type accepts is simpler to say for definite types. The order laws follow
by induction on the expected type, at once for types, for what pointers lead to, and for parameters.
-/

namespace CWithClasses

mutual

/-- Whether nothing about a type is left open. -/
def Ty.isDefinite : Ty → Bool
  | .int | .double | .char | .bool | .object _ => true
  | .void | .unknown => false
  | .array element size => size != 0 && element.isDefinite
  | .function _ result params _ =>
      (result.isVoid || result.isDefinite) && Ty.allDefinite params
  | .pointer target => target.isDefinite

/-- Whether nothing is left open about a row of types. -/
def Ty.allDefinite : List Ty → Bool
  | [] => true
  | t :: rest => t.isDefinite && Ty.allDefinite rest

end

/-- Whether a type is definite, or nothing at all. -/
def Ty.isOrdered (t : Ty) : Bool := t.isVoid || t.isDefinite

namespace Ty

variable {t : Ty}

/-- A definite type is ordered. -/
theorem isOrdered_of_isDefinite (h : t.isDefinite = true) : t.isOrdered = true := by
  rw [isOrdered, h, Bool.or_true]

/-- Something is known about an ordered type. -/
theorem isUnknown_eq_false : ∀ {t : Ty}, t.isOrdered = true → t.isUnknown = false
  | .pointer target, h => isUnknown_eq_false (t := target) (isOrdered_of_isDefinite h)
  | .unknown, h => by cases h
  | .int, _ | .double, _ | .char, _ | .bool, _ | .void, _ | .object _, _ | .array _ _, _
  | .function _ _ _ _, _ => rfl

/-- A definite type is something. -/
theorem isVoid_eq_false (h : t.isDefinite = true) : t.isVoid = false := by
  cases t with
  | void => cases h
  | _ => rfl

/-- What an ordered type points to is definite. -/
theorem isDefinite_of_decay {target : Ty} (h : t.isOrdered = true)
    (hdecay : t.decay = .pointer target) : target.isDefinite = true := by
  cases t with
  | array element size =>
    cases hdecay
    exact (Bool.and_eq_true _ _ ▸ h).2
  | function id result params required =>
    cases hdecay
    exact h
  | pointer target =>
    cases hdecay
    exact h
  | _ => cases hdecay

end Ty

/-! ### What definite types accept -/

section Shapes

variable {a b : Ty}

/-- A pointer accepts what decays to a pointer to a compatible type. -/
theorem compatible_definitePointer_iff {expected : Ty}
    (ha : (Ty.pointer expected).isOrdered = true) (hb : b.isOrdered = true) :
    compatible (.pointer expected) b = true ↔
      ∃ target, b.decay = .pointer target ∧ compatibleTargets expected target = true := by
  have hexpected : expected.isVoid = false := Ty.isVoid_eq_false (t := expected) ha
  rw [compatible_pointer_iff (Ty.isUnknown_eq_false ha) (Ty.isUnknown_eq_false hb)]
  constructor
  · rintro ⟨target, hdecay, hstands⟩
    have htarget := Ty.isVoid_eq_false (Ty.isDefinite_of_decay hb hdecay)
    simp only [Ty.StandsFor, hexpected, htarget, Bool.false_eq_true, false_or] at hstands
    exact ⟨target, hdecay, hstands⟩
  · rintro ⟨target, hdecay, htargets⟩
    exact ⟨target, hdecay, .inr (.inr htargets)⟩

/-- An array accepts arrays of its size with the same elements. -/
theorem compatible_definiteArray_iff {element : Ty} {size : Nat}
    (ha : (Ty.array element size).isOrdered = true) (hb : b.isOrdered = true) :
    compatible (.array element size) b = true ↔
      ∃ element', b = .array element' size ∧ sameType element element' = true := by
  have hstated : ∀ {t : Ty} {n : Nat}, (Ty.array t n).isOrdered = true → n ≠ 0 := by
    intro t n h
    change (n != 0 && t.isDefinite) = true at h
    exact bne_iff_ne.mp (Bool.and_eq_true_iff.mp h).1
  rw [compatible_array_iff (Ty.isUnknown_eq_false hb)]
  constructor
  · rintro ⟨element', size', rfl, hsize, helement⟩
    have hsame : size = size' := by
      rcases hsize with hsame | hopen | hopen
      · exact hsame
      · exact absurd hopen (hstated ha)
      · exact absurd hopen (hstated hb)
    subst hsame
    exact ⟨element', rfl, helement⟩
  · rintro ⟨element', rfl, helement⟩
    exact ⟨element', size, rfl, .inl rfl, helement⟩

/-- What decays to a pointer accepts only what decays to a pointer that may stand for it. -/
theorem exists_decay_of_compatible {target : Ty} (ha : a.isOrdered = true) (hb : b.isOrdered = true)
    (hdecay : a.decay = .pointer target) (h : compatible a b = true) :
    ∃ target', b.decay = .pointer target' ∧ compatibleTargets target target' = true := by
  cases a with
  | array element size =>
    cases hdecay
    obtain ⟨element', rfl, helement⟩ := (compatible_definiteArray_iff ha hb).mp h
    exact ⟨element', rfl, compatibleTargets_of_sameType helement⟩
  | function i r ps m =>
    cases hdecay
    obtain ⟨j, s, qs, n, rfl, hresult, hparams⟩ :=
      (compatible_function_iff (Ty.isUnknown_eq_false hb)).mp h
    refine ⟨_, rfl, ?_⟩
    rw [compatibleTargets, hresult, hparams]
    rfl
  | pointer expected =>
    cases hdecay
    exact (compatible_definitePointer_iff ha hb).mp h
  | _ => cases hdecay

/-- The parts of an ordered function. -/
theorem Ty.isOrdered_function {i m : Nat} {r : Ty} {ps : List Ty}
    (h : (Ty.function i r ps m).isOrdered = true) :
    r.isOrdered = true ∧ Ty.allDefinite ps = true := by
  change (r.isOrdered && Ty.allDefinite ps) = true at h
  exact Bool.and_eq_true_iff.mp h

end Shapes

/-! ### The laws of an order -/

mutual

/-- A type accepts what is accepted by a type that it accepts. -/
theorem compatible_trans : ∀ {a b c : Ty}, a.isOrdered = true → b.isOrdered = true →
    c.isOrdered = true → compatible a b = true → compatible b c = true → compatible a c = true
  | .pointer expected, b, c, ha, hb, hc, hab, hbc => by
      obtain ⟨target, hdecay, htarget⟩ := (compatible_definitePointer_iff ha hb).mp hab
      obtain ⟨target', hdecay', htarget'⟩ := exists_decay_of_compatible hb hc hdecay hbc
      have hdefinite := Ty.isDefinite_of_decay hb hdecay
      have hdefinite' := Ty.isDefinite_of_decay hc hdecay'
      refine (compatible_definitePointer_iff ha hc).mpr ⟨target', hdecay', ?_⟩
      exact compatibleTargets_trans (a := expected) ha hdefinite hdefinite' htarget htarget'
  | .function i r ps m, b, c, ha, hb, hc, hab, hbc => by
      obtain ⟨j, s, qs, n, rfl, hrs, hpq⟩ :=
        (compatible_function_iff (Ty.isUnknown_eq_false hb)).mp hab
      obtain ⟨k, t, us, l, rfl, hst, hqu⟩ :=
        (compatible_function_iff (Ty.isUnknown_eq_false hc)).mp hbc
      obtain ⟨hr, hps⟩ := Ty.isOrdered_function ha
      obtain ⟨hs, hqs⟩ := Ty.isOrdered_function hb
      obtain ⟨ht, hus⟩ := Ty.isOrdered_function hc
      refine (compatible_function_iff (Ty.isUnknown_eq_false hc)).mpr ⟨k, t, us, l, rfl, ?_, ?_⟩
      · exact compatible_trans hr hs ht hrs hst
      · exact compatibleParams_trans hps hqs hus hpq hqu
  | .array element size, b, c, ha, hb, hc, hab, hbc => by
      obtain ⟨element', rfl, hsame⟩ := (compatible_definiteArray_iff ha hb).mp hab
      obtain ⟨element'', rfl, hsame'⟩ := (compatible_definiteArray_iff hb hc).mp hbc
      exact (compatible_definiteArray_iff ha hc).mpr ⟨element'', rfl, sameType_trans hsame hsame'⟩
  | .int, b, c, _, hb, hc, hab, hbc | .double, b, c, _, hb, hc, hab, hbc
  | .char, b, c, _, hb, hc, hab, hbc | .bool, b, c, _, hb, hc, hab, hbc => by
      obtain ⟨middle, hmiddle, hle⟩ :=
        (compatible_arithmetic_iff rfl (Ty.isUnknown_eq_false hb)).mp hab
      obtain ⟨narrow, hnarrow, hle'⟩ :=
        (compatible_arithmetic_iff hmiddle (Ty.isUnknown_eq_false hc)).mp hbc
      refine (compatible_arithmetic_iff rfl (Ty.isUnknown_eq_false hc)).mpr ⟨narrow, hnarrow, ?_⟩
      exact Nat.le_trans hle' hle
  | .void, b, c, _, hb, hc, hab, hbc => by
      have hsame := (compatible_same_iff (.inl rfl) (Ty.isUnknown_eq_false hb)).mp hab
      cases b with
      | void => exact hbc
      | _ => cases hsame
  | .object d, b, c, _, hb, hc, hab, hbc => by
      have hsame := (compatible_same_iff (.inr ⟨d, rfl⟩) (Ty.isUnknown_eq_false hb)).mp hab
      cases b with
      | object d' =>
        have hsame' := (compatible_same_iff (.inr ⟨d', rfl⟩) (Ty.isUnknown_eq_false hc)).mp hbc
        exact compatible_of_sameType (sameType_trans hsame hsame')
      | _ => cases hsame

/-- What pointers lead to stands for what it leads on to. -/
theorem compatibleTargets_trans : ∀ {a b c : Ty}, a.isDefinite = true → b.isDefinite = true →
    c.isDefinite = true → compatibleTargets a b = true → compatibleTargets b c = true →
    compatibleTargets a c = true
  | .pointer expected, b, c, ha, hb, hc, hab, hbc => by
      cases b with
      | pointer target =>
        cases c with
        | pointer target' =>
          rw [compatibleTargets] at hab hbc ⊢
          exact compatibleTargets_trans (a := expected) (b := target) (c := target') ha
            hb hc hab hbc
        | _ => cases hbc
      | _ => cases hab
  | .function i r ps m, b, c, ha, hb, hc, hab, hbc => by
      cases b with
      | function j s qs n =>
        cases c with
        | function k t us l =>
          rw [compatibleTargets, Bool.and_eq_true] at hab hbc ⊢
          obtain ⟨hr, hps⟩ := Ty.isOrdered_function (Ty.isOrdered_of_isDefinite ha)
          obtain ⟨hs, hqs⟩ := Ty.isOrdered_function (Ty.isOrdered_of_isDefinite hb)
          obtain ⟨ht, hus⟩ := Ty.isOrdered_function (Ty.isOrdered_of_isDefinite hc)
          exact ⟨compatible_trans hr hs ht hab.1 hbc.1,
            compatibleParams_trans hps hqs hus hab.2 hbc.2⟩
        | _ => cases hbc
      | _ => cases hab
  | .int, b, c, _, _, _, hab, hbc | .double, b, c, _, _, _, hab, hbc
  | .char, b, c, _, _, _, hab, hbc | .bool, b, c, _, _, _, hab, hbc
  | .object _, b, c, _, _, _, hab, hbc | .array _ _, b, c, _, _, _, hab, hbc => by
      rw [compatibleTargets_plain _ ⟨rfl, rfl⟩] at hab ⊢
      have hbc' : sameType b c = true := by
        cases b with
        | pointer => cases hab
        | function => cases hab
        | _ =>
          rw [compatibleTargets_plain _ ⟨rfl, rfl⟩] at hbc
          exact hbc
      exact sameType_trans hab hbc'

/-- Parameters accept what is accepted by parameters that they accept. -/
theorem compatibleParams_trans : ∀ {as bs cs : List Ty}, Ty.allDefinite as = true →
    Ty.allDefinite bs = true → Ty.allDefinite cs = true → compatibleParams as bs = true →
    compatibleParams bs cs = true → compatibleParams as cs = true
  | [], [], [], _, _, _, _, _ => rfl
  | a :: as, b :: bs, c :: cs, ha, hb, hc, hab, hbc => by
      rw [Ty.allDefinite, Bool.and_eq_true] at ha hb hc
      rw [compatibleParams, Bool.and_eq_true] at hab hbc ⊢
      refine ⟨?_, compatibleParams_trans ha.2 hb.2 hc.2 hab.2 hbc.2⟩
      exact compatible_trans (Ty.isOrdered_of_isDefinite ha.1) (Ty.isOrdered_of_isDefinite hb.1)
        (Ty.isOrdered_of_isDefinite hc.1) hab.1 hbc.1

end

mutual

/-- Types that accept one another are the same. -/
theorem sameType_of_compatible : ∀ {a b : Ty}, a.isOrdered = true → b.isOrdered = true →
    compatible a b = true → compatible b a = true → sameType a b = true
  | .pointer expected, b, ha, hb, hab, hba => by
      obtain ⟨target, hdecay, htarget⟩ := (compatible_definitePointer_iff ha hb).mp hab
      cases b with
      | pointer target' =>
        cases hdecay
        obtain ⟨expected', hdecay', hexpected⟩ := (compatible_definitePointer_iff hb ha).mp hba
        cases hdecay'
        exact sameType_of_compatibleTargets (a := expected) (b := target) ha hb htarget hexpected
      | array => simp [compatible_definiteArray_iff hb ha] at hba
      | function => simp [compatible_function_iff (Ty.isUnknown_eq_false ha)] at hba
      | _ => cases hdecay
  | .function i r ps m, b, ha, hb, hab, hba => by
      obtain ⟨j, s, qs, n, rfl, hrs, hpq⟩ :=
        (compatible_function_iff (Ty.isUnknown_eq_false hb)).mp hab
      obtain ⟨_, _, _, _, heq, hsr, hqp⟩ :=
        (compatible_function_iff (Ty.isUnknown_eq_false ha)).mp hba
      cases heq
      obtain ⟨hr, hps⟩ := Ty.isOrdered_function ha
      obtain ⟨hs, hqs⟩ := Ty.isOrdered_function hb
      rw [sameType, Bool.and_eq_true]
      exact ⟨sameType_of_compatible hr hs hrs hsr, sameTypes_of_compatibleParams hps hqs hpq hqp⟩
  | .array element size, b, ha, hb, hab, _ => by
      obtain ⟨element', rfl, hsame⟩ := (compatible_definiteArray_iff ha hb).mp hab
      rw [sameType, beq_self_eq_true, hsame]
      rfl
  | .int, b, ha, hb, hab, hba | .double, b, ha, hb, hab, hba | .char, b, ha, hb, hab, hba
  | .bool, b, ha, hb, hab, hba => by
      obtain ⟨narrow, hnarrow, hle⟩ :=
        (compatible_arithmetic_iff rfl (Ty.isUnknown_eq_false hb)).mp hab
      obtain ⟨wide, hwide, hle'⟩ :=
        (compatible_arithmetic_iff hnarrow (Ty.isUnknown_eq_false ha)).mp hba
      cases hwide
      have hrank : narrow = _ := Nat.le_antisymm hle hle'
      rw [hrank] at hnarrow
      cases b <;> first | rfl | cases hnarrow
  | .void, b, _, hb, hab, _ => (compatible_same_iff (.inl rfl) (Ty.isUnknown_eq_false hb)).mp hab
  | .object c, b, _, hb, hab, _ =>
      (compatible_same_iff (.inr ⟨c, rfl⟩) (Ty.isUnknown_eq_false hb)).mp hab

/-- What pointers lead to is the same if each may stand for the other. -/
theorem sameType_of_compatibleTargets : ∀ {a b : Ty}, a.isDefinite = true → b.isDefinite = true →
    compatibleTargets a b = true → compatibleTargets b a = true → sameType a b = true
  | .pointer expected, b, ha, hb, hab, hba => by
      cases b with
      | pointer target =>
        rw [compatibleTargets] at hab hba
        exact sameType_of_compatibleTargets (a := expected) (b := target) ha hb hab hba
      | _ => cases hab
  | .function i r ps m, b, ha, hb, hab, hba => by
      cases b with
      | function j s qs n =>
        rw [compatibleTargets, Bool.and_eq_true] at hab hba
        obtain ⟨hr, hps⟩ := Ty.isOrdered_function (Ty.isOrdered_of_isDefinite ha)
        obtain ⟨hs, hqs⟩ := Ty.isOrdered_function (Ty.isOrdered_of_isDefinite hb)
        rw [sameType, Bool.and_eq_true]
        exact ⟨sameType_of_compatible hr hs hab.1 hba.1,
          sameTypes_of_compatibleParams hps hqs hab.2 hba.2⟩
      | _ => cases hab
  | .int, b, _, _, hab, _ | .double, b, _, _, hab, _ | .char, b, _, _, hab, _
  | .bool, b, _, _, hab, _ | .object _, b, _, _, hab, _ | .array _ _, b, _, _, hab, _ => by
      rw [compatibleTargets_plain _ ⟨rfl, rfl⟩] at hab
      exact hab

/-- Parameters that accept one another are the same. -/
theorem sameTypes_of_compatibleParams : ∀ {as bs : List Ty}, Ty.allDefinite as = true →
    Ty.allDefinite bs = true → compatibleParams as bs = true → compatibleParams bs as = true →
    sameTypes as bs = true
  | [], [], _, _, _, _ => rfl
  | a :: as, b :: bs, ha, hb, hab, hba => by
      rw [Ty.allDefinite, Bool.and_eq_true] at ha hb
      rw [compatibleParams, Bool.and_eq_true] at hab hba
      rw [sameTypes, Bool.and_eq_true]
      refine ⟨?_, sameTypes_of_compatibleParams ha.2 hb.2 hab.2 hba.2⟩
      exact sameType_of_compatible (Ty.isOrdered_of_isDefinite ha.1)
        (Ty.isOrdered_of_isDefinite hb.1) hab.1 hba.1

end

/-- On the types about which nothing is left open, compatibility is a partial order whose equality
is sameness. -/
theorem compatible_isPartialOrder :
    (∀ a : Ty, a.isOrdered = true → compatible a a = true) ∧
      (∀ a b c : Ty, a.isOrdered = true → b.isOrdered = true → c.isOrdered = true →
        compatible a b = true → compatible b c = true → compatible a c = true) ∧
      ∀ a b : Ty, a.isOrdered = true → b.isOrdered = true →
        (compatible a b = true ∧ compatible b a = true ↔ sameType a b = true) := by
  refine ⟨fun a _ => compatible_of_sameType (sameType_refl a), fun a b c => compatible_trans, ?_⟩
  intro a b ha hb
  refine ⟨fun h => sameType_of_compatible ha hb h.1 h.2, fun h => ⟨compatible_of_sameType h, ?_⟩⟩
  exact compatible_of_sameType (sameType_comm a b ▸ h)

/-- A pointer to a function of wider types accepts a function of narrower ones, through a function
in between. That function and its twin, another function of the same types, accept one another. -/
theorem compatible_functionPointer :
    let wide : Ty := .pointer (.function 0 .double [.int, .pointer (.array .char 8)] 2)
    let middle : Ty := .function 1 .int [.char, .pointer (.array .char 8)] 2
    let narrow : Ty := .function 2 .bool [.bool, .array (.array .char 8) 3] 1
    let twin : Ty := .function 3 .int [.char, .pointer (.array .char 8)] 0
    compatible wide wide = true ∧
      (compatible wide middle = true ∧ compatible middle narrow = true ∧
        compatible wide narrow = true ∧ compatible narrow wide = false) ∧
      (compatible middle twin = true ∧ compatible twin middle = true) ∧
        sameType middle twin = true := by
  intro wide middle narrow twin
  obtain ⟨hrefl, htrans, hantisymm⟩ := compatible_isPartialOrder
  have hwide : wide.isOrdered = true := by decide
  have hmiddle : middle.isOrdered = true := by decide
  have hnarrow : narrow.isOrdered = true := by decide
  have htwin : twin.isOrdered = true := by decide
  have hab : compatible wide middle = true := by decide
  have hbc : compatible middle narrow = true := by decide
  have hboth : compatible middle twin = true ∧ compatible twin middle = true := by decide
  exact ⟨hrefl wide hwide,
    ⟨hab, hbc, htrans wide middle narrow hwide hmiddle hnarrow hab hbc, by decide⟩,
    hboth, (hantisymm middle twin hmiddle htwin).mp hboth⟩

end CWithClasses
