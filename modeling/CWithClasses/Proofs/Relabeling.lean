import CWithClasses.Proofs.Acceptance

/-!
# Labels in types

A type carries labels: the classes in it, the identities of its functions, and how many of their
parameters have no default argument. Of all these, a comparison of types sees only which classes are
the same. So if every label is replaced, and different classes stay different, types compare as
before. This is proved here once for all ways of replacing labels.
-/

namespace CWithClasses

/-- New labels for types. -/
structure Relabeling where
  cls : ClassRef → ClassRef
  fn : Nat → Nat
  required : Nat → Nat
  /-- Different classes stay different. -/
  id_cls : ∀ c d, (cls c).id = (cls d).id ↔ c.id = d.id

mutual

/-- The type with new labels. -/
def Ty.relabel (ρ : Relabeling) : Ty → Ty
  | .int => .int
  | .double => .double
  | .char => .char
  | .bool => .bool
  | .void => .void
  | .unknown => .unknown
  | .object c => .object (ρ.cls c)
  | .array element size => .array (element.relabel ρ) size
  | .function id result params required =>
      .function (ρ.fn id) (result.relabel ρ) (Ty.relabelAll ρ params) (ρ.required required)
  | .pointer target => .pointer (target.relabel ρ)

/-- Types with new labels. -/
def Ty.relabelAll (ρ : Relabeling) : List Ty → List Ty
  | [] => []
  | t :: rest => t.relabel ρ :: Ty.relabelAll ρ rest

end

variable (ρ : Relabeling)

/-! ### What a type is -/

namespace Ty

@[simp] theorem isUnknown_relabel : ∀ t : Ty, (t.relabel ρ).isUnknown = t.isUnknown
  | .pointer target => isUnknown_relabel target
  | .int | .double | .char | .bool | .void | .unknown | .object _ | .array _ _
  | .function _ _ _ _ => rfl

@[simp] theorem isVoid_relabel (t : Ty) : (t.relabel ρ).isVoid = t.isVoid := by
  cases t <;> rfl

@[simp] theorem rank?_relabel (t : Ty) : (t.relabel ρ).rank? = t.rank? := by
  cases t <;> rfl

@[simp] theorem decay_relabel (t : Ty) : (t.relabel ρ).decay = t.decay.relabel ρ := by
  cases t <;> rfl

@[simp] theorem pointee?_relabel (t : Ty) :
    (t.relabel ρ).pointee? = t.pointee?.map (relabel ρ) := by
  cases t <;> rfl

end Ty

/-! ### Types compared with one another -/

mutual

@[simp] theorem sameType_relabel : ∀ s t : Ty,
    sameType (s.relabel ρ) (t.relabel ρ) = sameType s t
  | .int, t | .double, t | .char, t | .bool, t | .void, t | .unknown, t => by cases t <;> rfl
  | .object c, t => by
      cases t with
      | object d =>
        rw [Ty.relabel, Ty.relabel, sameType, sameType, Bool.eq_iff_iff, beq_iff_eq, beq_iff_eq,
          ρ.id_cls]
      | _ => rfl
  | .array s m, t => by
      cases t with
      | array t n => rw [Ty.relabel, Ty.relabel, sameType, sameType, sameType_relabel s t]
      | _ => rfl
  | .function i r ps m, t => by
      cases t with
      | function j s qs n =>
        rw [Ty.relabel, Ty.relabel, sameType, sameType, sameType_relabel r s,
          sameTypes_relabel ps qs]
      | _ => rfl
  | .pointer s, t => by
      cases t with
      | pointer t => rw [Ty.relabel, Ty.relabel, sameType, sameType, sameType_relabel s t]
      | _ => rfl

theorem sameTypes_relabel : ∀ ss ts : List Ty,
    sameTypes (Ty.relabelAll ρ ss) (Ty.relabelAll ρ ts) = sameTypes ss ts
  | [], [] => rfl
  | [], _ :: _ => rfl
  | _ :: _, [] => rfl
  | s :: ss, t :: ts => by
      rw [Ty.relabelAll, Ty.relabelAll, sameTypes, sameTypes, sameType_relabel s t,
        sameTypes_relabel ss ts]

end

@[simp] theorem sameArray_relabel (s t : Ty) :
    sameArray (s.relabel ρ) (t.relabel ρ) = sameArray s t := by
  cases s with
  | array s m =>
    cases t with
    | array t n => rw [Ty.relabel, Ty.relabel, sameArray, sameArray, sameType_relabel]
    | _ => rfl
  | _ => rfl

@[simp] theorem widens?_relabel (s t : Ty) : widens? (s.relabel ρ) (t.relabel ρ) = widens? s t := by
  simp [widens?]

@[simp] theorem agree_relabel (s t : Ty) : agree (s.relabel ρ) (t.relabel ρ) = agree s t := by
  simp [agree]

mutual

@[simp] theorem compatible_relabel : ∀ s t : Ty,
    compatible (s.relabel ρ) (t.relabel ρ) = compatible s t
  | .pointer expected, actual => by
      have hagree := agree_relabel ρ (.pointer expected) actual
      rw [Ty.relabel] at hagree ⊢
      rw [compatible, compatible, hagree, Ty.decay_relabel]
      cases actual.decay with
      | pointer target => simp [Ty.relabel, compatibleTargets_relabel expected target]
      | _ => rfl
  | .function i r ps m, actual => by
      have hagree := agree_relabel ρ (.function i r ps m) actual
      rw [Ty.relabel] at hagree ⊢
      cases actual with
      | function j s qs n =>
        rw [Ty.relabel] at hagree ⊢
        rw [compatible, compatible, hagree, compatible_relabel r s, compatibleParams_relabel ps qs]
      | _ => exact congrArg (· || false) hagree
  | .int, t | .double, t | .char, t | .bool, t | .void, t | .unknown, t | .object _, t
  | .array _ _, t => by
      rw [compatible_plain _ ⟨rfl, rfl⟩, compatible_plain _ ⟨rfl, rfl⟩, agree_relabel,
        widens?_relabel, sameArray_relabel]

theorem compatibleTargets_relabel : ∀ s t : Ty,
    compatibleTargets (s.relabel ρ) (t.relabel ρ) = compatibleTargets s t
  | .pointer expected, actual => by
      cases actual with
      | pointer target =>
        rw [Ty.relabel, Ty.relabel, compatibleTargets, compatibleTargets,
          compatibleTargets_relabel expected target]
      | _ => rfl
  | .function i r ps m, actual => by
      cases actual with
      | function j s qs n =>
        rw [Ty.relabel, Ty.relabel, compatibleTargets, compatibleTargets, compatible_relabel r s,
          compatibleParams_relabel ps qs]
      | _ => rfl
  | .int, t | .double, t | .char, t | .bool, t | .void, t | .unknown, t | .object _, t
  | .array _ _, t => by
      rw [compatibleTargets_plain _ ⟨rfl, rfl⟩, compatibleTargets_plain _ ⟨rfl, rfl⟩,
        sameType_relabel]

theorem compatibleParams_relabel : ∀ ss ts : List Ty,
    compatibleParams (Ty.relabelAll ρ ss) (Ty.relabelAll ρ ts) = compatibleParams ss ts
  | [], [] => rfl
  | [], _ :: _ => rfl
  | _ :: _, [] => rfl
  | s :: ss, t :: ts => by
      rw [Ty.relabelAll, Ty.relabelAll, compatibleParams, compatibleParams, compatible_relabel s t,
        compatibleParams_relabel ss ts]

end

@[simp] theorem commonArithmetic?_relabel (s t : Ty) :
    commonArithmetic? (s.relabel ρ) (t.relabel ρ) = (commonArithmetic? s t).map (Ty.relabel ρ) := by
  unfold commonArithmetic?
  rw [Ty.isUnknown_relabel, Ty.isUnknown_relabel, Ty.rank?_relabel, Ty.rank?_relabel]
  split
  · rfl
  · cases s.rank? with
    | none => rfl
    | some m =>
      cases t.rank? with
      | none => rfl
      | some n =>
        change some (if n ≤ m then _ else _) = some (Ty.relabel ρ (if n ≤ m then s else t))
        split <;> rfl

@[simp] theorem commonType?_relabel (s t : Ty) :
    commonType? (s.relabel ρ) (t.relabel ρ) = (commonType? s t).map (Ty.relabel ρ) := by
  unfold commonType?
  rw [commonArithmetic?_relabel]
  cases commonArithmetic? s t with
  | some ty => rfl
  | none =>
    simp only [Option.map_none, compatible_relabel, Ty.decay_relabel]
    split
    · rfl
    · split <;> rfl

end CWithClasses
