import CWithClasses.Proofs.Relabeling
import CWithClasses.Proofs.Sameness

/-!
# Types that are the same may stand for one another

What sameness leaves out of a type are labels, so taking them away does not change how types compare
(`Ty.bare_eq_relabel`). Hence a type may be replaced by one that is the same, wherever types are
compared or taken apart.

Sameness looks into the parts of two functions even if they are one and the same. Asking for that
first saves work, but it does not change the answer as long as an identity stands for one function
only (`sameTypeAtOnce_eq`).
-/

namespace CWithClasses

/-! ### Functions that are one and the same -/

mutual

/-- Whether two types are the same, where a function is not compared with itself. -/
def sameTypeAtOnce : Ty → Ty → Bool
  | .int, .int | .double, .double | .char, .char | .bool, .bool | .void, .void
  | .unknown, .unknown => true
  | .object c, .object d => c.id == d.id
  | .array s m, .array t n => m == n && sameTypeAtOnce s t
  | .function i r ps _, .function j s qs _ =>
      i == j || (sameTypeAtOnce r s && sameTypesAtOnce ps qs)
  | .pointer s, .pointer t => sameTypeAtOnce s t
  | _, _ => false

/-- Whether two rows of types are the same, where a function is not compared with itself. -/
def sameTypesAtOnce : List Ty → List Ty → Bool
  | [], [] => true
  | s :: ss, t :: ts => sameTypeAtOnce s t && sameTypesAtOnce ss ts
  | _, _ => false

end

mutual

/-- Every function in the type is the one that its identity stands for. -/
def Ty.IsOf (functions : Nat → FunctionTy) : Ty → Prop
  | .int | .double | .char | .bool | .void | .unknown | .object _ => True
  | .array element _ => element.IsOf functions
  | .function id result params required =>
      functions id = ⟨id, result, params, required⟩ ∧ result.IsOf functions ∧
        Ty.AllOf functions params
  | .pointer target => target.IsOf functions

/-- Every function in the types is the one that its identity stands for. -/
def Ty.AllOf (functions : Nat → FunctionTy) : List Ty → Prop
  | [] => True
  | t :: rest => t.IsOf functions ∧ Ty.AllOf functions rest

end

mutual

/-- A function need not be compared with itself. -/
theorem sameTypeAtOnce_eq {functions : Nat → FunctionTy} : ∀ {s t : Ty}, s.IsOf functions →
    t.IsOf functions → sameTypeAtOnce s t = sameType s t
  | .int, t, _, _ | .double, t, _, _ | .char, t, _, _ | .bool, t, _, _ | .void, t, _, _
  | .unknown, t, _, _ | .object _, t, _, _ => by cases t <;> rfl
  | .array s m, t, hs, ht => by
      cases t with
      | array t n => rw [sameTypeAtOnce, sameType, sameTypeAtOnce_eq (s := s) (t := t) hs ht]
      | _ => rfl
  | .function i r ps m, t, hs, ht => by
      cases t with
      | function j s qs n =>
        obtain ⟨hi, hr, hps⟩ := hs
        obtain ⟨hj, hqs⟩ := ht
        rw [sameTypeAtOnce]
        by_cases hij : i = j
        · -- One identity stands for one function, which is the same as itself.
          subst hij
          obtain ⟨-, rfl, rfl, rfl⟩ := FunctionTy.mk.inj (hi.symm.trans hj)
          rw [beq_self_eq_true, Bool.true_or, sameType_refl]
        · rw [beq_false_of_ne hij, Bool.false_or, sameType, sameTypeAtOnce_eq hr hqs.1,
            sameTypesAtOnce_eq hps hqs.2]
      | _ => rfl
  | .pointer s, t, hs, ht => by
      cases t with
      | pointer t => rw [sameTypeAtOnce, sameType, sameTypeAtOnce_eq (s := s) (t := t) hs ht]
      | _ => rfl

/-- A function need not be compared with itself. -/
theorem sameTypesAtOnce_eq {functions : Nat → FunctionTy} : ∀ {ss ts : List Ty},
    Ty.AllOf functions ss → Ty.AllOf functions ts → sameTypesAtOnce ss ts = sameTypes ss ts
  | [], [], _, _ | [], _ :: _, _, _ | _ :: _, [], _, _ => rfl
  | s :: ss, t :: ts, hs, ht => by
      rw [sameTypesAtOnce, sameTypes, sameTypeAtOnce_eq hs.1 ht.1, sameTypesAtOnce_eq hs.2 ht.2]

end

/-! ### Taking labels away -/

/-- The labels that take no part in sameness are taken away. -/
def Relabeling.bare : Relabeling where
  cls c := { c with name := "" }
  fn _ := 0
  required _ := 0
  id_cls _ _ := Iff.rfl

mutual

/-- What takes no part in sameness are labels. -/
theorem Ty.bare_eq_relabel : ∀ t : Ty, t.bare = t.relabel .bare
  | .int | .double | .char | .bool | .void | .unknown => rfl
  | .object _ => rfl
  | .array element size => by rw [bare, relabel, bare_eq_relabel element]
  | .function id result params required => by
      rw [bare, relabel, bare_eq_relabel result, bareAll_eq_relabelAll params]
      rfl
  | .pointer target => by rw [bare, relabel, bare_eq_relabel target]

/-- What takes no part in sameness are labels. -/
theorem Ty.bareAll_eq_relabelAll : ∀ ts : List Ty, Ty.bareAll ts = Ty.relabelAll .bare ts
  | [] => rfl
  | t :: rest => by rw [bareAll, relabelAll, bare_eq_relabel t, bareAll_eq_relabelAll rest]

end

/-- Types are the same if they are equal without their labels. -/
theorem sameType_iff_relabel (s t : Ty) :
    sameType s t = true ↔ s.relabel .bare = t.relabel .bare := by
  rw [sameType_iff, Ty.bare_eq_relabel, Ty.bare_eq_relabel]

/-- The types are the same. -/
def Ty.Same (s t : Ty) : Prop := sameType s t = true

/-- Both types are missing, or they are the same. -/
theorem rel_same_of_map_relabel {x y : Option Ty}
    (h : x.map (Ty.relabel .bare) = y.map (Ty.relabel .bare)) : Option.Rel Ty.Same x y := by
  cases x with
  | none =>
    cases y with
    | none => exact .none
    | some t => cases h
  | some s =>
    cases y with
    | none => cases h
    | some t => exact .some ((sameType_iff_relabel s t).mpr (Option.some.inj h))

section Congruence

variable {a a' b b' : Ty}

/-- Types that are the same decay to types that are the same. -/
theorem sameType_decay (ha : sameType a a' = true) : sameType a.decay a'.decay = true := by
  rw [sameType_iff_relabel] at ha ⊢
  rw [← Ty.decay_relabel, ← Ty.decay_relabel, ha]

/-- Types that are the same point to types that are the same. -/
theorem rel_same_pointee? (ha : sameType a a' = true) :
    Option.Rel Ty.Same a.pointee? a'.pointee? := by
  rw [sameType_iff_relabel] at ha
  refine rel_same_of_map_relabel ?_
  rw [← Ty.pointee?_relabel, ← Ty.pointee?_relabel, ha]

/-- A type may be replaced by one that is the same where types are compared. -/
theorem compatible_congr (ha : sameType a a' = true) (hb : sameType b b' = true) :
    compatible a b = compatible a' b' := by
  rw [sameType_iff_relabel] at ha hb
  rw [← compatible_relabel .bare a b, ha, hb, compatible_relabel]

/-- A branch may be replaced by one whose type is the same. -/
theorem rel_same_commonType? (ha : sameType a a' = true) (hb : sameType b b' = true) :
    Option.Rel Ty.Same (commonType? a b) (commonType? a' b') := by
  rw [sameType_iff_relabel] at ha hb
  refine rel_same_of_map_relabel ?_
  rw [← commonType?_relabel, ← commonType?_relabel, ha, hb]

end Congruence

/-- Sameness is an equivalence, also if functions with one identity are not compared any further.
Types that are the same are compatible with the same types; they decay and point to types that are
the same, and so do branches have types in common. -/
theorem sameType_isCongruence :
    Equivalence Ty.Same ∧
      (∀ functions : Nat → FunctionTy, ∀ a b : Ty, a.IsOf functions → b.IsOf functions →
        sameTypeAtOnce a b = sameType a b) ∧
      ∀ a a' b b' : Ty, a.Same a' → b.Same b' →
        compatible a b = compatible a' b' ∧ a.decay.Same a'.decay ∧
          Option.Rel Ty.Same a.pointee? a'.pointee? ∧
          Option.Rel Ty.Same (commonType? a b) (commonType? a' b') := by
  refine ⟨⟨sameType_refl, ?_, sameType_trans⟩, fun _ _ _ => sameTypeAtOnce_eq, ?_⟩
  · intro a b h
    exact (sameType_comm b a).trans h
  · intro a a' b b' ha hb
    exact ⟨compatible_congr ha hb, sameType_decay ha, rel_same_pointee? ha,
      rel_same_commonType? ha hb⟩

/-- A function that takes a number and a pointer to an object may be declared twice, with fewer
default arguments the first time. Pointers to the two functions are the same, whether or not
functions are compared with themselves, and accept the same functions of narrower types. -/
theorem sameType_redeclaredFunction :
    let object : Ty := .pointer (.object ⟨0, "S"⟩)
    let functions : Nat → FunctionTy := fun id => ⟨id, .int, [.int, object], 3 - id⟩
    let first : Ty := .pointer (.function 1 .int [.int, object] 2)
    let second : Ty := .pointer (.function 2 .int [.int, object] 1)
    let narrow : Ty := .function 3 .char [.bool, object] 2
    let twin : Ty := .function 4 .char [.bool, object] 0
    (first.IsOf functions ∧ second.IsOf functions ∧
        sameTypeAtOnce first second = sameType first second) ∧
      (first.Same second ∧ narrow.Same twin ∧ compatible first narrow = true) ∧
      compatible first narrow = compatible second twin ∧ first.decay.Same second.decay ∧
        Option.Rel Ty.Same first.pointee? second.pointee? ∧
        Option.Rel Ty.Same (commonType? first narrow) (commonType? second twin) := by
  intro object functions first second narrow twin
  obtain ⟨-, hidentity, hcongr⟩ := sameType_isCongruence
  have hfirst : first.IsOf functions := ⟨rfl, trivial, trivial, trivial, trivial⟩
  have hsecond : second.IsOf functions := ⟨rfl, trivial, trivial, trivial, trivial⟩
  have hsame : first.Same second := rfl
  have htwin : narrow.Same twin := rfl
  exact ⟨⟨hfirst, hsecond, hidentity functions first second hfirst hsecond⟩,
    ⟨hsame, htwin, rfl⟩, hcongr first second narrow twin hsame htwin⟩

end CWithClasses
