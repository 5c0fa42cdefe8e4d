import CWithClasses.Type.Compatible

/-!
# Sameness of types

Two types are the same if nothing is left to tell them apart once the identities of functions, their
default arguments and the names of classes are taken away. So sameness is equality of what remains,
and an equivalence.
-/

namespace CWithClasses

mutual

/-- The type without what takes no part in sameness. -/
def Ty.bare : Ty → Ty
  | .int => .int
  | .double => .double
  | .char => .char
  | .bool => .bool
  | .void => .void
  | .unknown => .unknown
  | .object c => .object { c with name := "" }
  | .array element size => .array element.bare size
  | .function _ result params _ => .function 0 result.bare (Ty.bareAll params) 0
  | .pointer target => .pointer target.bare

/-- Types without what takes no part in sameness. -/
def Ty.bareAll : List Ty → List Ty
  | [] => []
  | t :: rest => t.bare :: Ty.bareAll rest

end

mutual

/-- Types are the same if they are equal up to what takes no part in sameness. -/
theorem sameType_iff : ∀ s t : Ty, sameType s t = true ↔ s.bare = t.bare
  | .int, t | .double, t | .char, t | .bool, t | .void, t | .unknown, t => by
      cases t <;> simp [sameType, Ty.bare]
  | .object c, t => by
      cases t <;> simp [sameType, Ty.bare]
  | .array s m, t => by
      cases t with
      | array t n =>
        rw [sameType, Bool.and_eq_true, beq_iff_eq, sameType_iff s t, Ty.bare, Ty.bare,
          Ty.array.injEq, and_comm]
      | _ => simp [sameType, Ty.bare]
  | .function i r ps m, t => by
      cases t with
      | function j s qs n =>
        rw [sameType, Bool.and_eq_true, sameType_iff r s, sameTypes_iff ps qs, Ty.bare, Ty.bare]
        simp
      | _ => simp [sameType, Ty.bare]
  | .pointer s, t => by
      cases t with
      | pointer t => rw [sameType, sameType_iff s t, Ty.bare, Ty.bare, Ty.pointer.injEq]
      | _ => simp [sameType, Ty.bare]

/-- Rows of types are the same if they are equal up to what takes no part in sameness. -/
theorem sameTypes_iff : ∀ ss ts : List Ty, sameTypes ss ts = true ↔ Ty.bareAll ss = Ty.bareAll ts
  | [], [] => by simp [sameTypes]
  | [], _ :: _ => by simp [sameTypes, Ty.bareAll]
  | _ :: _, [] => by simp [sameTypes, Ty.bareAll]
  | s :: ss, t :: ts => by
      rw [sameTypes, Bool.and_eq_true, sameType_iff s t, sameTypes_iff ss ts,
        Ty.bareAll, Ty.bareAll, List.cons.injEq]

end

/-- Every type is the same as itself. -/
@[simp] theorem sameType_refl (t : Ty) : sameType t t = true := (sameType_iff t t).mpr rfl

/-- Sameness does not depend on the order of the two types. -/
theorem sameType_comm (s t : Ty) : sameType s t = sameType t s := by
  rw [Bool.eq_iff_iff, sameType_iff, sameType_iff, eq_comm]

/-- Types that are the same as a third one are the same. -/
theorem sameType_trans {a b c : Ty} (hab : sameType a b = true) (hbc : sameType b c = true) :
    sameType a c = true := by
  rw [sameType_iff] at hab hbc ⊢
  exact hab.trans hbc

end CWithClasses
