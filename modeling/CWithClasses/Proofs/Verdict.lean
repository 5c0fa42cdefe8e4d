import CWithClasses.Proofs.Logic.Looking

/-!
# Verdicts

Once the types of its operands are there, an expression has its type or it is rejected, whatever the
state of the check is. Names and calls are different: a name has to be looked up, and a call may
give rise to several reports.
-/

namespace CWithClasses

/-- The step has a result right away, or it reports something, or, if it is `free`, it meets a
fault. Under the assumption, the type that results is known. -/
inductive Check.Verdict (p free : Prop) : Check Ty → Prop
  | accept {ty : Ty} (h : p → ty.Known) : Verdict p free (pure ty)
  | reject (e : Problem) (position : Position) (he : e.isPlain = true) :
      Verdict p free (Check.reject e position)
  | fault (e : Fault) (h : free) : Verdict p free (throw e)

/-- A step of this kind, of whose result nothing is said. -/
abbrev Check.IsVerdict (x : Check Ty) : Prop := Check.Verdict False True x

/-- A verdict only looks. -/
theorem Check.IsVerdict.looks {x : Check Ty} (h : x.IsVerdict) : x.Looks True := by
  cases h with
  | accept _ => exact .ret _
  | reject _ position he => exact .reject position he
  | fault e => exact .fault e trivial

namespace Check.Verdict

variable {p free : Prop} {operand base lhs rhs : Ty} (position : Position)

/-- A mismatch. -/
theorem mismatch (expected : String) (received : Ty) :
    Verdict p free (Check.mismatch expected received position) :=
  .reject _ _ rfl

/-- An increment or a decrement. -/
theorem stepType (h : p → operand.Known) :
    Verdict p free (CWithClasses.stepType operand position) := by
  unfold CWithClasses.stepType
  split
  · exact .accept h
  · exact .mismatch _ _ _

/-- An element of an array. -/
theorem indexType (h : p → base.Known) : Verdict p free (CWithClasses.indexType base position) := by
  unfold CWithClasses.indexType
  split
  · exact .accept h
  · split
    next element hpointee => exact .accept fun hp => (h hp).pointee hpointee
    next => exact .mismatch _ _ _

/-- A unary operator. -/
theorem unaryType (rule : Rule) (h : p → operand.Known) :
    Verdict p free (CWithClasses.unaryType rule operand position) := by
  unfold CWithClasses.unaryType
  split
  · refine .accept fun hp => ?_
    unfold unknownOperand
    split
    · exact Ty.known_int
    · exact Ty.known_bool
    · exact h hp
  · split
    · split
      next target hpointee => exact .accept fun hp => (h hp).pointee hpointee
      next => exact .mismatch _ _ _
    · exact .accept fun hp => Ty.known_pointer.mpr (h hp)
    · split
      · exact .accept fun hp => (h hp).promote
      · exact .mismatch _ _ _
    · split
      · exact .accept fun hp => (h hp).promote
      · exact .mismatch _ _ _
    · split
      · exact .accept fun _ => Ty.known_bool
      · exact .mismatch _ _ _
    · split
      · exact .accept fun hp => (h hp).promote
      · exact .mismatch _ _ _
    · exact .accept fun _ => Ty.known_int

/-- The deletion of an operand. -/
theorem deleteOf (c : Clause) (operand : Ty) : Verdict p free (c.deleteOf operand) := by
  unfold Clause.deleteOf
  split
  · exact .accept fun _ => Ty.known_void
  · exact .mismatch _ _ _

/-- An assignment. There is a fault if the operator does not assign. -/
theorem assign (c : Clause) {operator : Token} (target value : Position) (rhs : Ty)
    (hl : p → lhs.Known) (hoperator : operator.kind.assignKind?.isNone → free) :
    Verdict p free (c.assign operator target value lhs rhs) := by
  unfold Clause.assign
  split
  · exact .accept hl
  · split
    · exact .mismatch _ _ _
    · split
      · exact .accept hl
      · split
        next hkind => exact .fault _ (hoperator (by simp [hkind]))
        next =>
          split
          · exact .accept hl
          · exact .reject _ _ rfl

/-! ### Two operands -/

section Operands

variable (hl : p → lhs.Known) (hr : p → rhs.Known)

include hl hr

/-- An operator that only takes arithmetic values. -/
theorem commonOperands : Verdict p free (CWithClasses.commonOperands lhs rhs position) := by
  unfold CWithClasses.commonOperands
  split
  next ty hcommon => exact .accept fun hp => (hl hp).commonArithmetic (hr hp) hcommon
  next => exact .mismatch _ _ _

/-- An arithmetic operator, which may also move a pointer. -/
theorem arithmeticType (rule : Rule) :
    Verdict p free (CWithClasses.arithmeticType rule lhs rhs position) := by
  unfold CWithClasses.arithmeticType
  dsimp only
  split
  · exact .accept fun hp => (hl hp).decay
  · split
    · exact .accept fun hp => (hr hp).decay
    · split
      · split
        · exact .accept fun _ => Ty.known_int
        · exact .reject _ _ rfl
      · exact commonOperands position hl hr

/-- An operator on integers, or the shift of a stream. -/
theorem integralType (rule : Rule) :
    Verdict p free (CWithClasses.integralType rule lhs rhs position) := by
  unfold CWithClasses.integralType
  split
  · exact .accept hl
  · split
    next ty hcommon =>
      split
      · exact .accept fun hp => (hl hp).commonArithmetic (hr hp) hcommon
      · exact .mismatch _ _ _
    next => exact .mismatch _ _ _

/-- A binary operator. An operand of unknown type has been reported before. -/
theorem binaryType (kind : BinaryKind) (rule : Rule) :
    Verdict p free (CWithClasses.binaryType kind rule lhs rhs position) := by
  unfold CWithClasses.binaryType
  split
  next hunknown =>
    refine .accept fun hp => ?_
    rw [(hl hp).isUnknown_eq, (hr hp).isUnknown_eq] at hunknown
    cases hunknown
  next =>
    split
    · exact arithmeticType position hl hr rule
    · exact integralType position hl hr rule
    · split
      · exact .accept fun _ => Ty.known_bool
      · exact .reject _ _ rfl
    · split
      · exact .accept fun _ => Ty.known_bool
      · exact .mismatch _ _ _

/-- The type of two branches. -/
theorem branches (c : Clause) : Verdict p free (c.branches lhs rhs) := by
  unfold Clause.branches
  split
  next ty hcommon => exact .accept fun hp => (hl hp).commonType (hr hp) hcommon
  next => exact .reject _ _ rfl

end Operands

end Check.Verdict

end CWithClasses
