import CWithClasses.Check.Meaning
import CWithClasses.Proofs.Logic.Basic

/-!
# Default arguments

A call may leave out arguments from the first parameter on that has a default argument. Nothing asks
that the parameters behind it have one as well: in `void f(int a = 1, int b)`, both `f()` and `f(2)`
count as complete, although `b` is given no value. So a call whose number of arguments is accepted
gives a value to every parameter exactly if the default arguments stand at the end of the list, and
only then is the number of required arguments that of the parameters without a default.
-/

namespace CWithClasses

open Node (word tree)

/-- Behind a parameter with a default argument, every parameter has one. -/
def DefaultsTrail (params : List Parameter) : Prop :=
  params.Pairwise fun param behind => param.hasDefault → behind.hasDefault

/-- The default arguments stand at the end if there is one for each parameter from the first of them
on. -/
theorem defaultsTrail_iff {params : List Parameter} :
    DefaultsTrail params ↔
      ∀ param ∈ params.drop (params.findIdx (·.hasDefault)), param.hasDefault := by
  unfold DefaultsTrail
  induction params with
  | nil => simp
  | cons param rest ih =>
    rw [List.pairwise_cons, List.findIdx_cons]
    cases hdefault : param.hasDefault with
    | true =>
      simp only [cond_true, List.drop_zero, List.mem_cons, forall_eq_or_imp, hdefault, true_and,
        forall_const]
      exact and_iff_left_of_imp fun hrest =>
        List.pairwise_iff_getElem.mpr fun _ _ _ hj _ _ => hrest _ (List.getElem_mem hj)
    | false => simpa using ih

/-- The parameters in front of the first default argument have none. -/
theorem countP_bare (params : List Parameter) :
    params.countP (!·.hasDefault) = params.findIdx (·.hasDefault) +
      (params.drop (params.findIdx (·.hasDefault))).countP (!·.hasDefault) := by
  induction params with
  | nil => rfl
  | cons param rest ih =>
    rw [List.findIdx_cons]
    cases hdefault : param.hasDefault with
    | true => simp
    | false =>
      simp only [cond_false, List.drop_succ_cons, List.countP_cons, hdefault,
        Bool.not_false, if_true]
      omega

/-- Arguments may stop in front of a parameter if it has a default argument, or one before it
has. -/
theorem findIdx_hasDefault_le {params : List Parameter} {n : Nat} (hn : n < params.length) :
    params.findIdx (·.hasDefault) ≤ n ↔ ∃ param ∈ params.take (n + 1), param.hasDefault := by
  induction params generalizing n with
  | nil => cases hn
  | cons param rest ih =>
    rw [List.findIdx_cons, List.take_succ_cons]
    cases hdefault : param.hasDefault with
    | true => simp [hdefault]
    | false =>
      cases n with
      | zero => simp [hdefault]
      | succ n => simpa [hdefault] using ih (Nat.lt_of_succ_lt_succ hn)

/-- Whatever its parameters are, a function takes any number of arguments that stops behind the last
parameter, or in front of one that has a default argument or follows one that has. Every parameter
that has no default gets a value from each such call if and only if the default arguments stand at
the end, and if and only if the required arguments are as many as the parameters without a
default. -/
theorem newFunctionType_takes (result : Ty) (params : List Parameter) (s : Checker) :
    ∃ ty s₁ f, newFunctionType result params s = .ok ty s₁ ∧ ty.function? = some f ∧
      (∀ n, f.takes n = true ↔ n ≤ params.length ∧
        (n < params.length → ∃ param ∈ params.take (n + 1), param.hasDefault)) ∧
      ((∀ n, f.takes n = true → ∀ param ∈ params.drop n, param.hasDefault) ↔
        DefaultsTrail params) ∧
      (f.required = params.countP (!·.hasDefault) ↔ DefaultsTrail params) := by
  have hbound : params.findIdx (·.hasDefault) ≤ params.length := List.findIdx_le_length
  have htakes : ∀ n, FunctionTy.takes ⟨s.symbols.bodies.size, result, params.map (·.ty),
      params.findIdx (·.hasDefault)⟩ n = true ↔
        params.findIdx (·.hasDefault) ≤ n ∧ n ≤ params.length := by
    simp [FunctionTy.takes]
  refine ⟨_, _, _, Check.newFunction_eq .., rfl, fun n => ?_, ?_, ?_⟩
  · rw [htakes, and_comm]
    refine and_congr_right fun hn => ?_
    rcases Nat.lt_or_eq_of_le hn with hlt | rfl
    · rw [findIdx_hasDefault_le hlt]
      exact (imp_iff_right hlt).symm
    · simpa using hbound
  · rw [defaultsTrail_iff]
    constructor
    · intro hall
      exact hall _ ((htakes _).mpr ⟨Nat.le_refl _, hbound⟩)
    · intro hall n hn param hparam
      exact hall param (List.drop_subset_drop_left params ((htakes n).mp hn).1 hparam)
  · rw [defaultsTrail_iff, countP_bare, Nat.left_eq_add, List.countP_eq_zero]
    simp

/-- The parameters of `void f(int a = 1, int b)`. -/
def defaultInFront : Node :=
  { rule := .paramList
    children := [
      tree .namedParamDefault [word .intType "int", word .identifier "a", word .intConst "1"],
      tree .namedParam [word .intType "int", word .identifier "b"]] }

/-- A call with one argument is accepted for them, and so is one without any, but no value is given
to `b`. -/
theorem takes_defaultInFront :
    ∃ params s₁ ty s₂ f,
      checkParameters (some defaultInFront.phrase) (.start .bare) = .ok params s₁ ∧
        newFunctionType .void params s₁ = .ok ty s₂ ∧ ty.function? = some f ∧
        f.takes 0 = true ∧ f.takes 1 = true ∧ ∃ param ∈ params.drop 1, param.hasDefault = false :=
  ⟨_, _, _, _, _, rfl, rfl, rfl, rfl, rfl, _, List.mem_singleton_self _, rfl⟩

end CWithClasses
