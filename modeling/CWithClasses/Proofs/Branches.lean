import CWithClasses.Proofs.Congruence
import CWithClasses.Proofs.Widening

/-!
# The type of two branches

Two branches have a type in common if one of them accepts the other: the decay of the one that
accepts (`commonType?_of_known`). It accepts both branches, because what decays accepts no less than
before.

The first branch is asked first. The order of the branches therefore matters if each of them accepts
the other and still they do not decay to the same type. `Ty.Rivals` says when that is so: there are
pointers to `void`, which accept all pointers and are accepted by all, and functions that differ in
such a way somewhere.
-/

namespace CWithClasses

variable {a b : Ty}

/-! ### What the branches have in common -/

/-- What a type decays to accepts all that the type accepts. -/
theorem compatible_decay (h : compatible a b = true) : compatible a.decay b = true := by
  cases hb : b.isUnknown with
  | true => exact compatible_of_isUnknown hb
  | false =>
    cases a with
    | array element size =>
      obtain ⟨element', size', rfl, -, hsame⟩ := (compatible_array_iff hb).mp h
      exact compatible_pointer_of_decay rfl (.inr (.inr (compatibleTargets_of_sameType hsame)))
    | function i r ps m =>
      obtain ⟨j, s, qs, n, rfl, hresult, hparams⟩ := (compatible_function_iff hb).mp h
      refine compatible_pointer_of_decay rfl (.inr (.inr ?_))
      rw [compatibleTargets, hresult, hparams]
      rfl
    | _ => exact h

/-- A value may be used where the type that it decays to is expected. -/
theorem compatible_decay_self (t : Ty) : compatible t.decay t = true :=
  compatible_decay (compatible_of_sameType (sameType_refl t))

/-- If nothing is known about a branch, nothing is known about the type in common. -/
theorem commonType?_of_unknown (h : a.isUnknown = true ∨ b.isUnknown = true) :
    commonType? a b = some .unknown := by
  have hunknown : (a.isUnknown || b.isUnknown) = true := Bool.or_eq_true_iff.mpr h
  rw [commonType?, commonArithmetic?, if_pos hunknown]

/-- Known branches that are both arithmetic have the wider type in common. -/
theorem commonArithmetic?_of_known (ha : a.isUnknown = false) (hb : b.isUnknown = false) :
    commonArithmetic? a b =
      a.rank?.bind fun m => b.rank?.map fun n => if n ≤ m then a else b := by
  have hknown : ¬ (a.isUnknown || b.isUnknown) = true := by simp [ha, hb]
  rw [commonArithmetic?, if_neg hknown]
  cases a.rank? <;> cases b.rank? <;> rfl

/-- Arithmetic types do not decay. -/
theorem Ty.decay_of_rank {t : Ty} {n : Nat} (h : t.rank? = some n) : t.decay = t := by
  cases t with
  | array => cases h
  | function => cases h
  | _ => rfl

/-- Known branches have the decay of the one in common that accepts the other. The first one is
asked first. -/
theorem commonType?_of_known (ha : a.isUnknown = false) (hb : b.isUnknown = false) :
    commonType? a b =
      if compatible a b then some a.decay
      else if compatible b a then some b.decay
      else none := by
  rw [commonType?, commonArithmetic?_of_known ha hb]
  cases hm : a.rank? with
  | none => rfl
  | some m =>
    cases hn : b.rank? with
    | none => rfl
    | some n =>
      -- Of two arithmetic types, a type accepts the other if and only if it is not narrower.
      have hab : compatible a b = true ↔ n ≤ m := by
        rw [compatible_arithmetic_iff hm hb, hn]
        simp
      have hba : compatible b a = true ↔ m ≤ n := by
        rw [compatible_arithmetic_iff hn ha, hm]
        simp
      rw [Ty.decay_of_rank hm, Ty.decay_of_rank hn]
      change some (if n ≤ m then a else b) = _
      by_cases hle : n ≤ m
      · rw [if_pos hle, if_pos (hab.mpr hle)]
      · rw [if_neg hle, if_neg (mt hab.mp hle), if_pos (hba.mpr (Nat.le_of_not_le hle))]

/-- Branches have no type in common if neither accepts the other. -/
theorem commonType?_eq_none_iff (a b : Ty) :
    commonType? a b = none ↔ compatible a b = false ∧ compatible b a = false := by
  by_cases hunknown : a.isUnknown = true ∨ b.isUnknown = true
  · have haccepts : compatible a b = true :=
      compatible_of_agree (by rw [agree, Bool.or_eq_true_iff.mpr hunknown, Bool.true_or])
    simp [commonType?_of_unknown hunknown, haccepts]
  · simp only [not_or, Bool.not_eq_true] at hunknown
    rw [commonType?_of_known hunknown.1 hunknown.2]
    cases compatible a b <;> cases compatible b a <;> simp

/-- Whether branches have a type in common does not depend on their order. -/
theorem commonType?_eq_none_comm (a b : Ty) : commonType? a b = none ↔ commonType? b a = none := by
  rw [commonType?_eq_none_iff, commonType?_eq_none_iff, and_comm]

/-- The type that branches have in common accepts both of them. -/
theorem compatible_of_commonType? {t : Ty} (h : commonType? a b = some t) :
    compatible t a = true ∧ compatible t b = true := by
  by_cases hunknown : a.isUnknown = true ∨ b.isUnknown = true
  · rw [commonType?_of_unknown hunknown] at h
    cases h
    exact ⟨compatible_of_agree rfl, compatible_of_agree rfl⟩
  · simp only [not_or, Bool.not_eq_true] at hunknown
    rw [commonType?_of_known hunknown.1 hunknown.2] at h
    split at h
    next hab =>
      cases h
      exact ⟨compatible_decay_self a, compatible_decay hab⟩
    next =>
      split at h
      next hba =>
        cases h
        exact ⟨compatible_decay hba, compatible_decay_self b⟩
      next => cases h

/-- Two branches have a type in common if and only if one of them accepts the other, so the order of
the branches does not matter for that. The type accepts both branches. -/
theorem commonType?_accepts (a b : Ty) :
    (∀ t, commonType? a b = some t → compatible t a = true ∧ compatible t b = true) ∧
      (commonType? a b = none ↔ commonType? b a = none) ∧
      (commonType? a b = none ↔ compatible a b = false ∧ compatible b a = false) :=
  ⟨fun _ => compatible_of_commonType?, commonType?_eq_none_comm a b, commonType?_eq_none_iff a b⟩

/-- An array of numbers and a pointer to `void` have the pointer to `void` in common, in either
order, although the array does not accept the pointer. -/
theorem commonType?_array_voidPointer :
    let array : Ty := .array .int 3
    let pointer : Ty := .pointer .void
    (commonType? array pointer = some pointer ∧ commonType? pointer array = some pointer) ∧
      (compatible pointer array = true ∧ compatible pointer pointer = true) ∧
      compatible array pointer = false := by
  intro array pointer
  obtain ⟨haccepts, -, -⟩ := commonType?_accepts array pointer
  exact ⟨⟨rfl, rfl⟩, haccepts pointer rfl, rfl⟩

/-! ### The order of the branches -/

/-- Two types each of which accepts the other, though they do not decay to the same: one is a
pointer to `void` and the other one some other pointer, or they are functions, or lead through
equally many pointers to functions, that accept one another and are not the same. -/
inductive Ty.Rivals : Ty → Ty → Prop
  | fromVoid {target : Ty} (hknown : target.isUnknown = false) (hsome : target.isVoid = false) :
      Rivals (.pointer .void) (.pointer target)
  | toVoid {target : Ty} (hknown : target.isUnknown = false) (hsome : target.isVoid = false) :
      Rivals (.pointer target) (.pointer .void)
  | functions (n : Nat) {f g : FunctionTy} (hfg : functionsCompatible f g = true)
      (hgf : functionsCompatible g f = true)
      (hdiffer : sameType (.ofFunction f) (.ofFunction g) = false) :
      Rivals (.pointers n (.ofFunction f)) (.pointers n (.ofFunction g))

/-- Equally many pointers make no difference for sameness. -/
theorem sameType_pointers (n : Nat) (s t : Ty) :
    sameType (.pointers n s) (.pointers n t) = sameType s t := by
  induction n with
  | zero => rfl
  | succ n ih => exact ih

/-- Equally many pointers make no difference for what they lead to. -/
theorem compatibleTargets_pointers (n : Nat) (s t : Ty) :
    compatibleTargets (.pointers n s) (.pointers n t) = compatibleTargets s t := by
  induction n with
  | zero => rfl
  | succ n ih =>
    rw [Ty.pointers, Ty.pointers, compatibleTargets]
    exact ih

/-- Pointers that lead to something known are known. -/
theorem Ty.isUnknown_pointers (n : Nat) (t : Ty) : (pointers n t).isUnknown = t.isUnknown := by
  induction n with
  | zero => rfl
  | succ n ih => exact ih

namespace Ty.Rivals

/-- Rivals are rivals in either order. -/
theorem symm (h : a.Rivals b) : b.Rivals a := by
  cases h with
  | fromVoid hknown hsome => exact .toVoid hknown hsome
  | toVoid hknown hsome => exact .fromVoid hknown hsome
  | functions n hfg hgf hdiffer => exact .functions n hgf hfg ((sameType_comm _ _).trans hdiffer)

/-- Something is known about a rival. -/
theorem isUnknown_eq_false (h : a.Rivals b) : a.isUnknown = false := by
  cases h with
  | fromVoid => rfl
  | toVoid hknown => exact hknown
  | functions n => rw [isUnknown_pointers]; rfl

/-- A rival accepts the other. -/
theorem accepts (h : a.Rivals b) : compatible a b = true := by
  cases h with
  | fromVoid => exact compatible_pointer_of_decay rfl (.inl rfl)
  | toVoid => exact compatible_pointer_of_decay rfl (.inr (.inl rfl))
  | @functions n f g hfg =>
    cases n with
    | zero =>
      obtain ⟨hresult, hparams⟩ := Bool.and_eq_true_iff.mp hfg
      exact (compatible_function_iff rfl).mpr ⟨_, _, _, _, rfl, hresult, hparams⟩
    | succ n =>
      refine compatible_pointer_of_decay rfl (.inr (.inr ?_))
      rw [compatibleTargets_pointers]
      exact hfg

/-- Rivals do not decay to the same type. -/
theorem sameType_decay_eq_false (h : a.Rivals b) : sameType a.decay b.decay = false := by
  cases h with
  | @fromVoid target _ hsome =>
    cases target with
    | void => cases hsome
    | _ => rfl
  | @toVoid target _ hsome =>
    cases target with
    | void => cases hsome
    | _ => rfl
  | functions n _ _ hdiffer =>
    cases n with
    | zero => exact hdiffer
    | succ n => exact (sameType_pointers n _ _).trans hdiffer

end Ty.Rivals

/-- Pointers that may stand for one another and lead to different types lead to functions. -/
theorem exists_functions_of_compatibleTargets : ∀ {s t : Ty}, compatibleTargets s t = true →
    compatibleTargets t s = true → sameType s t = false →
    ∃ n f g, s = .pointers n (.ofFunction f) ∧ t = .pointers n (.ofFunction g) ∧
      functionsCompatible f g = true ∧ functionsCompatible g f = true ∧
      sameType (.ofFunction f) (.ofFunction g) = false
  | .pointer s, t, hst, hts, hdiffer => by
      cases t with
      | pointer t =>
        rw [compatibleTargets] at hst hts
        obtain ⟨n, f, g, rfl, rfl, hrest⟩ :=
          exists_functions_of_compatibleTargets (s := s) (t := t) hst hts hdiffer
        exact ⟨n + 1, f, g, rfl, rfl, hrest⟩
      | _ => cases hst
  | .function i r ps m, t, hst, hts, hdiffer => by
      cases t with
      | function j s qs n =>
        exact ⟨0, ⟨i, r, ps, m⟩, ⟨j, s, qs, n⟩, rfl, rfl, hst, hts, hdiffer⟩
      | _ => cases hst
  | .int, t, hst, _, hdiffer | .double, t, hst, _, hdiffer | .char, t, hst, _, hdiffer
  | .bool, t, hst, _, hdiffer | .void, t, hst, _, hdiffer | .unknown, t, hst, _, hdiffer
  | .object _, t, hst, _, hdiffer | .array _ _, t, hst, _, hdiffer => by
      rw [compatibleTargets_plain t ⟨rfl, rfl⟩, hdiffer] at hst
      cases hst

/-- Pointers that accept one another and are not the same are rivals. -/
theorem rivals_pointer {s t : Ty} (hs : s.isUnknown = false) (ht : t.isUnknown = false)
    (hst : t.StandsFor s) (hts : s.StandsFor t) (hdiffer : sameType s t = false) :
    (Ty.pointer s).Rivals (.pointer t) := by
  by_cases hsvoid : s.isVoid = true
  · cases s with
    | void =>
      refine .fromVoid ht ?_
      cases t with
      | void => cases hdiffer
      | _ => rfl
    | _ => cases hsvoid
  · by_cases htvoid : t.isVoid = true
    · cases t with
      | void => exact .toVoid hs (Bool.eq_false_iff.mpr hsvoid)
      | _ => cases htvoid
    · have htargets : compatibleTargets s t = true := by
        simpa [Ty.StandsFor, hsvoid, htvoid] using hst
      have htargets' : compatibleTargets t s = true := by
        simpa [Ty.StandsFor, hsvoid, htvoid] using hts
      obtain ⟨n, f, g, rfl, rfl, hfg, hgf, hfunctions⟩ :=
        exists_functions_of_compatibleTargets htargets htargets' hdiffer
      exact .functions (n + 1) hfg hgf hfunctions

/-- Known types that accept one another decay to the same type, or they are rivals. -/
theorem rivals_of_compatible (ha : a.isUnknown = false) (hb : b.isUnknown = false)
    (hab : compatible a b = true) (hba : compatible b a = true)
    (hdiffer : sameType a.decay b.decay = false) : a.Rivals b := by
  have hnot : ¬ sameType a b = true := by
    intro hsame
    rw [sameType_decay hsame] at hdiffer
    cases hdiffer
  cases a with
  | pointer s =>
    obtain ⟨t, hdecay, hst⟩ := (compatible_pointer_iff ha hb).mp hab
    cases b with
    | pointer t =>
      cases hdecay
      obtain ⟨_, hdecay', hts⟩ := (compatible_pointer_iff hb ha).mp hba
      cases hdecay'
      exact rivals_pointer ha hb hst hts hdiffer
    | array => simp [compatible_array_iff ha] at hba
    | function => simp [compatible_function_iff ha] at hba
    | _ => cases hdecay
  | function i r ps m =>
    obtain ⟨j, s, qs, n, rfl, hresult, hparams⟩ := (compatible_function_iff hb).mp hab
    obtain ⟨_, _, _, _, heq, hresult', hparams'⟩ := (compatible_function_iff ha).mp hba
    cases heq
    exact .functions 0 (f := ⟨i, r, ps, m⟩) (g := ⟨j, s, qs, n⟩)
      (Bool.and_eq_true_iff.mpr ⟨hresult, hparams⟩)
      (Bool.and_eq_true_iff.mpr ⟨hresult', hparams'⟩) hdiffer
  | array element size =>
    obtain ⟨element', size', rfl, -, hsame⟩ := (compatible_array_iff hb).mp hab
    change sameType element element' = false at hdiffer
    rw [hsame] at hdiffer
    cases hdiffer
  | unknown => cases ha
  | void => exact absurd ((compatible_same_iff (.inl rfl) hb).mp hab) hnot
  | object c => exact absurd ((compatible_same_iff (.inr ⟨c, rfl⟩) hb).mp hab) hnot
  | _ =>
    -- What an arithmetic type accepts is arithmetic, and so nothing is left open about it.
    obtain ⟨n, hn, -⟩ := (compatible_arithmetic_iff rfl hb).mp hab
    refine absurd (sameType_of_compatible rfl ?_ hab hba) hnot
    cases b <;> first | rfl | cases hn

/-- Types about which nothing is left open are no rivals. -/
theorem Ty.Rivals.not_isOrdered (h : a.Rivals b) (ha : a.isOrdered = true)
    (hb : b.isOrdered = true) : False := by
  have hsame := sameType_decay (sameType_of_compatible ha hb h.accepts h.symm.accepts)
  rw [h.sameType_decay_eq_false] at hsame
  cases hsame

/-- Known types are rivals if each accepts the other, and they do not decay to the same type. -/
theorem rivals_iff (ha : a.isUnknown = false) (hb : b.isUnknown = false) :
    a.Rivals b ↔
      compatible a b = true ∧ compatible b a = true ∧ sameType a.decay b.decay = false := by
  constructor
  · intro h
    exact ⟨h.accepts, h.symm.accepts, h.sameType_decay_eq_false⟩
  · rintro ⟨hab, hba, hdiffer⟩
    exact rivals_of_compatible ha hb hab hba hdiffer

/-- Branches have the same type in common in either order, except for rivals: then it is the decay
of the first branch. -/
theorem commonType?_swap {t u : Ty} (ht : commonType? a b = some t)
    (hu : commonType? b a = some u) :
    sameType t u = true ∧ ¬ a.Rivals b ∨
      sameType t u = false ∧ a.Rivals b ∧ t = a.decay ∧ u = b.decay := by
  by_cases hunknown : a.isUnknown = true ∨ b.isUnknown = true
  · rw [commonType?_of_unknown hunknown] at ht
    rw [commonType?_of_unknown hunknown.symm] at hu
    cases ht
    cases hu
    refine .inl ⟨rfl, fun hrivals => ?_⟩
    rw [hrivals.isUnknown_eq_false, hrivals.symm.isUnknown_eq_false] at hunknown
    simp at hunknown
  · simp only [not_or, Bool.not_eq_true] at hunknown
    rw [commonType?_of_known hunknown.1 hunknown.2] at ht
    rw [commonType?_of_known hunknown.2 hunknown.1] at hu
    rw [rivals_iff hunknown.1 hunknown.2]
    cases hab : compatible a b with
    | false =>
      -- In either order, the second branch is the one that accepts.
      simp only [hab, Bool.false_eq_true, if_false] at ht hu
      have htu : t = u := Option.some.inj (ht.symm.trans hu)
      exact .inl ⟨htu ▸ sameType_refl t, by simp⟩
    | true =>
      simp only [hab, if_true] at ht hu
      obtain rfl := Option.some.inj ht
      cases hba : compatible b a with
      | false =>
        simp only [hba, Bool.false_eq_true, if_false] at hu
        obtain rfl := Option.some.inj hu
        exact .inl ⟨sameType_refl _, by simp⟩
      | true =>
        -- Each accepts the other, and so the first one wins in either order.
        simp only [hba, if_true] at hu
        obtain rfl := Option.some.inj hu
        cases sameType a.decay b.decay <;> simp

/-- In either order, branches have a type in common or they have none. The types are the same,
except for rivals: these have the decay of the first branch in common. No types are rivals about
which nothing is left open. -/
theorem commonType?_order (a b : Ty) :
    (commonType? a b = none ↔ commonType? b a = none) ∧
      (∀ t u, commonType? a b = some t → commonType? b a = some u →
        sameType t u = true ∧ ¬ a.Rivals b ∨
          sameType t u = false ∧ a.Rivals b ∧ t = a.decay ∧ u = b.decay) ∧
      (a.isOrdered = true → b.isOrdered = true → ¬ a.Rivals b) := by
  refine ⟨commonType?_eq_none_comm a b, fun t u => commonType?_swap, ?_⟩
  intro ha hb hrivals
  exact hrivals.not_isOrdered ha hb

/-- A pointer to a function that takes a pointer to `void` and one to a function that takes a string
are rivals, and each order of the branches has its own type. An array of numbers and a pointer to
numbers are none. -/
theorem commonType?_callbacks :
    let anything : Ty := .pointer (.function 0 .int [.pointer .void] 1)
    let string : Ty := .pointer (.function 1 .int [.pointer .char] 1)
    let array : Ty := .array .int 3
    let pointer : Ty := .pointer .int
    (commonType? anything string = some anything ∧ commonType? string anything = some string ∧
        sameType anything string = false ∧ anything.Rivals string) ∧
      (array.isOrdered = true ∧ pointer.isOrdered = true ∧ ¬ array.Rivals pointer) := by
  intro anything string array pointer
  have hrivals : anything.Rivals string := by
    obtain ⟨-, hswap, -⟩ := commonType?_order anything string
    rcases hswap anything string rfl rfl with ⟨hsame, -⟩ | ⟨-, hrivals, -⟩
    · cases hsame
    · exact hrivals
  obtain ⟨-, -, hopen⟩ := commonType?_order array pointer
  exact ⟨⟨rfl, rfl, rfl, hrivals⟩, rfl, rfl, hopen rfl rfl⟩

/-- A pointer to `void` and a pointer to numbers accept one another, and the first of them is what
they have in common. -/
theorem commonType?_voidPointer :
    commonType? (.pointer .void) (.pointer .int) = some (.pointer .void) ∧
      commonType? (.pointer .int) (.pointer .void) = some (.pointer .int) ∧
      sameType (.pointer .void) (.pointer .int) = false :=
  ⟨rfl, rfl, rfl⟩

end CWithClasses
