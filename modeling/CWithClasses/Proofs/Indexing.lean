import CWithClasses.Check.Meaning
import CWithClasses.Proofs.Branches
import CWithClasses.Proofs.Logic.Open

/-!
# Indexing and pointer arithmetic

`a[i]` means `*(a + i)`. An index is checked by a rule of its own, which looks at the pointee of the
base at once, while the sum first decays its operands and then either moves a pointer or adds
numbers. For an index of an integral type the two come to the same: if the base has a pointee, both
find it; if not, each of them reports one problem, though not at the same operator.

There is one difference. An unknown base is handed on by the index as it is, with its pointers, and
the sum forgets them. Both results are unknown then.
-/

namespace CWithClasses

open Check

/-! ### Types of operands -/

namespace Ty

variable {t : Ty}

/-- An integral type is neither unknown nor a pointer, and it is arithmetic. -/
theorem integral_cases (h : t.isIntegral = true) : t = .int ∨ t = .char ∨ t = .bool := by
  cases t <;> simp_all [isIntegral]

/-- A type has a pointee if it decays to a pointer to it. -/
theorem pointee?_eq_some_iff {target : Ty} : t.pointee? = some target ↔
    t.decay = .pointer target := by
  unfold pointee?
  cases t.decay <;> simp

/-- A type has no pointee if it does not decay to a pointer. -/
theorem pointee?_eq_none_iff : t.pointee? = none ↔ t.decay.isPointer = false := by
  unfold pointee?
  cases t.decay <;> simp [isPointer]

/-- No stream is unknown. -/
theorem isStream_of_isUnknown (h : t.isUnknown = true) : t.isStream = false := by
  cases t <;> simp_all [isUnknown, isStream]

/-- What is arithmetic has no pointee and is not unknown. -/
theorem pointee?_of_isArithmetic (h : t.isArithmetic = true) :
    t.pointee? = none ∧ t.isUnknown = false := by
  cases t <;> first | exact ⟨rfl, rfl⟩ | cases h

end Ty

/-- The sum of an arithmetic and an integral type is arithmetic again. -/
theorem commonOperands_of_isArithmetic {base offset : Ty} (hbase : base.isArithmetic = true)
    (hoffset : offset.isArithmetic = true) (position : Position) :
    ∃ t, t.isArithmetic = true ∧ commonOperands base offset position = pure t := by
  obtain ⟨m, hm⟩ := Option.isSome_iff_exists.mp hbase
  obtain ⟨n, hn⟩ := Option.isSome_iff_exists.mp hoffset
  refine ⟨if n ≤ m then base else offset, ?_, ?_⟩
  · split
    · exact hbase
    · exact hoffset
  · unfold commonOperands
    rw [commonArithmetic?_of_known (Ty.pointee?_of_isArithmetic hbase).2
      (Ty.pointee?_of_isArithmetic hoffset).2, hm, hn]
    rfl

/-- A known type that is not arithmetic has no sum with an arithmetic one. -/
theorem commonOperands_of_known {base offset : Ty} (hbase : base.isArithmetic = false)
    (hunknown : base.isUnknown = false) (hoffset : offset.isArithmetic = true)
    (position : Position) :
    commonOperands base offset position = mismatch "arithmetic type" base position := by
  have hrank : base.rank? = none := by simpa [Ty.isArithmetic] using hbase
  unfold commonOperands
  rw [commonArithmetic?_of_known hunknown (Ty.pointee?_of_isArithmetic hoffset).2, hrank, hbase]
  rfl

/-! ### The two rules -/

/-- The sum of a type and an integral one: a pointer is moved, and all else is added. -/
theorem binaryType_add_of_isIntegral {base offset : Ty} (h : offset.isIntegral = true)
    (position : Position) :
    binaryType .arithmetic .add base offset position =
      if base.isUnknown then pure .unknown
      else if base.decay.isPointer then pure base.decay
      else commonOperands base offset position := by
  have hoffset : offset.isUnknown = false ∧ offset.decay = offset ∧ offset.isPointer = false := by
    rcases Ty.integral_cases h with rfl | rfl | rfl <;> exact ⟨rfl, rfl, rfl⟩
  obtain ⟨hknown, hdecay, hnumber⟩ := hoffset
  unfold binaryType arithmeticType unknownOperands
  cases hunknown : base.isUnknown with
  | true => simp [Ty.isStream_of_isUnknown hunknown]
  | false => simp [hknown, hdecay, hnumber, h]

/-- Two steps that both end at once, or that both report one problem. Their results are unknown, or
they are the same. -/
inductive Check.Concur (x y : Check Ty) : Prop
  | settled {t u : Ty} : x = pure t → y = pure u →
      t.isUnknown = true ∧ u.isUnknown = true ∨ t = u → Concur x y
  | rejected {e e' : Problem} {position position' : Position} : x = reject e position →
      y = reject e' position' → Concur x y

/-- An index of an integral type and the target of the sum are judged alike, whatever the base
is. -/
theorem indexType_concur (base : Ty) {offset : Ty} (h : offset.isIntegral = true)
    (whole sum target : Position) :
    Concur (indexType base whole) (do
      unaryType .dereference (← binaryType .arithmetic .add base offset sum) target) := by
  rw [binaryType_add_of_isIntegral h]
  unfold indexType
  cases hunknown : base.isUnknown with
  | true => exact .settled rfl rfl (.inl ⟨hunknown, rfl⟩)
  | false =>
    cases hpointee : base.pointee? with
    | some element =>
      have hdecay : base.decay = .pointer element := Ty.pointee?_eq_some_iff.mp hpointee
      rw [hdecay]
      -- What a known array or pointer leads to may still be unknown.
      cases helement : element.isUnknown with
      | true =>
        have htarget : unaryType .dereference (.pointer element) target = pure (.pointer element) :=
          if_pos helement
        exact .settled rfl htarget (.inl ⟨helement, helement⟩)
      | false =>
        have htarget : unaryType .dereference (.pointer element) target = pure element :=
          if_neg (by simp [Ty.isUnknown, helement])
        exact .settled rfl htarget (.inr rfl)
    | none =>
      rw [Ty.pointee?_eq_none_iff.mp hpointee]
      have hoffset : offset.isArithmetic = true := by
        rcases Ty.integral_cases h with rfl | rfl | rfl <;> rfl
      cases hbase : base.isArithmetic with
      | true =>
        obtain ⟨t, ht, hsum⟩ := commonOperands_of_isArithmetic hbase hoffset sum
        obtain ⟨hnone, hknown⟩ := Ty.pointee?_of_isArithmetic ht
        have htarget : unaryType .dereference t target =
            reject (.typeMismatch "pointer" t.render) target := by
          unfold unaryType
          rw [hknown]
          simp [hnone, mismatch]
        exact .rejected rfl (by simpa [hsum] using htarget)
      | false =>
        have hsum := commonOperands_of_known hbase hunknown hoffset sum
        have htarget : (do
            unaryType .dereference (← mismatch "arithmetic type" base sum) target) =
              reject (.typeMismatch "arithmetic type" base.render) sum :=
          rfl
        exact .rejected rfl (by simpa [hsum] using htarget)

/-! ### Expressions -/

namespace Node

/-- The element of an array at an index: `a[i]`. -/
def element (a i : Node) : Node := { rule := .index, children := [some a, some i] }

/-- What a sum points to: `*(a + i)`. -/
def targetOfSum (a i : Node) : Node :=
  { rule := .dereference, children := [some { rule := .add, children := [some a, some i] }] }

/-- Checking an index, whose type is integral. -/
theorem checkExpression_element {a i : Node} {s s₁ s₂ : Checker} {base offset : Ty}
    (ha : a.checkExpression s = .ok base s₁) (hi : i.checkExpression s₁ = .ok offset s₂)
    (hoffset : offset.isIntegral = true) :
    (element a i).checkExpression s = indexType base (element a i).position s₂ := by
  change (do
    let base ← a.checkExpression
    checkIntegral (← i.checkExpression) i.phrase.position
    indexType base (element a i).position : Check Ty) s = _
  rw [bind_ok ha, bind_ok hi]
  have hintegral : checkIntegral offset i.phrase.position = pure () := by
    unfold checkIntegral
    rw [hoffset]
    rfl
  rw [hintegral, pure_bind]

/-- Checking the target of a sum. -/
theorem checkExpression_targetOfSum {a i : Node} {s s₁ s₂ : Checker} {base offset : Ty}
    (ha : a.checkExpression s = .ok base s₁) (hi : i.checkExpression s₁ = .ok offset s₂) :
    ∃ sum target, (targetOfSum a i).checkExpression s = (do
      unaryType .dereference (← binaryType .arithmetic .add base offset sum) target) s₂ := by
  refine ⟨({ rule := .add, children := [some a, some i] } : Node).position,
    (targetOfSum a i).position, ?_⟩
  change (do
    let sum ← (do
      let base ← a.checkExpression
      let offset ← i.checkExpression
      binaryType .arithmetic .add base offset
        ({ rule := .add, children := [some a, some i] } : Node).position)
    unaryType .dereference sum (targetOfSum a i).position : Check Ty) s = _
  rw [bind_assoc, bind_ok ha, bind_assoc, bind_ok hi]

/-- Indexing agrees with pointer arithmetic. If a base and then an index of an integral type can be
checked, then so can the element at the index and the target of the sum. Both record the same uses
of names, report equally many problems and leave the same table behind, and their types are the same
unless both are unknown. -/
theorem checkExpression_element_targetOfSum {a i : Node} {s s₁ s₂ : Checker} {base offset : Ty}
    (ha : a.checkExpression s = .ok base s₁) (hi : i.checkExpression s₁ = .ok offset s₂)
    (hoffset : offset.isIntegral = true) :
    ∃ t u s' s'', (element a i).checkExpression s = .ok t s' ∧
      (targetOfSum a i).checkExpression s = .ok u s'' ∧
      s'.resolutions = s''.resolutions ∧ s'.diagnostics.length = s''.diagnostics.length ∧
      s'.symbols = s''.symbols ∧
      (t.isUnknown = true ∧ u.isUnknown = true ∨ sameType t u = true) := by
  obtain ⟨sum, target, hsum⟩ := checkExpression_targetOfSum ha hi
  rw [checkExpression_element ha hi hoffset, hsum]
  cases indexType_concur base hoffset (element a i).position sum target with
  | @settled t u hindex htarget htypes =>
    rw [hindex, htarget]
    refine ⟨t, u, s₂, s₂, rfl, rfl, rfl, rfl, rfl, htypes.imp_right ?_⟩
    rintro rfl
    exact sameType_refl t
  | @rejected e e' position position' hindex htarget =>
    have hsame : ∀ d, s₂.reported d = s₂.withReportsOf (s₂.reported d) :=
      fun d => (s₂.withReportsOf_reported d).symm
    rw [hindex, htarget]
    refine ⟨.unknown, .unknown, s₂.reported ⟨e, position⟩, s₂.reported ⟨e', position'⟩,
      rfl, rfl, ?_, ?_, ?_, .inl ⟨rfl, rfl⟩⟩
    · rw [hsame, hsame ⟨e', position'⟩]
      rfl
    · rw [Checker.diagnostics_reported, Checker.diagnostics_reported]
      split <;> simp
    · rw [hsame, hsame ⟨e', position'⟩]
      rfl

/-- The state behind `int grid[2][3];`. -/
def gridState : Checker :=
  { symbols.current := { kind := .global, bindings := [("grid", .array (.array .int 3) 2)] } }

/-- The rows of a grid are found either way. -/
theorem checkExpression_grid :
    let grid : Node := .leaf ⟨.identifier, "grid", ⟨1, "grid.cpp"⟩⟩
    let row : Node := .leaf ⟨.charConst, "'a'", ⟨1, "grid.cpp"⟩⟩
    ∃ s₁ s₂, grid.checkExpression gridState = .ok (.array (.array .int 3) 2) s₁ ∧
      row.checkExpression s₁ = .ok .char s₂ ∧ Ty.char.isIntegral = true ∧
      ∃ s' s'', (element grid row).checkExpression gridState = .ok (.array .int 3) s' ∧
        (targetOfSum grid row).checkExpression gridState = .ok (.array .int 3) s'' ∧
        s'.resolutions = s''.resolutions ∧ s'.diagnostics.length = s''.diagnostics.length ∧
        s'.symbols = s''.symbols := by
  intro grid row
  obtain ⟨s₁, hgrid⟩ : ∃ s₁, grid.checkExpression gridState = .ok (.array (.array .int 3) 2) s₁ :=
    ⟨_, rfl⟩
  have hrow : row.checkExpression s₁ = .ok .char s₁ := rfl
  refine ⟨s₁, s₁, hgrid, hrow, rfl, ?_⟩
  obtain ⟨t, u, s', s'', helement, htarget, hresolutions, hlength, hsymbols, -⟩ :=
    checkExpression_element_targetOfSum hgrid hrow rfl
  have ht : t = .array .int 3 := (EStateM.Result.ok.inj helement).1.symm
  have hu : u = .array .int 3 := (EStateM.Result.ok.inj htarget).1.symm
  subst ht hu
  exact ⟨s', s'', helement, htarget, hresolutions, hlength, hsymbols⟩

end Node

end CWithClasses
