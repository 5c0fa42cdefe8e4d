import CWithClasses.Check.Operator
import CWithClasses.Proofs.Pairs.Expression
import CWithClasses.Proofs.Relabeling
import CWithClasses.Scope.Lifetime
import Mathlib.Logic.Function.Basic

/-!
# Renumbered types

Classes and functions are known by their numbers. If both are renumbered, so that different ones
stay different, nothing about a type changes but the numbers in it: it is written as before, and it
is compatible with the same types as before. The lemmas here say so for everything that a check asks
about types.
-/

namespace CWithClasses

/-- New numbers for classes and functions. -/
structure Renaming where
  cls : Nat → Nat
  fn : Nat → Nat
  injective_cls : Function.Injective cls
  injective_fn : Function.Injective fn

namespace Renaming

/-- All numbers stay. -/
protected def id : Renaming :=
  ⟨fun i => i, fun i => i, Function.injective_id, Function.injective_id⟩

variable (σ : Renaming) {i j : Nat}

/-- Different classes stay different. -/
@[simp] theorem cls_inj : σ.cls i = σ.cls j ↔ i = j := σ.injective_cls.eq_iff

/-- Different functions stay different. -/
@[simp] theorem fn_inj : σ.fn i = σ.fn j ↔ i = j := σ.injective_fn.eq_iff

end Renaming

variable (σ : Renaming)

/-- The class with its new number. -/
def ClassRef.rename (c : ClassRef) : ClassRef := { c with id := σ.cls c.id }

/-- New numbers are new labels. -/
def Renaming.labels : Relabeling where
  cls := ClassRef.rename σ
  fn := σ.fn
  required n := n
  id_cls _ _ := σ.cls_inj

mutual

/-- The type with new numbers. -/
def Ty.rename : Ty → Ty
  | .int => .int
  | .double => .double
  | .char => .char
  | .bool => .bool
  | .void => .void
  | .unknown => .unknown
  | .object c => .object (c.rename σ)
  | .array element size => .array element.rename size
  | .function id result params required =>
      .function (σ.fn id) result.rename (Ty.renameAll params) required
  | .pointer target => .pointer target.rename

/-- Types with new numbers. -/
def Ty.renameAll : List Ty → List Ty
  | [] => []
  | t :: rest => t.rename :: Ty.renameAll rest

end

/-- The function with new numbers. -/
def FunctionTy.rename (f : FunctionTy) : FunctionTy :=
  ⟨σ.fn f.id, f.result.rename σ, f.params.map (Ty.rename σ), f.required⟩

/-- The mentioned classes and functions with their new numbers. -/
def Mentions.rename (m : Mentions) : Mentions := ⟨m.functions.map σ.fn, m.classes.map σ.cls⟩

namespace Ty

variable {σ}

/-- The types of a row are renumbered one by one. -/
@[simp] theorem renameAll_eq (ts : List Ty) : renameAll σ ts = ts.map (rename σ) := by
  induction ts with
  | nil => rfl
  | cons t rest ih => rw [renameAll, ih, List.map_cons]

/-- A renumbered function type. -/
@[simp] theorem rename_function (id : Nat) (result : Ty) (params : List Ty) (required : Nat) :
    (function id result params required).rename σ =
      .function (σ.fn id) (result.rename σ) (params.map (rename σ)) required := by
  rw [rename, renameAll_eq]

@[simp] theorem rename_object (c : ClassRef) : (object c).rename σ = .object (c.rename σ) := rfl

@[simp] theorem rename_array (element : Ty) (size : Nat) :
    (array element size).rename σ = .array (element.rename σ) size := rfl

@[simp] theorem rename_pointer (target : Ty) :
    (pointer target).rename σ = .pointer (target.rename σ) := rfl

mutual

/-- If all numbers stay, so does a type. -/
theorem rename_id : ∀ t : Ty, t.rename .id = t
  | .int | .double | .char | .bool | .void | .unknown => rfl
  | .object _ => rfl
  | .array element size => by rw [rename_array, rename_id element]
  | .function id result params required => by
      rw [rename, rename_id result, renameAll_id params]
      rfl
  | .pointer target => by rw [rename_pointer, rename_id target]

/-- If all numbers stay, so do the types of a row. -/
theorem renameAll_id : ∀ ts : List Ty, renameAll .id ts = ts
  | [] => rfl
  | t :: rest => by rw [renameAll, rename_id t, renameAll_id rest]

end

mutual

/-- Numbers are labels. -/
theorem rename_eq_relabel : ∀ t : Ty, t.rename σ = t.relabel σ.labels
  | .int | .double | .char | .bool | .void | .unknown => rfl
  | .object _ => rfl
  | .array element size => by rw [rename_array, relabel, rename_eq_relabel element]
  | .function id result params required => by
      rw [rename, relabel, rename_eq_relabel result, renameAll_eq_relabelAll params]
      rfl
  | .pointer target => by rw [rename_pointer, relabel, rename_eq_relabel target]

/-- Numbers are labels. -/
theorem renameAll_eq_relabelAll : ∀ ts : List Ty, renameAll σ ts = relabelAll σ.labels ts
  | [] => rfl
  | t :: rest => by
      rw [renameAll, relabelAll, rename_eq_relabel t, renameAll_eq_relabelAll rest]

end

/-! ### What a type is -/

@[simp] theorem isPointer_rename (t : Ty) : (t.rename σ).isPointer = t.isPointer := by
  cases t <;> rfl

@[simp] theorem isUnknown_rename (t : Ty) : (t.rename σ).isUnknown = t.isUnknown := by
  fun_induction isUnknown t with
  | case1 => rfl
  | case2 target ih => exact ih
  | case3 t => cases t <;> simp_all [rename, isUnknown]

@[simp] theorem isVoid_rename (t : Ty) : (t.rename σ).isVoid = t.isVoid := by
  cases t <;> rfl

@[simp] theorem rank?_rename (t : Ty) : (t.rename σ).rank? = t.rank? := by
  cases t <;> rfl

@[simp] theorem isArithmetic_rename (t : Ty) : (t.rename σ).isArithmetic = t.isArithmetic := by
  simp [isArithmetic]

@[simp] theorem isIntegral_rename (t : Ty) : (t.rename σ).isIntegral = t.isIntegral := by
  cases t <;> rfl

@[simp] theorem isStream_rename (t : Ty) : (t.rename σ).isStream = t.isStream := by
  cases t <;> rfl

@[simp] theorem isAssignable_rename (t : Ty) : (t.rename σ).isAssignable = t.isAssignable := by
  cases t <;> rfl

@[simp] theorem decay_rename (t : Ty) : (t.rename σ).decay = t.decay.rename σ := by
  cases t <;> rfl

@[simp] theorem pointee?_rename (t : Ty) : (t.rename σ).pointee? = t.pointee?.map (rename σ) := by
  cases t <;> rfl

@[simp] theorem isScalar_rename (t : Ty) : (t.rename σ).isScalar = t.isScalar := by
  simp [isScalar]

@[simp] theorem function?_rename (t : Ty) :
    (t.rename σ).function? = t.function?.map (FunctionTy.rename σ) := by
  cases t <;> simp [function?, rename, FunctionTy.rename]

@[simp] theorem asFunction?_rename (t : Ty) :
    (t.rename σ).asFunction? = t.asFunction?.map (FunctionTy.rename σ) := by
  cases t with
  | pointer target => cases target <;> simp [asFunction?, rename, FunctionTy.rename]
  | _ => simp [asFunction?, rename, FunctionTy.rename]

@[simp] theorem objectClass?_rename (t : Ty) :
    (t.rename σ).objectClass? = t.objectClass?.map (ClassRef.rename σ) := by
  cases t <;> rfl

@[simp] theorem asClass?_rename (t : Ty) :
    (t.rename σ).asClass? = t.asClass?.map (ClassRef.rename σ) := by
  fun_induction asClass? t with
  | case1 => rfl
  | case2 target ih => exact ih
  | case3 t => cases t <;> simp_all [rename, asClass?]

mutual

/-- A type is written without its numbers. -/
@[simp] theorem render_rename : ∀ t : Ty, (t.rename σ).render = t.render
  | .int | .double | .char | .bool | .void | .unknown => rfl
  | .object _ => rfl
  | .array element size => by rw [rename_array, render, render, render_rename element]
  | .function id result params required => by
      rw [rename, render, render, render_rename result, renderParams_rename params]
  | .pointer target => by
      rw [rename_pointer, render, render, render_rename target, starred, starred, isPointer_rename]

/-- Parameters are written without their numbers. -/
theorem renderParams_rename : ∀ ts : List Ty, renderParams (renameAll σ ts) = renderParams ts
  | [] => rfl
  | [t] => by rw [renameAll, renameAll, renderParams, renderParams, render_rename t]
  | t :: next :: rest => by
      have hrest := renderParams_rename (next :: rest)
      change (t.rename σ).render ++ ", " ++ renderParams (renameAll σ (next :: rest)) =
        t.render ++ ", " ++ renderParams (next :: rest)
      rw [render_rename t, hrest]

end

end Ty

/-! ### Types compared with one another -/

section Comparison

variable {σ}

@[simp] theorem sameType_rename (s t : Ty) : sameType (s.rename σ) (t.rename σ) = sameType s t := by
  rw [Ty.rename_eq_relabel, Ty.rename_eq_relabel, sameType_relabel]

@[simp] theorem compatible_rename (s t : Ty) :
    compatible (s.rename σ) (t.rename σ) = compatible s t := by
  rw [Ty.rename_eq_relabel, Ty.rename_eq_relabel, compatible_relabel]

@[simp] theorem commonArithmetic?_rename (s t : Ty) :
    commonArithmetic? (s.rename σ) (t.rename σ) = (commonArithmetic? s t).map (Ty.rename σ) := by
  rw [Ty.rename_eq_relabel s, Ty.rename_eq_relabel t, commonArithmetic?_relabel,
    funext Ty.rename_eq_relabel]

@[simp] theorem commonType?_rename (s t : Ty) :
    commonType? (s.rename σ) (t.rename σ) = (commonType? s t).map (Ty.rename σ) := by
  rw [Ty.rename_eq_relabel s, Ty.rename_eq_relabel t, commonType?_relabel,
    funext Ty.rename_eq_relabel]

@[simp] theorem initializable_rename (s t : Ty) :
    initializable (s.rename σ) (t.rename σ) = initializable s t := by
  unfold initializable
  rw [compatible_rename]
  cases s with
  | array element size =>
    cases element with
    | char =>
      cases t with
      | pointer target => cases target <;> rfl
      | _ => rfl
    | _ => rfl
  | _ => rfl

@[simp] theorem promote_rename (t : Ty) : promote (t.rename σ) = (promote t).rename σ := by
  have hcommon := commonArithmetic?_rename (σ := σ) t .int
  change commonArithmetic? (t.rename σ) .int = _ at hcommon
  unfold promote
  rw [hcommon]
  cases commonArithmetic? t .int <;> rfl

@[simp] theorem comparable_rename (s t : Ty) :
    comparable (s.rename σ) (t.rename σ) = comparable s t := by
  simp [comparable]

@[simp] theorem sameSignature_rename (s t : Ty) :
    sameSignature (s.rename σ) (t.rename σ) = sameSignature s t := by
  cases s with
  | function i r ps m =>
    cases t with
    | function j s qs n =>
      rw [Ty.rename, Ty.rename, sameSignature, sameSignature, Ty.renameAll_eq_relabelAll,
        Ty.renameAll_eq_relabelAll, sameTypes_relabel, sameType_rename]
    | _ => rfl
  | _ => rfl

@[simp] theorem AssignKind.accepts_rename (kind : AssignKind) (s t : Ty) :
    kind.accepts (s.rename σ) (t.rename σ) = kind.accepts s t := by
  cases kind <;> simp [accepts]

@[simp] theorem unknownOperand_rename (rule : Rule) (t : Ty) :
    unknownOperand rule (t.rename σ) = (unknownOperand rule t).rename σ := by
  unfold unknownOperand
  split <;> rfl

@[simp] theorem unknownOperands_rename (kind : BinaryKind) (t : Ty) :
    unknownOperands kind (t.rename σ) = (unknownOperands kind t).rename σ := by
  unfold unknownOperands
  split
  · rfl
  · rfl
  · rw [Ty.isStream_rename]
    split <;> rfl

end Comparison

/-! ### What a type mentions -/

/-- The new number of a function or of a class. -/
def Renaming.either : Nat ⊕ Nat → Nat ⊕ Nat := Sum.map σ.fn σ.cls

namespace Mentions

variable {σ} {α : Type} {x : Nat ⊕ Nat}

/-- Whether a function or a class is mentioned. -/
def Has (m : Mentions) : Nat ⊕ Nat → Prop
  | .inl i => i ∈ m.functions
  | .inr i => i ∈ m.classes

/-- What either of two things mentions. -/
@[simp] theorem has_append (a b : Mentions) : (a ++ b).Has x ↔ a.Has x ∨ b.Has x := by
  cases x <;> exact List.mem_append

/-- Nothing mentions nothing. -/
@[simp] theorem not_has_empty : ¬ ({} : Mentions).Has x := by
  cases x <;> exact List.not_mem_nil

/-- What any of some things mentions. -/
@[simp] theorem has_ofList {f : α → Mentions} {items : List α} :
    (ofList f items).Has x ↔ ∃ a ∈ items, (f a).Has x := by
  induction items with
  | nil =>
    change ({} : Mentions).Has x ↔ _
    simp
  | cons a rest ih =>
    change (f a ++ ofList f rest).Has x ↔ _
    rw [has_append, ih]
    simp

/-- A class is mentioned by its number. -/
theorem has_ofClass {c : ClassRef} : (ofClass c).Has x ↔ x = .inr c.id := by
  cases x with
  | inl i => simp [Has, ofClass]
  | inr i => simp [Has, ofClass]

/-- What is mentioned after renumbering has been mentioned before. -/
theorem has_rename {m : Mentions} : (m.rename σ).Has (σ.either x) ↔ m.Has x := by
  cases x with
  | inl i =>
    change σ.fn i ∈ m.functions.map σ.fn ↔ i ∈ m.functions
    simp
  | inr i =>
    change σ.cls i ∈ m.classes.map σ.cls ↔ i ∈ m.classes
    simp

/-- Mentions are renumbered one by one. -/
theorem rename_append (a b : Mentions) : (a ++ b).rename σ = a.rename σ ++ b.rename σ := by
  change Mentions.mk _ _ = Mentions.mk _ _
  exact congrArg₂ _ List.map_append List.map_append

end Mentions

mutual

/-- A renumbered type mentions the renumbered classes and functions. -/
theorem Ty.mentions_rename {σ : Renaming} : ∀ t : Ty, (t.rename σ).mentions = t.mentions.rename σ
  | .int | .double | .char | .bool | .void | .unknown => rfl
  | .object _ => rfl
  | .array element size => by rw [rename_array, mentions, mentions, mentions_rename element]
  | .function id result params required => by
      rw [rename, mentions, mentions, mentions_rename result, mentionsOf_rename params,
        Mentions.rename_append, Mentions.rename_append]
      rfl
  | .pointer target => by rw [rename_pointer, mentions, mentions, mentions_rename target]

/-- So do the types of a row. -/
theorem Ty.mentionsOf_rename {σ : Renaming} : ∀ ts : List Ty,
    mentionsOf (renameAll σ ts) = (mentionsOf ts).rename σ
  | [] => rfl
  | t :: rest => by
      rw [renameAll, mentionsOf, mentionsOf, mentions_rename t, mentionsOf_rename rest,
        Mentions.rename_append]

end

mutual

/-- Only the numbers that a type mentions matter. -/
theorem Ty.rename_congr {σ τ : Renaming} : ∀ {t : Ty},
    (∀ x, t.mentions.Has x → σ.either x = τ.either x) → t.rename σ = t.rename τ
  | .int, _ | .double, _ | .char, _ | .bool, _ | .void, _ | .unknown, _ => rfl
  | .object c, h => by
      have hid : σ.cls c.id = τ.cls c.id :=
        Sum.inr.inj (h (.inr c.id) (Mentions.has_ofClass.mpr rfl))
      rw [rename_object, rename_object]
      unfold ClassRef.rename
      rw [hid]
  | .array element size, h => by
      have helement : element.rename σ = element.rename τ := rename_congr fun x hx => h x hx
      rw [rename_array, rename_array, helement]
  | .pointer target, h => by
      have htarget : target.rename σ = target.rename τ := rename_congr fun x hx => h x hx
      rw [rename_pointer, rename_pointer, htarget]
  | .function id result params required, h => by
      have hmention : (function id result params required).mentions.Has (.inl id) := by
        rw [mentions, Mentions.has_append, Mentions.has_append]
        exact .inl (.inl (List.mem_singleton_self id))
      have hid : σ.fn id = τ.fn id := Sum.inl.inj (h (.inl id) hmention)
      have hresult : result.rename σ = result.rename τ :=
        rename_congr fun x hx => h x (by simp [mentions, hx])
      have hparams : renameAll σ params = renameAll τ params :=
        renameAll_congr fun x hx => h x (by simp [mentions, hx])
      rw [rename, rename, hid, hresult, hparams]

/-- Only the numbers that types mention matter. -/
theorem Ty.renameAll_congr {σ τ : Renaming} : ∀ {ts : List Ty},
    (∀ x, (mentionsOf ts).Has x → σ.either x = τ.either x) → renameAll σ ts = renameAll τ ts
  | [], _ => rfl
  | t :: rest, h => by
      have hfirst : t.rename σ = t.rename τ :=
        rename_congr fun x hx => h x (by simp [mentionsOf, hx])
      have hrest : renameAll σ rest = renameAll τ rest :=
        renameAll_congr fun x hx => h x (by simp [mentionsOf, hx])
      rw [renameAll, renameAll, hfirst, hrest]

end

/-- A type without numbers stays as it is. -/
theorem Ty.rename_eq_self {σ : Renaming} {t : Ty} (h : ∀ x, ¬ t.mentions.Has x) :
    t.rename σ = t := by
  rw [rename_congr (fun x hx => absurd hx (h x)), rename_id]

end CWithClasses
