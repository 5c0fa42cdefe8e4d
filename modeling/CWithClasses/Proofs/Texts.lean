import CWithClasses.Proofs.Sameness
import CWithClasses.Scope.Lifetime
import Mathlib.Data.List.Induction

/-!
# Texts of types

The text of a type in which no class occurs tells the type, up to what takes no part in sameness. It
is read from its end: the last character tells whether the type is a pointer, an array, a function
or which primitive type, and what stands before the stars, the size or the parameters is again the
text of a type. So no such text ends with the text of another type. This is the statement that
carries the induction, since parameters stand behind one another.
-/

namespace CWithClasses

open Ty

/-! ### Texts as characters -/

/-- Two rows that are cut at the last occurrence of a character. -/
theorem append_cons_inj {c : Char} {u v x y : List Char} (hx : c ∉ x) (hy : c ∉ y)
    (h : u ++ c :: x = v ++ c :: y) : u = v ∧ x = y := by
  rcases List.append_eq_append_iff.mp h with ⟨w, hv, hw⟩ | ⟨w, hu, hw⟩
  · cases w with
    | nil => simp_all
    | cons d w =>
      obtain ⟨rfl, rfl⟩ := List.cons.inj hw
      simp at hx
  · cases w with
    | nil => simp_all
    | cons d w =>
      obtain ⟨rfl, rfl⟩ := List.cons.inj hw
      simp at hy

namespace Ty

/-- The characters of the text of a type. -/
def text (t : Ty) : List Char := t.render.toList

/-- The characters of the texts of parameters. -/
def textOf (params : List Ty) : List Char := (renderParams params).toList

/-- The last character of the text of a type in which no class occurs. -/
def lastChar : Ty → Char
  | .int => 't'
  | .double => 'e'
  | .char => 'r'
  | .bool => 'l'
  | .void => 'd'
  | .unknown => '>'
  | .object _ => ' '
  | .array _ _ => ']'
  | .function _ _ _ _ => ')'
  | .pointer _ => '*'

variable {a b : Ty} {u v : List Char}

/-- The text of an array. -/
theorem text_array (element : Ty) (size : Nat) :
    (array element size).text = (element.text ++ '[' :: Nat.toDigits 10 size) ++ [']'] := by
  simp [text, render]

/-- The text of a function. -/
theorem text_function (id : Nat) (result : Ty) (params : List Ty) (required : Nat) :
    (function id result params required).text =
      ((result.text ++ [' ']) ++ '(' :: textOf params) ++ [')'] := by
  simp [text, textOf, render]

/-- What stands before the star of a pointer. Only the first star is set off by a blank. -/
def gap (target : Ty) : List Char := if target.isPointer then [] else [' ']

/-- The text of a pointer. -/
theorem text_pointer (target : Ty) :
    (pointer target).text = (target.text ++ target.gap) ++ ['*'] := by
  unfold text gap
  rw [render, starred]
  split <;> simp

/-- The text of one more parameter. -/
theorem textOf_append (params : List Ty) (t : Ty) :
    textOf (params ++ [t]) =
      (if params = [] then [] else textOf params ++ [',', ' ']) ++ t.text := by
  induction params with
  | nil => simp [textOf, renderParams, text]
  | cons p rest ih =>
    cases rest with
    | nil => simp [textOf, renderParams, text]
    | cons q rest =>
      rw [if_neg (List.cons_ne_nil _ _)] at ih ⊢
      simp only [textOf, text, List.cons_append, renderParams, String.toList_append] at ih ⊢
      rw [ih]
      simp

/-- The text of a type in which no class occurs ends with its last character. -/
theorem exists_text_eq (h : a.mentions.classes = []) : ∃ front, a.text = front ++ [a.lastChar] := by
  cases a with
  | int => exact ⟨['i', 'n'], rfl⟩
  | double => exact ⟨['d', 'o', 'u', 'b', 'l'], rfl⟩
  | char => exact ⟨['c', 'h', 'a'], rfl⟩
  | bool => exact ⟨['b', 'o', 'o'], rfl⟩
  | void => exact ⟨['v', 'o', 'i'], rfl⟩
  | unknown => exact ⟨"<unknown".toList, rfl⟩
  | object c => cases h
  | array element size => exact ⟨_, text_array element size⟩
  | function id result params required => exact ⟨_, text_function id result params required⟩
  | pointer target => exact ⟨_, text_pointer target⟩

/-- Texts that end alike have the same last character. -/
theorem lastChar_eq (ha : a.mentions.classes = []) (hb : b.mentions.classes = [])
    (h : u ++ a.text = v ++ b.text) : a.lastChar = b.lastChar := by
  obtain ⟨front, hfront⟩ := exists_text_eq ha
  obtain ⟨front', hfront'⟩ := exists_text_eq hb
  rw [hfront, hfront', ← List.append_assoc, ← List.append_assoc] at h
  exact (List.append_singleton_inj.mp h).2

/-! ### Texts that end alike -/

/-- No text ends with the text of the type, but those of the same types. -/
def Telling (a : Ty) : Prop :=
  ∀ b : Ty, b.mentions.classes = [] → ∀ u v : List Char, u ++ a.text = v ++ b.text →
    a.bare = b.bare ∧ u = v

/-- What remains of some types, one by one. -/
theorem bareAll_eq_map (ts : List Ty) : bareAll ts = ts.map bare := by
  induction ts with
  | nil => rfl
  | cons t rest ih => rw [bareAll, ih, List.map_cons]

/-- Parameters behind a parenthesis are told by their text, if each of them is. -/
theorem bareAll_eq_of_text {ps qs : List Ty} (hps : ∀ p ∈ ps, p.mentions.classes = [])
    (hqs : ∀ q ∈ qs, q.mentions.classes = []) (htelling : ∀ p ∈ ps, p.Telling)
    (h : u ++ '(' :: textOf ps = v ++ '(' :: textOf qs) : bareAll ps = bareAll qs ∧ u = v := by
  -- A parameter does not end with a parenthesis, so an empty list is not taken for another one.
  have hnone : ∀ {qs : List Ty} {q : Ty} {u v : List Char}, q.mentions.classes = [] →
      u ++ ['('] ≠ v ++ '(' :: textOf (qs ++ [q]) := by
    intro qs q u v hq h
    obtain ⟨front, hfront⟩ := exists_text_eq hq
    rw [textOf_append, hfront, ← List.cons_append, ← List.append_assoc, ← List.append_assoc] at h
    have hlast := (List.append_singleton_inj.mp h).2
    cases q <;> cases hlast
  induction ps using List.reverseRecOn generalizing qs with
  | nil =>
    cases qs using List.reverseRecOn with
    | nil => exact ⟨rfl, List.append_cancel_right h⟩
    | append_singleton qs q _ => exact absurd h (hnone (hqs q (by simp)))
  | append_singleton ps p ih =>
    cases qs using List.reverseRecOn with
    | nil => exact absurd h.symm (hnone (hps p (by simp)))
    | append_singleton qs q _ =>
      simp only [List.forall_mem_append, List.forall_mem_singleton] at hps hqs htelling
      rw [textOf_append, textOf_append, ← List.cons_append, ← List.cons_append, ← List.append_assoc,
        ← List.append_assoc] at h
      obtain ⟨hlast, hfront⟩ := htelling.2 q hqs.2 _ _ h
      have hcomma : ∀ w x : List Char,
          w ++ '(' :: (x ++ [',', ' ']) = ((w ++ '(' :: x) ++ [',']) ++ [' '] := by
        simp
      have hrest : bareAll ps = bareAll qs ∧ u = v := by
        by_cases hp : ps = [] <;> by_cases hq : qs = []
        · subst hp hq
          exact ⟨rfl, List.append_cancel_right hfront⟩
        · rw [if_pos hp, if_neg hq, hcomma] at hfront
          cases (List.append_singleton_inj.mp hfront).2
        · rw [if_neg hp, if_pos hq, hcomma] at hfront
          cases (List.append_singleton_inj.mp hfront).2
        · rw [if_neg hp, if_neg hq, hcomma, hcomma, List.append_left_inj,
            List.append_left_inj] at hfront
          exact ih hps.1 hqs.1 htelling.1 hfront
      refine ⟨?_, hrest.2⟩
      rw [bareAll_eq_map, bareAll_eq_map] at hrest ⊢
      rw [List.map_append, List.map_append, hrest.1, List.map_singleton, List.map_singleton, hlast]

/-- No class occurs in a function type if none occurs in its parts. -/
theorem classes_function {id required : Nat} {result : Ty} {params : List Ty} :
    (function id result params required).mentions.classes = [] ↔
      result.mentions.classes = [] ∧ ∀ p ∈ params, p.mentions.classes = [] := by
  have hparams : (mentionsOf params).classes = [] ↔ ∀ p ∈ params, p.mentions.classes = [] := by
    induction params with
    | nil => simp [mentionsOf]
    | cons p rest ih =>
      change p.mentions.classes ++ (mentionsOf rest).classes = [] ↔ _
      rw [List.append_eq_nil_iff, ih, List.forall_mem_cons]
  change ([] ++ result.mentions.classes) ++ (mentionsOf params).classes = [] ↔ _
  rw [List.nil_append, List.append_eq_nil_iff, hparams]

/-- A size is no bracket. -/
theorem bracket_not_mem_toDigits (n : Nat) : '[' ∉ Nat.toDigits 10 n := fun h =>
  absurd (Nat.isDigit_of_mem_toDigits (by decide) (by decide) h) (by decide)

/-- The blank that sets off the first star leaves no doubt about what stands before it. -/
theorem text_eq_of_gap (h : u ++ a.text ++ a.gap = v ++ b.text ++ b.gap) :
    u ++ a.text = v ++ b.text := by
  have hstar : ∀ {a : Ty} {u w : List Char}, a.isPointer = true → u ++ a.text ≠ w ++ [' '] := by
    intro a u w ha heq
    cases a <;> cases ha
    rw [text_pointer, ← List.append_assoc] at heq
    cases (List.append_singleton_inj.mp heq).2
  cases ha : a.isPointer <;> cases hb : b.isPointer <;>
    simp only [gap, ha, hb, if_true, if_false, Bool.false_eq_true, List.append_nil] at h
  · exact List.append_cancel_right h
  · exact absurd h.symm (hstar hb)
  · exact absurd h (hstar ha)
  · exact h

mutual

/-- No text ends with that of a type in which no class occurs, but those of the same types. -/
theorem telling : ∀ a : Ty, a.mentions.classes = [] → a.Telling
  | .int, ha | .double, ha | .char, ha | .bool, ha | .void, ha | .unknown, ha => by
      intro b hb u v h
      have hlast := lastChar_eq ha hb h
      cases b <;> cases hlast
      exact ⟨rfl, List.append_cancel_right h⟩
  | .object c, ha => by cases ha
  | .array element m, ha => by
      intro b hb u v h
      have hlast := lastChar_eq ha hb h
      cases b <;> cases hlast
      next element' n =>
        simp only [text_array, ← List.append_assoc, List.append_left_inj] at h
        obtain ⟨hfront, hdigits⟩ :=
          append_cons_inj (bracket_not_mem_toDigits m) (bracket_not_mem_toDigits n) h
        obtain ⟨hbare, huv⟩ := telling element ha element' hb u v hfront
        have hsize : m = n := by
          rw [← Nat.ofDigitChars_ten_toDigits (n := m), hdigits, Nat.ofDigitChars_ten_toDigits]
        rw [bare, bare, hbare, hsize]
        exact ⟨rfl, huv⟩
  | .function id result ps required, ha => by
      intro b hb u v h
      have hlast := lastChar_eq ha hb h
      cases b <;> cases hlast
      next id' result' qs required' =>
        rw [classes_function] at ha hb
        simp only [text_function, ← List.append_assoc, List.append_left_inj] at h
        obtain ⟨hparams, hfront⟩ := bareAll_eq_of_text ha.2 hb.2 (telling_all ps ha.2) h
        rw [List.append_left_inj] at hfront
        obtain ⟨hbare, huv⟩ := telling result ha.1 result' hb.1 u v hfront
        rw [bare, bare, hbare, hparams]
        exact ⟨rfl, huv⟩
  | .pointer target, ha => by
      intro b hb u v h
      have hlast := lastChar_eq ha hb h
      cases b <;> cases hlast
      next target' =>
        simp only [text_pointer, ← List.append_assoc, List.append_left_inj] at h
        obtain ⟨hbare, huv⟩ := telling target ha target' hb u v (text_eq_of_gap h)
        rw [bare, bare, hbare]
        exact ⟨rfl, huv⟩

/-- The same of all types in a row. -/
theorem telling_all : ∀ ts : List Ty, (∀ t ∈ ts, t.mentions.classes = []) → ∀ t ∈ ts, t.Telling
  | [], _, _, ht => by cases ht
  | t :: rest, h, t', ht' => by
      rw [List.forall_mem_cons] at h
      rcases List.mem_cons.mp ht' with heq | ht'
      · rw [heq]
        exact telling t h.1
      · exact telling_all rest h.2 t' ht'

end

/-! ### Texts of the same types -/

/-- What takes no part in sameness does not decide whether a type is a pointer. -/
theorem isPointer_bare (t : Ty) : t.bare.isPointer = t.isPointer := by
  cases t <;> rfl

mutual

/-- What takes no part in sameness does not occur in the text, apart from the names of classes. -/
theorem render_bare : ∀ t : Ty, t.mentions.classes = [] → t.bare.render = t.render
  | .int, _ | .double, _ | .char, _ | .bool, _ | .void, _ | .unknown, _ => rfl
  | .object c, h => by cases h
  | .array element size, h => by rw [bare, render, render, render_bare element h]
  | .function id result params required, h => by
      rw [classes_function] at h
      rw [bare, render, render, render_bare result h.1, renderParams_bare params h.2]
  | .pointer target, h => by
      rw [bare, render, render, starred, starred, isPointer_bare, render_bare target h]

/-- The same of parameters. -/
theorem renderParams_bare : ∀ ts : List Ty, (∀ t ∈ ts, t.mentions.classes = []) →
    renderParams (bareAll ts) = renderParams ts
  | [], _ => rfl
  | [t], h => by
      rw [bareAll, bareAll, renderParams, renderParams, render_bare t (h t List.mem_cons_self)]
  | t :: next :: rest, h => by
      rw [List.forall_mem_cons] at h
      have hrest := renderParams_bare (next :: rest) h.2
      change t.bare.render ++ ", " ++ renderParams (bareAll (next :: rest)) =
        t.render ++ ", " ++ renderParams (next :: rest)
      rw [hrest, render_bare t h.1]

end

end Ty

/-- Texts of types in which no class occurs are equal if and only if the types are the same. -/
theorem render_eq_iff_sameType {a b : Ty} (ha : a.mentions.classes = [])
    (hb : b.mentions.classes = []) :
    a.render = b.render ↔ sameType a b = true := by
  rw [sameType_iff]
  constructor
  · intro h
    have htext : [] ++ a.text = [] ++ b.text := congrArg String.toList h
    exact (telling a ha b hb [] [] htext).1
  · intro h
    rw [← render_bare a ha, h, render_bare b hb]

/-- A function that takes a pointer to an array is told from one that takes an array of pointers. -/
theorem render_pointerToArray_ne :
    let a : Ty := .function 0 (.pointer .int) [.pointer (.array .char 3), .double] 2
    let b : Ty := .function 1 (.pointer .int) [.array (.pointer .char) 3, .double] 2
    a.mentions.classes = [] ∧ b.mentions.classes = [] ∧ a.render = "int * (char[3] *, double)" ∧
      a.render ≠ b.render := by
  refine ⟨rfl, rfl, rfl, fun h => ?_⟩
  exact absurd ((render_eq_iff_sameType rfl rfl).mp h) (by decide)

end CWithClasses
