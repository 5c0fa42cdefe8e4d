import CWithClasses.Check.Meaning
import CWithClasses.Proofs.Integers
import CWithClasses.Proofs.Layout
import CWithClasses.Proofs.Logic.Basic

/-!
# Dimensions of arrays

A dimension may be an integer literal, which is the size of the array; a constant that cannot be a
size, which is reported; or any other expression, which is checked and leaves the size open.

Constants are told by their tokens, without evaluating anything. A literal has its token itself or
in a leaf below. Under a minus sign, the same token is looked for in any operand, be it a literal or
not: the operand of `-(1 - 2)` has the token `1` in a leaf below, just as the literal `1` would. So
this dimension is reported as if it were `-1`, although it is no negated literal and its value is
positive.
-/

namespace CWithClasses

open Check

/-! ### Integer literals -/

/-- The text of a token spells an integer of the given value. -/
def Token.Denotes (t : Token) (v : Nat) : Prop :=
  ∃ r ns, Spells r ns t.text.toList ∧ v = Nat.ofDigits r.base ns.reverse

namespace Node

/-- The token of a tree or, if the tree has none, that of its first child. -/
def carried? (n : Node) : Option Token := n.token.or ((n.child? 0).bind (·.token))

/-- The tree is an integer literal with the given token. -/
structure IsInteger (n : Node) (t : Token) : Prop where
  rule : n.rule = .token ∨ n.rule = .literal
  carries : n.carried? = some t
  kind : t.kind = .intConst

/-- The tree is a minus sign in front of an integer literal. -/
def Negates (n : Node) (t : Token) : Prop :=
  n.rule = .unaryMinus ∧ ∃ m, n.child? 0 = some m ∧ m.IsInteger t

/-- The tree is a minus sign in front of something that is no literal, but carries the token of an
integer like one. -/
def SeemsToNegate (n : Node) (t : Token) : Prop :=
  n.rule = .unaryMinus ∧ ∃ m, n.child? 0 = some m ∧ m.rule ≠ .token ∧ m.rule ≠ .literal ∧
    m.carried? = some t ∧ t.kind = .intConst

end Node

namespace Token

variable {t : Token} {v : Nat}

/-- An integer token has the value that its text spells, provided that it fits into a word. -/
theorem intValue?_eq_some_iff (hkind : t.kind = .intConst) :
    t.intValue? = some v ↔ t.Denotes v ∧ v < wordSize := by
  rw [intValue?, if_pos hkind, parseInteger_eq_some_iff]
  constructor
  · rintro ⟨r, ns, hspells, hv, hlt⟩
    exact ⟨⟨r, ns, hspells, hv⟩, hlt⟩
  · rintro ⟨⟨r, ns, hspells, hv⟩, hlt⟩
    exact ⟨r, ns, hspells, hv, hlt⟩

/-- An integer token has no value if its text spells none that fits into a word. -/
theorem intValue?_eq_none_iff (hkind : t.kind = .intConst) :
    t.intValue? = none ↔ ∀ v, t.Denotes v → wordSize ≤ v := by
  rw [Option.eq_none_iff_forall_ne_some]
  refine forall_congr' fun v => ?_
  rw [ne_eq, intValue?_eq_some_iff hkind, not_and, not_lt]

/-- Zero always fits into a word. -/
theorem intValue?_eq_zero_iff (hkind : t.kind = .intConst) :
    t.intValue? = some 0 ↔ t.Denotes 0 := by
  rw [intValue?_eq_some_iff hkind]
  exact and_iff_left (by decide)

end Token

/-! ### Constants in trees -/

namespace Node

variable {n : Node} {t : Token}

/-- The token of a literal is the one that it carries. -/
theorem toOption_literalToken (n : Node) : n.literalToken.toOption = n.carried? := by
  unfold literalToken carried? child
  cases n.token with
  | some own => rfl
  | none =>
    cases n.child? 0 with
    | none => rfl
    | some m =>
      change m.leafToken.toOption = m.token
      unfold leafToken
      cases m.token <;> rfl

/-- The constant of an integer literal is the value of its token. -/
theorem IsInteger.integerConstant?_eq (h : n.IsInteger t) : n.integerConstant? = t.intValue? := by
  unfold integerConstant?
  rcases h.rule with hrule | hrule <;>
    rw [hrule, toOption_literalToken, h.carries, Option.bind_some]

/-- An integer literal without a value cannot be a size. -/
theorem IsInteger.invalidSize?_eq (h : n.IsInteger t) (hvalue : t.intValue? = none) :
    n.invalidSize? = some t.text := by
  unfold invalidSize?
  rcases h.rule with hrule | hrule <;> rw [hrule, toOption_literalToken, h.carries] <;>
    simp [h.kind, hvalue]

/-- Under a minus sign it does not matter what carries the token of an integer. -/
theorem negates_or_seemsToNegate_iff : n.Negates t ∨ n.SeemsToNegate t ↔
    n.rule = .unaryMinus ∧ ∃ m, n.child? 0 = some m ∧ m.carried? = some t ∧ t.kind = .intConst := by
  constructor
  · rintro (⟨hrule, m, hm, ht⟩ | ⟨hrule, m, hm, _, _, ht, hkind⟩)
    · exact ⟨hrule, m, hm, ht.carries, ht.kind⟩
    · exact ⟨hrule, m, hm, ht, hkind⟩
  · rintro ⟨hrule, m, hm, ht, hkind⟩
    by_cases hliteral : m.rule = .token ∨ m.rule = .literal
    · exact .inl ⟨hrule, m, hm, hliteral, ht, hkind⟩
    · obtain ⟨htoken, hliteral⟩ := not_or.mp hliteral
      exact .inr ⟨hrule, m, hm, htoken, hliteral, ht, hkind⟩

/-- Only literals are integer constants. -/
theorem integerConstant?_eq_none (h : ∀ t, ¬ n.IsInteger t) : n.integerConstant? = none := by
  have hnone : n.rule = .token ∨ n.rule = .literal → n.carried?.bind (·.intValue?) = none := by
    intro hrule
    rw [Option.bind_eq_none_iff]
    intro t ht
    exact if_neg fun hkind => h t ⟨hrule, ht, hkind⟩
  unfold integerConstant?
  rw [toOption_literalToken]
  split
  next hrule => exact hnone (.inr hrule)
  next hrule => exact hnone (.inl hrule)
  next => rfl

/-- Under a minus sign, the token of an integer other than zero cannot be a size. -/
theorem invalidSize?_of_negates (h : n.Negates t ∨ n.SeemsToNegate t) (hzero : ¬ t.Denotes 0) :
    n.invalidSize? = some ("-" ++ t.text) := by
  obtain ⟨hrule, m, hm, ht, hkind⟩ := negates_or_seemsToNegate_iff.mp h
  have hvalue : t.intValue? ≠ some 0 := fun h => hzero ((Token.intValue?_eq_zero_iff hkind).mp h)
  unfold invalidSize?
  rw [hrule]
  simp [hm, toOption_literalToken, ht, hkind, hvalue]

/-- Nothing but literals and minus signs is refused as a size. -/
theorem invalidSize?_eq_none (h : ∀ t, ¬ n.IsInteger t)
    (hminus : ∀ t, n.Negates t ∨ n.SeemsToNegate t → t.Denotes 0) : n.invalidSize? = none := by
  have hnone : n.rule = .token ∨ n.rule = .literal → (n.literalToken.toOption.bind fun t =>
      if t.kind = .intConst ∧ t.intValue?.isNone then some t.text else none) = none := by
    intro hrule
    rw [toOption_literalToken, Option.bind_eq_none_iff]
    intro t ht
    exact if_neg fun hinvalid => h t ⟨hrule, ht, hinvalid.1⟩
  unfold invalidSize?
  split
  next hrule =>
    refine Option.bind_eq_none_iff.mpr fun m hm => ?_
    rw [toOption_literalToken]
    refine Option.bind_eq_none_iff.mpr fun t ht => if_pos ?_
    by_cases hkind : t.kind = .intConst
    · have hzero := hminus t (negates_or_seemsToNegate_iff.mpr ⟨hrule, m, hm, ht, hkind⟩)
      exact .inr ((Token.intValue?_eq_zero_iff hkind).mpr hzero)
    · exact .inl hkind
  next hrule => exact hnone (.inr hrule)
  next hrule => exact hnone (.inl hrule)
  next => rfl

/-- A minus sign is no literal. -/
theorem not_isInteger_of_negates {u : Token} (h : n.Negates t ∨ n.SeemsToNegate t) :
    ¬ n.IsInteger u := by
  intro hinteger
  obtain ⟨hrule, -⟩ := negates_or_seemsToNegate_iff.mp h
  rcases hinteger.rule with hother | hother <;> rw [hrule] at hother <;> cases hother

/-! ### Sizes -/

/-- A constant is the size of a dimension. -/
theorem checkArraySize_of_constant {v : Nat} (h : n.integerConstant? = some v) (s : Checker) :
    checkArraySize (some n.phrase) s = .ok v s := by
  unfold checkArraySize
  dsimp only
  rw [n.phrase_node, h]
  rfl

/-- A constant that cannot be a size is reported. -/
theorem checkArraySize_of_invalid {spelling : String} (h : n.integerConstant? = none)
    (hinvalid : n.invalidSize? = some spelling) (s : Checker) :
    checkArraySize (some n.phrase) s =
      .ok 0 (s.reported ⟨.typeMismatch "array size" spelling, n.position⟩) := by
  unfold checkArraySize Phrase.position
  dsimp only
  rw [n.phrase_node, h, hinvalid]
  rfl

/-- Anything else is checked as an expression, which has to be integral or unknown. -/
theorem checkArraySize_of_expression (h : n.integerConstant? = none)
    (hinvalid : n.invalidSize? = none) (s : Checker) :
    checkArraySize (some n.phrase) s =
      match n.checkExpression s with
      | .ok ty s' => .ok 0 (if ty.isIntegral || ty.isUnknown then s'
          else s'.reported ⟨.typeMismatch "int" ty.render, n.position⟩)
      | .error e s' => .error e s' := by
  have hchecks : checkArraySize (some n.phrase) = (do
      checkIntegral (← n.checkExpression) n.position
      return 0) := by
    unfold checkArraySize Phrase.position
    dsimp only
    rw [n.phrase_node, h, hinvalid]
    rfl
  rw [hchecks]
  cases hty : n.checkExpression s with
  | error e s' => exact bind_error hty _
  | ok ty s' =>
    rw [bind_ok hty]
    unfold checkIntegral
    dsimp only
    cases ty.isIntegral || ty.isUnknown <;> rfl

/-- Dimensions are told apart by their constants. An integer literal is the size if its value fits
into a word of 64 bits, and it is reported otherwise. A minus sign in front of an integer literal
other than zero is reported, and so is one in front of anything that carries the token of such an
integer. Every other dimension is checked as an expression, and its type is reported unless it is
integral or unknown. -/
theorem checkArraySize_classified (n : Node) (s : Checker) :
    (∀ t v, n.IsInteger t → t.Denotes v → v < 2 ^ 64 →
      checkArraySize (some n.phrase) s = .ok v s) ∧
    (∀ t, n.IsInteger t → (∀ v, t.Denotes v → 2 ^ 64 ≤ v) →
      checkArraySize (some n.phrase) s =
        .ok 0 (s.reported ⟨.typeMismatch "array size" t.text, n.position⟩)) ∧
    (∀ t, n.Negates t ∨ n.SeemsToNegate t → ¬ t.Denotes 0 →
      checkArraySize (some n.phrase) s =
        .ok 0 (s.reported ⟨.typeMismatch "array size" ("-" ++ t.text), n.position⟩)) ∧
    ((∀ t, ¬ n.IsInteger t) → (∀ t, n.Negates t ∨ n.SeemsToNegate t → t.Denotes 0) →
      checkArraySize (some n.phrase) s =
        match n.checkExpression s with
        | .ok ty s' => .ok 0 (if ty.isIntegral || ty.isUnknown then s'
            else s'.reported ⟨.typeMismatch "int" ty.render, n.position⟩)
        | .error e s' => .error e s') := by
  refine ⟨?_, ?_, ?_, ?_⟩
  · intro t v ht hv hlt
    refine checkArraySize_of_constant ?_ s
    rw [ht.integerConstant?_eq]
    exact (Token.intValue?_eq_some_iff ht.kind).mpr ⟨hv, hlt⟩
  · intro t ht hlarge
    have hvalue := (Token.intValue?_eq_none_iff ht.kind).mpr hlarge
    exact checkArraySize_of_invalid (ht.integerConstant?_eq.trans hvalue)
      (ht.invalidSize?_eq hvalue) s
  · intro t ht hzero
    exact checkArraySize_of_invalid (integerConstant?_eq_none fun _ => not_isInteger_of_negates ht)
      (invalidSize?_of_negates ht hzero) s
  · intro hliteral hminus
    exact checkArraySize_of_expression (integerConstant?_eq_none hliteral)
      (invalidSize?_eq_none hliteral hminus) s

/-- `-(1 - 2)`, which has the value one. -/
def negatedDifference : Node :=
  { rule := .unaryMinus
    children := [some
      { rule := .subtract
        children := [word .intConst "1", word .intConst "2"] }] }

/-- A negated difference is an expression of type `int` without any problem, and neither a literal
nor a negated one. As a dimension it is reported all the same, as if it were its first operand with
a minus sign. -/
theorem checkArraySize_negatedDifference :
    negatedDifference.conforms .expression = true ∧ (∀ t, ¬ negatedDifference.IsInteger t) ∧
      (∀ t, ¬ negatedDifference.Negates t) ∧ negatedDifference.checkExpression {} = .ok .int {} ∧
      ∃ s, checkArraySize (some negatedDifference.phrase) {} = .ok 0 s ∧
        s.diagnostics = [⟨.typeMismatch "array size" "-1", ⟨1, "main.cpp"⟩⟩] := by
  refine ⟨rfl, ?_, ?_, rfl, _, rfl, rfl⟩
  · rintro t ⟨hrule | hrule, -, -⟩ <;> cases hrule
  · rintro t ⟨-, m, hm, hrule, -, -⟩
    cases hm
    rcases hrule with hrule | hrule <;> cases hrule

end Node

end CWithClasses
