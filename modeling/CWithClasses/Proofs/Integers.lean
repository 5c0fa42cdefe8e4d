import CWithClasses.Tree.Literal
import Mathlib.Data.List.Basic
import Mathlib.Data.List.Forall2
import Mathlib.Data.List.TakeWhile
import Mathlib.Data.Nat.Digits.Defs

/-!
# Integer spellings

`Spells` is the grammar of integer literals: which runs of characters spell an integer, in which
radix, and which numbers its digits stand for. Each character stands for a number as a digit only
through the usual table of digits, so the grammar knows nothing of the way in which spellings are
read.

Reading takes digits as long as there are any, and then asks whether all that follows are suffix
letters. No suffix letter is a digit of any radix, so this finds the digits of a spelling, and finds
them in spellings only.
-/

namespace CWithClasses

/-! ### The grammar -/

/-- The character is the digit of the radix that stands for the number. Letters have either case. -/
structure Radix.Digit (r : Radix) (c : Char) (n : Nat) : Prop where
  lt : n < r.base
  char : c = n.digitChar ∨ c = n.digitChar.toUpper

/-- A run of the letters that may follow the digits. -/
def IsSuffix (cs : List Char) : Prop := ∀ c ∈ cs, c ∈ ['u', 'U', 'l', 'L']

/-- The characters spell an integer of the radix, whose digits stand for the numbers. -/
inductive Spells : Radix → List Nat → List Char → Prop
  | zero {suffix : List Char} : IsSuffix suffix → Spells .decimal [0] ('0' :: suffix)
  | decimal {n : Nat} {ns : List Nat} {ds suffix : List Char} : n ≠ 0 →
      List.Forall₂ Radix.decimal.Digit ds (n :: ns) → IsSuffix suffix →
      Spells .decimal (n :: ns) (ds ++ suffix)
  | octal {ns : List Nat} {ds suffix : List Char} : ns ≠ [] →
      List.Forall₂ Radix.octal.Digit ds ns → IsSuffix suffix →
      Spells .octal ns ('0' :: (ds ++ suffix))
  | hexadecimal {x : Char} {ns : List Nat} {ds suffix : List Char} : x = 'x' ∨ x = 'X' → ns ≠ [] →
      List.Forall₂ Radix.hexadecimal.Digit ds ns → IsSuffix suffix →
      Spells .hexadecimal ns ('0' :: x :: (ds ++ suffix))

/-! ### Digits -/

/-- The letters of a suffix are those that are accepted as such. -/
theorem isSuffix_iff {cs : List Char} : IsSuffix cs ↔ cs.all isIntegerSuffix = true := by
  simp [IsSuffix, isIntegerSuffix, or_assoc]

namespace Radix

variable {r : Radix} {c : Char} {n : Nat} {ds suffix : List Char} {ns : List Nat}

/-- What stands for a number is a digit of the radix, and is read as the number. -/
theorem Digit.reads (h : r.Digit c n) : r.isDigit c = true ∧ digitValue c = n := by
  have htable : ∀ n < 16, (digitValue n.digitChar = n ∧ digitValue n.digitChar.toUpper = n) ∧
      ∀ r ∈ [decimal, octal, hexadecimal], n < r.base →
        r.isDigit n.digitChar = true ∧ r.isDigit n.digitChar.toUpper = true := by
    decide
  obtain ⟨hlt, hchar⟩ := h
  have hbase : r.base ≤ 16 := by cases r <;> decide
  obtain ⟨⟨hlower, hupper⟩, hdigits⟩ := htable n (by omega)
  obtain ⟨hlowerDigit, hupperDigit⟩ := hdigits r (by cases r <;> simp) hlt
  rcases hchar with rfl | rfl
  · exact ⟨hlowerDigit, hlower⟩
  · exact ⟨hupperDigit, hupper⟩

/-- Every digit of the radix stands for the number as which it is read. -/
theorem digit_of_isDigit (h : r.isDigit c = true) : r.Digit c (digitValue c) := by
  have htable : ∀ code < 103, ∀ r ∈ [decimal, octal, hexadecimal],
      r.isDigit (Char.ofNat code) = true → digitValue (Char.ofNat code) < r.base ∧
        (Char.ofNat code = (digitValue (Char.ofNat code)).digitChar ∨
          Char.ofNat code = (digitValue (Char.ofNat code)).digitChar.toUpper) := by
    decide +kernel
  have hcode : c.toNat < 103 := by
    have hle : ∀ d : Char, c ≤ d → c.toNat ≤ d.toNat := fun d hd => hd
    cases r <;> simp only [isDigit, Bool.and_eq_true, Bool.or_eq_true, decide_eq_true_eq] at h
    · exact (hle '9' h.2).trans_lt (by decide)
    · exact (hle '7' h.2).trans_lt (by decide)
    · rcases h with (h | h) | h
      · exact (hle '9' h.2).trans_lt (by decide)
      · exact (hle 'f' h.2).trans_lt (by decide)
      · exact (hle 'F' h.2).trans_lt (by decide)
  have hdigit := htable c.toNat hcode r (by cases r <;> simp)
  rw [Char.ofNat_toNat] at hdigit
  exact ⟨(hdigit h).1, (hdigit h).2⟩

/-- A suffix letter is no digit. -/
theorem isDigit_suffix (h : isIntegerSuffix c = true) : r.isDigit c = false := by
  simp only [isIntegerSuffix, Bool.or_eq_true, beq_iff_eq] at h
  rcases h with ((rfl | rfl) | rfl) | rfl <;> cases r <;> decide

/-- Digits that stand for numbers are digits. -/
theorem all_isDigit (h : List.Forall₂ r.Digit ds ns) : ∀ c ∈ ds, r.isDigit c = true := by
  induction h with
  | nil => simp
  | cons hd _ ih => exact List.forall_mem_cons.mpr ⟨hd.reads.1, ih⟩

/-- Digits stand for the numbers as which they are read. -/
theorem forall₂_digit_iff :
    List.Forall₂ r.Digit ds ns ↔ (∀ c ∈ ds, r.isDigit c = true) ∧ ns = ds.map digitValue := by
  refine ⟨fun h => ⟨all_isDigit h, ?_⟩, ?_⟩
  · induction h with
    | nil => rfl
    | cons hd _ ih => rw [List.map_cons, hd.reads.2, ih]
  · rintro ⟨hall, rfl⟩
    rw [List.forall₂_map_right_iff, List.forall₂_same]
    exact fun c hc => digit_of_isDigit (hall c hc)

/-- The value of digits is that of the numbers that they stand for. -/
theorem value_eq_ofDigits (h : List.Forall₂ r.Digit ds ns) :
    r.value ds = Nat.ofDigits r.base ns.reverse := by
  obtain ⟨-, rfl⟩ := forall₂_digit_iff.mp h
  rw [Nat.ofDigits_eq_foldr, List.foldr_reverse, List.foldl_map, value]
  congr 1
  funext m c
  simp [Nat.add_comm]

/-- The digits in front of a suffix are taken, and the suffix is left. -/
theorem takeWhile_digits (hds : ∀ c ∈ ds, r.isDigit c = true) (hsuffix : IsSuffix suffix) :
    (ds ++ suffix).takeWhile r.isDigit = ds ∧ (ds ++ suffix).dropWhile r.isDigit = suffix := by
  rw [isSuffix_iff, List.all_eq_true] at hsuffix
  have htake : suffix.takeWhile r.isDigit = [] ∧ suffix.dropWhile r.isDigit = suffix := by
    cases suffix with
    | nil => exact ⟨rfl, rfl⟩
    | cons c rest =>
      have hc := isDigit_suffix (r := r) (hsuffix c List.mem_cons_self)
      simp [hc]
  rw [List.takeWhile_append_of_pos hds, List.dropWhile_append_of_pos hds, htake.1, htake.2]
  simp

/-- An octal spelling is marked by a zero. -/
theorem octal_unmarked? {cs rest : List Char} (h : octal.unmarked? cs = some rest) :
    cs = '0' :: rest := by
  cases cs with
  | nil => cases h
  | cons c cs =>
    by_cases hc : c = '0'
    · subst hc
      cases h
      rfl
    · simp [unmarked?, hc] at h

/-- A hexadecimal spelling is marked by a zero and a letter. -/
theorem hexadecimal_unmarked? {cs rest : List Char} (h : hexadecimal.unmarked? cs = some rest) :
    ∃ x, (x = 'x' ∨ x = 'X') ∧ cs = '0' :: x :: rest := by
  cases cs with
  | nil => cases h
  | cons c cs =>
    cases cs with
    | nil => simp [unmarked?] at h
    | cons x cs =>
      by_cases hx : c = '0' ∧ (x = 'x' ∨ x = 'X')
      · obtain ⟨rfl, rfl | rfl⟩ := hx <;> cases h
        · exact ⟨_, .inl rfl, rfl⟩
        · exact ⟨_, .inr rfl, rfl⟩
      · rw [not_and_or, not_or] at hx
        rcases hx with hc | ⟨hx, hX⟩
        · simp [unmarked?, hc] at h
        · simp [unmarked?, hx, hX] at h

/-- Reading finds digits that the radix accepts, behind the mark of the radix and in front of a
suffix, and only there. -/
theorem digits?_eq_some_iff {cs : List Char} :
    r.digits? cs = some ds ↔ ∃ suffix, r.unmarked? cs = some (ds ++ suffix) ∧
      r.acceptsDigits ds = true ∧ (∀ c ∈ ds, r.isDigit c = true) ∧ IsSuffix suffix := by
  unfold digits?
  cases hmark : r.unmarked? cs with
  | none => simp
  | some rest =>
    dsimp only
    constructor
    · intro h
      split at h
      next haccepts =>
        cases h
        rw [Bool.and_eq_true] at haccepts
        refine ⟨rest.dropWhile r.isDigit, ?_, haccepts.1, ?_, isSuffix_iff.mpr haccepts.2⟩
        · rw [List.takeWhile_append_dropWhile]
        · exact fun c hc => List.mem_takeWhile_imp hc
      next => cases h
    · rintro ⟨suffix, hrest, haccepts, hds, hsuffix⟩
      cases hrest
      obtain ⟨htake, hdrop⟩ := takeWhile_digits hds hsuffix
      rw [htake, hdrop, haccepts, isSuffix_iff.mp hsuffix]
      rfl

end Radix

/-! ### Spellings are read -/

section Reading

variable {r : Radix} {ns : List Nat} {cs : List Char}

/-- A spelling is read in its radix, and its digits are found. -/
theorem Spells.digits? (h : Spells r ns cs) :
    ∃ ds, r.digits? cs = some ds ∧ List.Forall₂ r.Digit ds ns := by
  have hfind : ∀ (ds : List Char) {suffix : List Char}, List.Forall₂ r.Digit ds ns →
      IsSuffix suffix → r.unmarked? cs = some (ds ++ suffix) → r.acceptsDigits ds = true →
      ∃ ds, r.digits? cs = some ds ∧ List.Forall₂ r.Digit ds ns :=
    fun _ _ hds hsuffix hmark haccepts =>
      ⟨_, Radix.digits?_eq_some_iff.mpr ⟨_, hmark, haccepts, Radix.all_isDigit hds, hsuffix⟩, hds⟩
  have hne : ∀ {ds : List Char}, ns ≠ [] → List.Forall₂ r.Digit ds ns → ds ≠ [] := by
    rintro _ hns hds rfl
    cases hds
    exact hns rfl
  cases h with
  | zero hsuffix =>
    exact hfind ['0'] (.cons ⟨by decide, .inl rfl⟩ .nil) hsuffix rfl rfl
  | decimal hn hds hsuffix =>
    refine hfind _ hds hsuffix rfl ?_
    cases hds with
    | @cons c _ ds _ hc _ =>
      have hzero : c ≠ '0' := by
        rintro rfl
        exact hn (hc.reads.2.symm.trans (by decide))
      simp [Radix.acceptsDigits, hzero]
  | octal hns hds hsuffix =>
    exact hfind _ hds hsuffix rfl (by simp [Radix.acceptsDigits, hne hns hds])
  | hexadecimal hx hns hds hsuffix =>
    refine hfind _ hds hsuffix ?_ (by simp [Radix.acceptsDigits, hne hns hds])
    rcases hx with rfl | rfl <;> rfl

/-- What is read in a radix is a spelling. -/
theorem spells_of_digits? {ds : List Char} (h : r.digits? cs = some ds) :
    Spells r (ds.map digitValue) cs := by
  obtain ⟨suffix, hmark, haccepts, hds, hsuffix⟩ := Radix.digits?_eq_some_iff.mp h
  have hdigits : List.Forall₂ r.Digit ds (ds.map digitValue) :=
    Radix.forall₂_digit_iff.mpr ⟨hds, rfl⟩
  cases r with
  | decimal =>
    cases hmark
    simp only [Radix.acceptsDigits, Bool.or_eq_true, beq_iff_eq, Bool.and_eq_true,
      bne_iff_ne] at haccepts
    rcases haccepts with rfl | ⟨hne, hhead⟩
    · exact .zero hsuffix
    · cases ds with
      | nil => exact absurd rfl hne
      | cons c rest =>
        refine .decimal (fun hzero => hhead ?_) hdigits hsuffix
        obtain ⟨-, hchar⟩ := Radix.digit_of_isDigit (hds c List.mem_cons_self)
        rw [hzero] at hchar
        rw [List.head?_cons]
        rcases hchar with rfl | rfl <;> rfl
  | octal =>
    have hne : ds.map digitValue ≠ [] := by simpa [Radix.acceptsDigits] using haccepts
    rw [Radix.octal_unmarked? hmark]
    exact .octal hne hdigits hsuffix
  | hexadecimal =>
    have hne : ds.map digitValue ≠ [] := by simpa [Radix.acceptsDigits] using haccepts
    obtain ⟨x, hx, rfl⟩ := Radix.hexadecimal_unmarked? hmark
    exact .hexadecimal hx hne hdigits hsuffix

/-- The characters spell an integer of the radix if and only if digits of the radix are found. -/
theorem exists_spells_iff : (∃ ns, Spells r ns cs) ↔ (r.digits? cs).isSome = true := by
  rw [Option.isSome_iff_exists]
  constructor
  · rintro ⟨ns, h⟩
    obtain ⟨ds, hds, -⟩ := h.digits?
    exact ⟨ds, hds⟩
  · rintro ⟨ds, hds⟩
    exact ⟨_, spells_of_digits? hds⟩

/-- The radix that the first two characters of a spelling tell. -/
def Radix.ofFront : List Char → Radix
  | '0' :: c :: _ =>
      if c = 'x' ∨ c = 'X' then hexadecimal else if octal.isDigit c then octal else decimal
  | _ => decimal

/-- The shapes of the three radices exclude one another: the first two characters tell the radix. -/
theorem Spells.radix_eq (h : Spells r ns cs) : r = Radix.ofFront cs := by
  cases h with
  | @zero suffix hsuffix =>
    cases suffix with
    | nil => rfl
    | cons c rest =>
      have hc := hsuffix c List.mem_cons_self
      simp only [List.mem_cons, List.not_mem_nil, or_false] at hc
      rcases hc with rfl | rfl | rfl | rfl <;> rfl
  | @decimal n _ ds suffix hn hds _ =>
    cases hds with
    | @cons c _ ds _ hc _ =>
      have hzero : c ≠ '0' := by
        rintro rfl
        exact hn (hc.reads.2.symm.trans (by decide))
      simp [Radix.ofFront, hzero]
  | octal hns hds _ =>
    cases hds with
    | nil => exact absurd rfl hns
    | @cons c _ ds _ hc _ =>
      have hdigit := hc.reads.1
      have hx : ¬ (c = 'x' ∨ c = 'X') := by
        rintro (rfl | rfl) <;> exact absurd hdigit (by decide)
      simp [Radix.ofFront, hx, hdigit]
  | hexadecimal hx _ _ _ => simp [Radix.ofFront, hx]

/-- A spelling has one radix, and its digits stand for one row of numbers. -/
theorem Spells.unique {r' : Radix} {ns' : List Nat} (h : Spells r ns cs) (h' : Spells r' ns' cs) :
    r = r' ∧ ns = ns' := by
  obtain rfl : r = r' := h.radix_eq.trans h'.radix_eq.symm
  obtain ⟨ds, hds, hns⟩ := h.digits?
  obtain ⟨ds', hds', hns'⟩ := h'.digits?
  rw [hds] at hds'
  cases hds'
  rw [(Radix.forall₂_digit_iff.mp hns).2, (Radix.forall₂_digit_iff.mp hns').2]
  exact ⟨rfl, rfl⟩

/-- The radix of a text is that of its spelling. -/
theorem classifyInteger_eq_some_iff {text : String} :
    classifyInteger text = some r ↔ ∃ ns, Spells r ns text.toList := by
  unfold classifyInteger
  constructor
  · intro h
    have hfound := List.find?_some h
    exact exists_spells_iff.mpr hfound
  · rintro ⟨ns, h⟩
    -- No other radix is found, since the shapes exclude one another.
    have honly : ∀ r', (r'.digits? text.toList).isSome = true → r' = r := by
      intro r' hr'
      obtain ⟨ns', h'⟩ := exists_spells_iff.mpr hr'
      exact (h'.unique h).1
    cases hfound : [Radix.hexadecimal, .octal, .decimal].find? fun r =>
      (r.digits? text.toList).isSome with
    | none =>
      rw [List.find?_eq_none] at hfound
      exact absurd (exists_spells_iff.mp ⟨ns, h⟩) (hfound r (by cases r <;> simp))
    | some r' =>
      have hr' := List.find?_some hfound
      rw [honly r' hr']

/-- The value of a text is that of its digits, provided that it fits into a word. -/
theorem parseInteger_eq_some_iff {text : String} {v : Nat} :
    parseInteger text = some v ↔ ∃ r ns, Spells r ns text.toList ∧
      v = Nat.ofDigits r.base ns.reverse ∧ v < wordSize := by
  unfold parseInteger
  constructor
  · intro h
    obtain ⟨r, hradix, h⟩ := Option.bind_eq_some_iff.mp h
    obtain ⟨ds, hds, h⟩ := Option.bind_eq_some_iff.mp h
    dsimp only at h
    split at h
    next hlt =>
      cases h
      have hspells := spells_of_digits? hds
      obtain ⟨ds', hds', hdigits⟩ := hspells.digits?
      cases hds.symm.trans hds'
      exact ⟨r, _, hspells, Radix.value_eq_ofDigits hdigits, hlt⟩
    next => cases h
  · rintro ⟨r, ns, h, hv, hlt⟩
    obtain ⟨ds, hds, hdigits⟩ := h.digits?
    have hvalue : r.value ds = v := (Radix.value_eq_ofDigits hdigits).trans hv.symm
    rw [classifyInteger_eq_some_iff.mpr ⟨ns, h⟩]
    simp [hds, hvalue, hlt]

end Reading

/-! ### Canonical spellings -/

section Writing

variable {r : Radix} {ns : List Nat} {ds suffix : List Char}

/-- The digits of a number stand for numbers of which it is made. -/
theorem Radix.exists_digit_toDigits (r : Radix) (v : Nat) :
    ∃ ns, List.Forall₂ r.Digit (Nat.toDigits r.base v) ns ∧ Nat.ofDigits r.base ns.reverse = v := by
  have hbase : 1 < r.base := by cases r <;> decide
  induction v using Nat.strongRecOn with
  | ind v ih =>
    rw [Nat.toDigits_eq_if hbase]
    split
    next hlt => exact ⟨[v], .cons ⟨hlt, .inl rfl⟩ .nil, by simp⟩
    next hge =>
      obtain ⟨ns, hns, hvalue⟩ := ih (v / r.base) (Nat.div_lt_self (by omega) hbase)
      have hlast : r.Digit (v % r.base).digitChar (v % r.base) :=
        ⟨Nat.mod_lt v (by omega), .inl rfl⟩
      refine ⟨ns ++ [v % r.base], List.rel_append hns (.cons hlast .nil), ?_⟩
      rw [List.reverse_append, List.reverse_singleton, List.singleton_append,
        Nat.ofDigits_cons, hvalue]
      exact Nat.mod_add_div v r.base

/-- Zeros in front of digits are digits that change nothing. -/
theorem Radix.digits_replicate_zero (zeros : Nat) (h : List.Forall₂ r.Digit ds ns) :
    List.Forall₂ r.Digit (List.replicate zeros '0' ++ ds) (List.replicate zeros 0 ++ ns) ∧
      Nat.ofDigits r.base (List.replicate zeros 0 ++ ns).reverse =
        Nat.ofDigits r.base ns.reverse := by
  have hzero : r.Digit '0' 0 := ⟨by cases r <;> decide, .inl rfl⟩
  constructor
  · induction zeros with
    | zero => exact h
    | succ zeros ih => exact .cons hzero ih
  · rw [List.reverse_append, List.reverse_replicate, Nat.ofDigits_append_replicate_zero]

/-- The first digit of a positive number is not zero. -/
theorem head?_toDigits_ne {n : Nat} (hn : 0 < n) : (Nat.toDigits 10 n).head? ≠ some '0' := by
  induction n using Nat.strongRecOn with
  | ind n ih =>
    rw [Nat.toDigits_eq_if (by decide)]
    split
    next hlt =>
      rw [List.head?_cons, ne_eq, Option.some.injEq, Nat.digitChar_eq_zero]
      omega
    next hge =>
      rw [List.head?_append_of_ne_nil _ Nat.toDigits_ne_nil]
      exact ih (n / 10) (by omega) (by omega)

/-- Digits may be written in either case. -/
theorem Radix.digit_of_toLower {c : Char} {n : Nat} (h : r.Digit c.toLower n) : r.Digit c n := by
  obtain ⟨hlt, hchar⟩ := h
  refine ⟨hlt, ?_⟩
  have hbase : r.base ≤ 16 := by cases r <;> decide
  have htwice : ∀ n < 16, n.digitChar.toUpper.toUpper = n.digitChar.toUpper := by decide
  have hcase : c = c.toLower ∨ c = c.toLower.toUpper := by
    by_cases hupper : 'A'.val ≤ c.val ∧ c.val ≤ 'Z'.val
    · have htable : ∀ code < 91, 65 ≤ code →
          Char.ofNat code = (Char.ofNat code).toLower.toUpper := by
        decide
      have hup := htable c.toNat (Nat.lt_succ_of_le hupper.2) hupper.1
      rw [Char.ofNat_toNat] at hup
      exact .inr hup
    · have hlower : c.toLower = c := dif_neg hupper
      exact .inl hlower.symm
  rcases hcase with hc | hc <;> rcases hchar with hn | hn <;> rw [hn] at hc
  · exact .inl hc
  · exact .inr hc
  · exact .inr hc
  · exact .inr (hc.trans (htwice n (by omega)))

/-- A spelling is read as the value of its digits. -/
theorem Spells.parseInteger_eq {v : Nat} {cs : List Char} (h : Spells r ns cs)
    (hv : Nat.ofDigits r.base ns.reverse = v) (hlt : v < wordSize) :
    parseInteger (String.ofList cs) = some v :=
  parseInteger_eq_some_iff.mpr ⟨r, ns, by rwa [String.toList_ofList], hv.symm, hlt⟩

/-- Every number is read back from its canonical spellings. -/
theorem parseInteger_canonical {v : Nat} (hv : v < wordSize) (hsuffix : IsSuffix suffix) :
    parseInteger (String.ofList (Nat.toDigits 10 v ++ suffix)) = some v ∧
    ∀ zeros,
      parseInteger (String.ofList
        ('0' :: (List.replicate zeros '0' ++ Nat.toDigits 8 v ++ suffix))) = some v ∧
      ∀ x ds, x = 'x' ∨ x = 'X' → ds.map Char.toLower = Nat.toDigits 16 v →
        parseInteger (String.ofList
          ('0' :: x :: (List.replicate zeros '0' ++ ds ++ suffix))) = some v := by
  have hne : ∀ {r : Radix} {ns : List Nat} (zeros : Nat),
      List.Forall₂ r.Digit (Nat.toDigits r.base v) ns → List.replicate zeros 0 ++ ns ≠ [] := by
    rintro r ns zeros hns hnil
    rw [(List.append_eq_nil_iff.mp hnil).2, List.forall₂_nil_right_iff] at hns
    exact Nat.toDigits_ne_nil hns
  refine ⟨?_, fun zeros => ⟨?_, fun x ds hx hds => ?_⟩⟩
  · obtain ⟨ns, hns, hvalue⟩ := Radix.decimal.exists_digit_toDigits v
    rcases Nat.eq_zero_or_pos v with rfl | hpos
    · exact (Spells.zero hsuffix).parseInteger_eq (by simp) hv
    · cases ns with
      | nil => exact absurd rfl (hne 0 hns)
      | cons n ns =>
        refine (Spells.decimal (fun hzero => ?_) hns hsuffix).parseInteger_eq hvalue hv
        subst hzero
        obtain ⟨c, rest, hc, -, hdigits⟩ := List.forall₂_cons_right_iff.mp hns
        refine head?_toDigits_ne hpos ?_
        replace hdigits : Nat.toDigits 10 v = c :: rest := hdigits
        rw [hdigits, List.head?_cons]
        rcases hc.char with rfl | rfl <;> rfl
  · obtain ⟨ns, hns, hvalue⟩ := Radix.octal.exists_digit_toDigits v
    obtain ⟨hdigits, hsame⟩ := Radix.digits_replicate_zero zeros hns
    exact (Spells.octal (hne zeros hns) hdigits hsuffix).parseInteger_eq (hsame.trans hvalue) hv
  · obtain ⟨ns, hns, hvalue⟩ := Radix.hexadecimal.exists_digit_toDigits v
    have hlower : List.Forall₂ Radix.hexadecimal.Digit ds ns := by
      replace hns : List.Forall₂ _ (Nat.toDigits 16 v) ns := hns
      rw [← hds, List.forall₂_map_left_iff] at hns
      exact hns.imp fun _ _ => Radix.digit_of_toLower
    obtain ⟨hdigits, hsame⟩ := Radix.digits_replicate_zero zeros hlower
    exact (Spells.hexadecimal hx (hne zeros hns) hdigits hsuffix).parseInteger_eq
      (hsame.trans hvalue) hv

end Writing

/-- Integer literals are read exactly. A text has a value if and only if it spells an integer below
`2 ^ 64`, and then the value is that of its digits. The radix of a text is that of its spelling, and
a text has one spelling at most. Every number below `2 ^ 64` is read back from its canonical
spelling in each of the radices, with any suffix, with zeros in front of octal and hexadecimal
digits, and with hexadecimal digits in either case. -/
theorem parseInteger_exact :
    (∀ text v, parseInteger text = some v ↔ ∃ r ns, Spells r ns text.toList ∧
      v = Nat.ofDigits r.base ns.reverse ∧ v < 2 ^ 64) ∧
    (∀ text r, classifyInteger text = some r ↔ ∃ ns, Spells r ns text.toList) ∧
    (∀ r r' ns ns' cs, Spells r ns cs → Spells r' ns' cs → r = r' ∧ ns = ns') ∧
    ∀ v < 2 ^ 64, ∀ suffix, IsSuffix suffix →
      parseInteger (String.ofList (Nat.toDigits 10 v ++ suffix)) = some v ∧
      ∀ zeros,
        parseInteger (String.ofList
          ('0' :: (List.replicate zeros '0' ++ Nat.toDigits 8 v ++ suffix))) = some v ∧
        ∀ x ds, x = 'x' ∨ x = 'X' → ds.map Char.toLower = Nat.toDigits 16 v →
          parseInteger (String.ofList
            ('0' :: x :: (List.replicate zeros '0' ++ ds ++ suffix))) = some v := by
  have hword : 2 ^ 64 = wordSize := by decide
  rw [hword]
  exact ⟨fun _ _ => parseInteger_eq_some_iff, fun _ _ => classifyInteger_eq_some_iff,
    fun _ _ _ _ _ h h' => h.unique h', fun _ hv _ hsuffix => parseInteger_canonical hv hsuffix⟩

/-- The largest word is read back from a spelling in mixed case. -/
theorem parseInteger_largestWord :
    IsSuffix ['u', 'L', 'L'] ∧
      "FfffffffFFFFFFFF".toList.map Char.toLower = Nat.toDigits 16 (2 ^ 64 - 1) ∧
      parseInteger (String.ofList ('0' :: 'X' ::
        (List.replicate 3 '0' ++ "FfffffffFFFFFFFF".toList ++ ['u', 'L', 'L']))) =
          some (2 ^ 64 - 1) := by
  have hsuffix : IsSuffix ['u', 'L', 'L'] := by simp [IsSuffix]
  have hdigits : "FfffffffFFFFFFFF".toList.map Char.toLower = Nat.toDigits 16 (2 ^ 64 - 1) := by
    decide +kernel
  obtain ⟨-, -, -, hcanonical⟩ := parseInteger_exact
  obtain ⟨-, hzeros⟩ := hcanonical (2 ^ 64 - 1) (by decide) _ hsuffix
  exact ⟨hsuffix, hdigits, (hzeros 3).2 'X' _ (.inr rfl) hdigits⟩

end CWithClasses
