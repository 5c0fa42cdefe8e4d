import CWithClasses.Proofs.Acceptance
import CWithClasses.Proofs.Logic.Open
import CWithClasses.Proofs.Pairs.Expression
import CWithClasses.Proofs.Verdict
import Mathlib.Data.Option.Basic

/-!
# Unknown types do not give rise to reports

A table is blurred if some of the types that it binds are forgotten: nothing is known about them any
more. An expression that is right stays right in a blurred table, and its type is what it was or is
forgotten too. So a report that left a name without a type is not followed by further reports where
the name is used.

The proof runs the expression in both tables at once. `Check.Blurs` says what is kept: as long as
the first run reports nothing, neither does the second one, and its result is that of the first one
with some types forgotten.
-/

namespace CWithClasses

open Node (word tree)

/-! ### Blurred tables -/

/-- The second type is the first one, or it is forgotten. -/
def Ty.Blurs (t u : Ty) : Prop := u = t ∨ u = .unknown

/-- The same names, with some types forgotten. -/
def Bindings.Blurs (b b' : Bindings) : Prop :=
  List.Forall₂ (fun entry entry' => entry'.1 = entry.1 ∧ entry.2.Blurs entry'.2) b b'

/-- A scope with some types forgotten. -/
structure Frame.Blurs (f f' : Frame) : Prop where
  kind : f'.kind = f.kind
  bindings : Bindings.Blurs f.bindings f'.bindings

/-- The members of a class with some types forgotten. -/
structure ClassBody.Blurs (b b' : ClassBody) : Prop where
  publicMembers : Bindings.Blurs b.publicMembers b'.publicMembers
  privateMembers : Bindings.Blurs b.privateMembers b'.privateMembers

/-- A table with some types forgotten. -/
structure SymbolTable.Blurs (t t' : SymbolTable) : Prop where
  frames : List.Forall₂ Frame.Blurs t.frames t'.frames
  classes : ∀ c, (t.classBody c).Blurs (t'.classBody c)

/-- Nothing is forgotten. -/
@[refl] theorem Ty.Blurs.refl (t : Ty) : t.Blurs t := .inl rfl

/-- Nothing is forgotten. -/
@[refl] theorem Bindings.Blurs.refl (b : Bindings) : b.Blurs b :=
  List.forall₂_same.mpr fun entry _ => ⟨rfl, .refl entry.2⟩

/-- Nothing is forgotten. -/
@[refl] theorem SymbolTable.Blurs.refl (t : SymbolTable) : t.Blurs t :=
  ⟨List.forall₂_same.mpr fun _ _ => ⟨rfl, .refl _⟩, fun _ => ⟨.refl _, .refl _⟩⟩

/-- A name is bound to a type that may be forgotten. -/
theorem Bindings.Blurs.lookup {b b' : Bindings} (h : b.Blurs b') (name : String) :
    Option.Rel Ty.Blurs (b.lookup name) (b'.lookup name) := by
  induction h with
  | nil => exact .none
  | @cons entry entry' rest rest' hentry _ ih =>
    obtain ⟨key, ty⟩ := entry
    obtain ⟨key', ty'⟩ := entry'
    obtain ⟨hkey, hty⟩ := hentry
    change key' = key at hkey
    subst hkey
    rw [List.lookup_cons, List.lookup_cons]
    cases name == key' with
    | true => exact .some hty
    | false => exact ih

/-- A scope stands for the same class. -/
theorem Frame.Blurs.cls?_eq {f f' : Frame} (h : f.Blurs f') : f'.cls? = f.cls? := by
  unfold cls?
  rw [h.kind]

/-- A member keeps its access, and its type may be forgotten. -/
theorem ClassBody.Blurs.member {b b' : ClassBody} (h : b.Blurs b') (name : String) :
    Option.Rel (fun m m' => m'.1 = m.1 ∧ m.2.Blurs m'.2) (b.member? name) (b'.member? name) := by
  have hpublic := h.publicMembers.lookup name
  have hprivate := h.privateMembers.lookup name
  unfold member?
  generalize b.publicMembers.lookup name = found at hpublic
  generalize b'.publicMembers.lookup name = found' at hpublic
  generalize b.privateMembers.lookup name = hidden at hprivate
  generalize b'.privateMembers.lookup name = hidden' at hprivate
  cases hpublic with
  | some hty => exact .some ⟨rfl, hty⟩
  | none =>
    cases hprivate with
    | some hty => exact .some ⟨rfl, hty⟩
    | none => exact .none

namespace SymbolTable.Blurs

variable {t t' : SymbolTable}

/-- What a name means in one scope. -/
theorem findIn (h : t.Blurs t') {f f' : Frame} (hf : f.Blurs f') (name : String) :
    Option.Rel Ty.Blurs (t.findIn f name) (t'.findIn f' name) := by
  unfold SymbolTable.findIn
  rw [hf.cls?_eq]
  cases f.cls? with
  | none => exact hf.bindings.lookup name
  | some c =>
    have hmember := (h.classes c).member name
    change Option.Rel _ (((t.classBody c).member? name).map (·.2))
      (((t'.classBody c).member? name).map (·.2))
    generalize (t.classBody c).member? name = found at hmember
    generalize (t'.classBody c).member? name = found' at hmember
    cases hmember with
    | some hty => exact .some hty.2
    | none => exact .none

/-- What a name means. -/
theorem lookup? (h : t.Blurs t') (name : String) :
    Option.Rel Ty.Blurs (t.lookup? name) (t'.lookup? name) := by
  unfold SymbolTable.lookup?
  have hframes := h.frames
  generalize t.frames = frames at hframes
  generalize t'.frames = frames' at hframes
  induction hframes with
  | nil => exact .none
  | cons hf _ ih =>
    rw [List.findSome?_cons, List.findSome?_cons]
    have hfound := h.findIn hf name
    generalize t.findIn _ name = found at hfound
    generalize t'.findIn _ name = found' at hfound
    cases hfound with
    | some hty => exact .some hty
    | none => exact ih

/-- The same classes are open. -/
theorem insideClass_eq (h : t.Blurs t') (c : ClassRef) : t'.insideClass c = t.insideClass c := by
  unfold insideClass
  have hframes := h.frames
  generalize t.frames = frames at hframes
  generalize t'.frames = frames' at hframes
  induction hframes with
  | nil => rfl
  | cons hf _ ih =>
    rw [List.any_cons, List.any_cons, ih, hf.cls?_eq]

/-- A member can be named from the same places, and its type may be forgotten. -/
theorem memberLookup (h : t.Blurs t') (c : ClassRef) (name : String) (inside : Bool) :
    (∃ ty ty', t.memberLookup c name inside = .ok ty ∧ t'.memberLookup c name inside = .ok ty' ∧
      ty.Blurs ty') ∨
    ∃ e, t.memberLookup c name inside = .error e ∧ t'.memberLookup c name inside = .error e := by
  have hmember := (h.classes c).member name
  unfold SymbolTable.memberLookup SymbolTable.member?
  generalize (t.classBody c).member? name = found at hmember
  generalize (t'.classBody c).member? name = found' at hmember
  cases hmember with
  | none => exact .inr ⟨_, rfl, rfl⟩
  | @some m m' hm =>
    obtain ⟨access, ty⟩ := m
    obtain ⟨access', ty'⟩ := m'
    obtain ⟨haccess, hty⟩ := hm
    change access' = access at haccess
    subst haccess
    cases access' with
    | pub => exact .inl ⟨ty, ty', rfl, rfl, hty⟩
    | priv =>
      cases inside with
      | true => exact .inl ⟨ty, ty', rfl, rfl, hty⟩
      | false => exact .inr ⟨_, rfl, rfl⟩

end SymbolTable.Blurs

/-! ### Blurred runs -/

/-- A state without a limit, and one in which some types are forgotten. -/
structure Checker.Blurs (s s' : Checker) : Prop where
  symbols : s.symbols.Blurs s'.symbols
  limit : s.limit = none

namespace Check

variable {α β γ δ : Type}

/-- What a step that has ended well leaves behind, compared to the same step after some types have
been forgotten. -/
structure BlursFrom (s s' : Checker) (a : α) (s₁ : Checker)
    (r : EStateM.Result Fault Checker β) (R : α → β → Prop) : Prop where
  /-- Diagnostics are added only. -/
  grows : s.diagnostics <+: s₁.diagnostics
  limit : s₁.limit = none
  /-- There is something that the result may be blurred to, whatever has been reported. -/
  result : ∃ b, R a b
  quiet : s₁.diagnostics = s.diagnostics →
    ∃ b s₁', r = .ok b s₁' ∧ s₁'.diagnostics = s'.diagnostics ∧ s₁.Blurs s₁' ∧ R a b

/-- If the first step reports nothing, neither does the second one, which is made after some types
have been forgotten. -/
def Blurs (x : Check α) (y : Check β) (R : α → β → Prop) : Prop :=
  ∀ s s', s.Blurs s' → ∀ a s₁, x s = .ok a s₁ → BlursFrom s s' a s₁ (y s') R

/-- A step that only has a result. -/
theorem Blurs.ret {a : α} {b : β} {R : α → β → Prop} (h : R a b) :
    Blurs (pure a) (pure b) R := by
  intro s s' hs a₁ s₁ hrun
  cases hrun
  exact ⟨List.prefix_refl _, hs.limit, ⟨b, h⟩, fun _ => ⟨b, s', rfl, rfl, hs, h⟩⟩

/-- One step after another. -/
theorem Blurs.seq {x : Check α} {y : Check β} {f : α → Check γ} {g : β → Check δ}
    {P : α → β → Prop} {Q : γ → δ → Prop} (hx : Blurs x y P)
    (hf : ∀ a b, P a b → Blurs (f a) (g b) Q) : Blurs (x >>= f) (y >>= g) Q := by
  intro s s' hs c s₂ hrun
  obtain ⟨a, s₁, hrun₁, hrun₂⟩ := exists_of_bind hrun
  have h₁ := hx s s' hs a s₁ hrun₁
  obtain ⟨b, hab⟩ := h₁.result
  -- The second step is compared to itself if the first one has reported something.
  have h₂ := hf a b hab s₁ s₁ ⟨.refl _, h₁.limit⟩ c s₂ hrun₂
  refine ⟨h₁.grows.trans h₂.grows, h₂.limit, h₂.result, fun hquiet => ?_⟩
  have hsame : s.diagnostics = s₁.diagnostics := by
    refine h₁.grows.eq_of_length_le ?_
    rw [← hquiet]
    exact h₂.grows.length_le
  obtain ⟨b, s₁', hrun', hquiet₁, hs₁, hab⟩ := h₁.quiet hsame.symm
  have h₂ := hf a b hab s₁ s₁' hs₁ c s₂ hrun₂
  obtain ⟨d, s₂', hrun₂', hquiet₂, hs₂, hcd⟩ := h₂.quiet (hquiet.trans hsame)
  refine ⟨d, s₂', ?_, hquiet₂.trans hquiet₁, hs₂, hcd⟩
  rw [bind_ok hrun' g]
  exact hrun₂'

end Check

/-- Steps that report nothing new after some types have been forgotten. -/
def blurRules : PairRules where
  pair := Check.Blurs
  ret := .ret
  seq := .seq
  fault _ := fun _ _ _ _ _ hrun => by cases hrun

/-! ### Steps that only report -/

open Check

/-- The step leaves the table as it is, and adds diagnostics only. -/
def Check.OnlyReports {α : Type} (x : Check α) : Prop :=
  ∀ s a s₁, s.limit = none → x s = .ok a s₁ →
    s₁.symbols = s.symbols ∧ s₁.limit = none ∧ s.diagnostics <+: s₁.diagnostics

namespace Check.OnlyReports

variable {α β : Type}

/-- A step that only has a result. -/
theorem ret (a : α) : OnlyReports (pure a) := by
  intro s b s₁ hlimit hrun
  cases hrun
  exact ⟨rfl, hlimit, List.prefix_refl _⟩

/-- A fault. -/
theorem fault (e : Fault) : OnlyReports (throw e : Check α) := by
  intro s b s₁ _ hrun
  cases hrun

/-- One step after another. -/
theorem bind {x : Check α} {f : α → Check β} (hx : x.OnlyReports) (hf : ∀ a, (f a).OnlyReports) :
    (x >>= f).OnlyReports := by
  intro s b s₂ hlimit hrun
  obtain ⟨a, s₁, hrun₁, hrun₂⟩ := exists_of_bind hrun
  obtain ⟨hsymbols₁, hlimit₁, hgrows₁⟩ := hx s a s₁ hlimit hrun₁
  obtain ⟨hsymbols₂, hlimit₂, hgrows₂⟩ := hf a s₁ b s₂ hlimit₁ hrun₂
  exact ⟨hsymbols₂.trans hsymbols₁, hlimit₂, hgrows₁.trans hgrows₂⟩

/-- A step that starts with reading the table. -/
theorem symbols {k : SymbolTable → Check α} (hk : ∀ t, (k t).OnlyReports) :
    (Check.symbols >>= k).OnlyReports :=
  fun s => hk s.symbols s

/-- A report. -/
theorem report (e : Problem) (position : Position) : (Check.report e position).OnlyReports := by
  intro s a s₁ hlimit hrun
  cases hrun
  change (s.reported ⟨e, position⟩).symbols = s.symbols ∧ _
  refine ⟨?_, (s.limit_reported _).trans hlimit, ?_⟩
  · rw [← s.withReportsOf_reported]
    rfl
  · rw [s.diagnostics_reported_append hlimit]
    exact List.prefix_append _ _

/-- Recording the use of a name. -/
theorem resolve (name : String) (position : Position) (ty : Ty) :
    (Check.resolve name position ty).OnlyReports := by
  intro s a s₁ hlimit hrun
  cases hrun
  exact ⟨rfl, hlimit, List.prefix_refl _⟩

end Check.OnlyReports

/-- Steps that only look do nothing but report. -/
theorem Check.Looks.onlyReports {α : Type} {x : Check α} (h : x.Looks True) : x.OnlyReports := by
  induction h with
  | ret a => exact .ret a
  | bind _ _ ihx ihf => exact .bind ihx ihf
  | symbols => exact .symbols fun t => .ret t
  | report position => exact .report _ position
  | fault e => exact .fault e
  | resolve name position ty => exact .resolve name position ty

/-! ### The last steps of the productions -/

namespace Check.Blurs

variable {α β : Type} {R : α → β → Prop}

/-- Whatever the first run does, the second one accepts. -/
theorem accept {x : Check α} {b : β} (hx : x.OnlyReports) (hR : ∀ a, R a b) :
    Blurs x (pure b) R := by
  intro s s' hs a s₁ hrun
  obtain ⟨hsymbols, hlimit, hgrows⟩ := hx s a s₁ hs.limit hrun
  refine ⟨hgrows, hlimit, ⟨b, hR a⟩, fun _ => ⟨b, s', rfl, rfl, ⟨?_, hlimit⟩, hR a⟩⟩
  rw [hsymbols]
  exact hs.symbols

/-- The second run forgets the type. -/
theorem forget {x : Check Ty} (hx : x.Looks True) : Blurs x (pure .unknown) Ty.Blurs :=
  accept hx.onlyReports fun _ => .inr rfl

/-- After a step that reports something, nothing is asked of the other run. -/
theorem loud {x : Check α} (y : Check β) (hx : ∀ s a s₁, s.limit = none → x s = .ok a s₁ →
    s₁.limit = none ∧ (∃ d, s₁.diagnostics = s.diagnostics ++ [d]) ∧ ∃ b, R a b) :
    Blurs x y R := by
  intro s s' hs a s₁ hrun
  obtain ⟨hlimit, ⟨d, hmore⟩, hresult⟩ := hx s a s₁ hs.limit hrun
  refine ⟨hmore ▸ List.prefix_append _ _, hlimit, hresult, fun hquiet => ?_⟩
  rw [hmore] at hquiet
  simp at hquiet

/-- A report. -/
theorem report (e : Problem) (position : Position) (y : Check Unit) :
    Blurs (Check.report e position) y fun _ _ => True := by
  refine loud y fun s a s₁ hlimit hrun => ?_
  cases hrun
  exact ⟨(s.limit_reported _).trans hlimit, ⟨_, s.diagnostics_reported_append hlimit⟩, (), trivial⟩

/-- A rejection. -/
theorem reject (e : Problem) (position : Position) (y : Check Ty) :
    Blurs (Check.reject e position) y Ty.Blurs := by
  refine loud y fun s a s₁ hlimit hrun => ?_
  cases hrun
  exact ⟨(s.limit_reported _).trans hlimit, ⟨_, s.diagnostics_reported_append hlimit⟩, _, .refl _⟩

/-- A mismatch. -/
theorem mismatch (expected : String) (received : Ty) (position : Position) (y : Check Ty) :
    Blurs (Check.mismatch expected received position) y Ty.Blurs :=
  reject _ _ y

/-- A verdict on types that are not forgotten. -/
theorem same {x : Check Ty} (h : x.IsVerdict) : Blurs x x Ty.Blurs := by
  cases h with
  | accept _ => exact .ret (.refl _)
  | reject e position => exact reject e position _
  | fault e => exact blurRules.fault e

/-- Reading the table. -/
theorem symbols {k : SymbolTable → Check α} {k' : SymbolTable → Check β}
    (h : ∀ t t', t.Blurs t' → Blurs (k t) (k' t') R) :
    Blurs (Check.symbols >>= k) (Check.symbols >>= k') R :=
  fun s s' hs => h s.symbols s'.symbols hs.symbols s s' hs

/-- Recording the use of a name. -/
theorem recorded (name : String) (position : Position) {x y : Check Ty} (h : Blurs x y Ty.Blurs) :
    Blurs (do let ty ← x; Check.resolve name position ty; return ty)
      (do let ty ← y; Check.resolve name position ty; return ty) Ty.Blurs := by
  refine .seq h fun ty ty' hty => ?_
  refine .seq (P := fun _ _ => True) ?_ fun _ _ _ => .ret hty
  intro s s' hs a s₁ hrun
  cases hrun
  have hkept : Checker.Blurs { s with resolutions := s.resolutions ++ [⟨name, position, ty⟩] }
      { s' with resolutions := s'.resolutions ++ [⟨name, position, ty'⟩] } := ⟨hs.symbols, hs.limit⟩
  exact ⟨List.prefix_refl _, hs.limit, ⟨(), trivial⟩, fun _ => ⟨(), _, rfl, rfl, hkept, trivial⟩⟩

/-- The type of a name. -/
theorem resolveName (name : Token) :
    Blurs (CWithClasses.resolveName name) (CWithClasses.resolveName name) Ty.Blurs := by
  unfold CWithClasses.resolveName
  refine symbols fun t t' ht => ?_
  have hfound := ht.lookup? name.text
  generalize t.lookup? name.text = found at hfound
  generalize t'.lookup? name.text = found' at hfound
  cases hfound with
  | some hty => exact recorded _ _ (.ret hty)
  | none => exact recorded _ _ (reject _ _ _)

/-- The type of a member. -/
theorem resolveMember (c : ClassRef) (name : Token) :
    Blurs (Check.resolveMember c name) (Check.resolveMember c name) Ty.Blurs := by
  unfold Check.resolveMember
  refine symbols fun t t' ht => ?_
  rw [ht.insideClass_eq c]
  obtain ⟨ty, ty', hfound, hfound', hty⟩ | ⟨e, hfound, hfound'⟩ :=
    ht.memberLookup c name.text (t.insideClass c)
  · rw [hfound, hfound']
    exact recorded _ _ (.ret hty)
  · rw [hfound, hfound']
    exact recorded _ _ (reject e _ _)

/-- A unary operator. -/
theorem unaryType (rule : Rule) (position : Position) {a b : Ty} (h : a.Blurs b) :
    Blurs (CWithClasses.unaryType rule a position) (CWithClasses.unaryType rule b position)
      Ty.Blurs := by
  obtain rfl | rfl := h
  · exact same (.unaryType position rule False.elim)
  · -- Whatever its operand is, the size and the truth value of an expression have a type.
    change Blurs _ (pure (unknownOperand rule .unknown)) _
    cases rule with
    | sizeofExpr =>
      unfold CWithClasses.unaryType
      split
      · exact .ret (.refl _)
      · exact .ret (.refl _)
    | logicalNot =>
      unfold CWithClasses.unaryType
      dsimp only
      split
      · exact .ret (.refl _)
      · split
        · exact .ret (.refl _)
        · exact mismatch _ _ _ _
    | _ => exact forget (IsVerdict.looks (.unaryType position _ False.elim))

/-- Nothing has an arithmetic type in common with a stream. -/
theorem commonArithmetic?_stream {lhs rhs : Ty} (hstream : lhs.isStream = true)
    (hknown : ¬ (lhs.isUnknown || rhs.isUnknown) = true) : commonArithmetic? lhs rhs = none := by
  cases lhs with
  | object c =>
    unfold commonArithmetic?
    rw [if_neg hknown]
    rfl
  | _ => cases hstream

/-- Arithmetic does not take streams. -/
theorem arithmeticType_stream (rule : Rule) {lhs rhs : Ty} (position : Position) (y : Check Ty)
    (hstream : lhs.isStream = true) (hknown : ¬ (lhs.isUnknown || rhs.isUnknown) = true) :
    Blurs (CWithClasses.arithmeticType rule lhs rhs position) y Ty.Blurs := by
  unfold CWithClasses.arithmeticType CWithClasses.commonOperands
  rw [commonArithmetic?_stream hstream hknown]
  cases lhs with
  | object c => simpa [Ty.decay, Ty.isPointer, Ty.isIntegral] using mismatch _ _ _ _
  | _ => cases hstream

/-- The operators on integers do not take streams, apart from those that read or write. -/
theorem integralType_stream (rule : Rule) {lhs rhs : Ty} (position : Position)
    (hstream : lhs.isStream = true) (hknown : ¬ (lhs.isUnknown || rhs.isUnknown) = true) :
    Blurs (CWithClasses.integralType rule lhs rhs position) (pure lhs) Ty.Blurs := by
  unfold CWithClasses.integralType
  rw [commonArithmetic?_stream hstream hknown]
  split
  · exact .ret (.refl _)
  · exact mismatch _ _ _ _

/-- A binary operator whose operands have been forgotten, or one of them. Of a stream it is not
forgotten that it is one. -/
theorem unknownOperands (kind : BinaryKind) (rule : Rule) (position : Position) {a a' : Ty} (b : Ty)
    (ha : a.Blurs a') :
    Blurs (CWithClasses.binaryType kind rule a b position)
      (pure (CWithClasses.unknownOperands kind a')) Ty.Blurs := by
  have honly : (CWithClasses.binaryType kind rule a b position).Looks True :=
    IsVerdict.looks (.binaryType position False.elim False.elim kind rule)
  cases kind with
  | relational =>
    unfold CWithClasses.binaryType
    dsimp only
    split
    · exact .ret (.refl _)
    · split
      · exact .ret (.refl _)
      · exact reject _ _ _
  | logical =>
    unfold CWithClasses.binaryType
    dsimp only
    split
    · exact .ret (.refl _)
    · split
      · exact .ret (.refl _)
      · exact mismatch _ _ _ _
  | arithmetic =>
    unfold CWithClasses.unknownOperands
    dsimp only
    split
    next hstream =>
      obtain rfl | rfl := ha
      · unfold CWithClasses.binaryType
        dsimp only
        split
        · have hsame : CWithClasses.unknownOperands .arithmetic a' = a' := if_pos hstream
          rw [hsame]
          exact .ret (.refl _)
        next hknown => exact arithmeticType_stream rule position _ hstream hknown
      · cases hstream
    next => exact forget honly
  | integral =>
    unfold CWithClasses.unknownOperands
    dsimp only
    split
    next hstream =>
      obtain rfl | rfl := ha
      · unfold CWithClasses.binaryType
        dsimp only
        split
        · have hsame : CWithClasses.unknownOperands .integral a' = a' := if_pos hstream
          rw [hsame]
          exact .ret (.refl _)
        next hknown => exact integralType_stream rule position hstream hknown
      · cases hstream
    next => exact forget honly

/-- A binary operator. -/
theorem binaryType (kind : BinaryKind) (rule : Rule) (position : Position) {a b a' b' : Ty}
    (ha : a.Blurs a') (hb : b.Blurs b') :
    Blurs (CWithClasses.binaryType kind rule a b position)
      (CWithClasses.binaryType kind rule a' b' position) Ty.Blurs := by
  by_cases hunknown : (a'.isUnknown || b'.isUnknown) = true
  · have hright : CWithClasses.binaryType kind rule a' b' position =
        pure (CWithClasses.unknownOperands kind a') := if_pos hunknown
    rw [hright]
    exact unknownOperands kind rule position b ha
  · -- Neither operand has been forgotten.
    have hknown : ∀ {t t' : Ty}, t.Blurs t' → t'.isUnknown = false → t' = t := by
      rintro t t' (rfl | rfl) h
      · rfl
      · cases h
    simp only [Bool.or_eq_true, not_or, Bool.not_eq_true] at hunknown
    obtain rfl := hknown ha hunknown.1
    obtain rfl := hknown hb hunknown.2
    exact same (.binaryType position False.elim False.elim kind rule)

/-- A member of a base. -/
theorem memberOf (c : Clause) (member : Token) {a b : Ty} (h : a.Blurs b) :
    Blurs (c.memberOf a member) (c.memberOf b member) Ty.Blurs := by
  obtain rfl | rfl := h
  · unfold Clause.memberOf
    split
    · exact .ret (.refl _)
    · split
      · split
        · exact resolveMember _ member
        · exact mismatch _ _ _ _
      · split
        · exact resolveMember _ member
        · exact mismatch _ _ _ _
  · exact forget (.memberOf c a member)

/-- One argument of a call. -/
theorem checkArgument (param : Ty) {x y : Argument} (hty : x.ty.Blurs y.ty)
    (hposition : y.position = x.position) :
    Blurs (CWithClasses.checkArgument param x) (CWithClasses.checkArgument param y)
      fun _ _ => True := by
  unfold CWithClasses.checkArgument
  obtain hsame | hforgotten := hty
  · rw [hsame, hposition]
    split
    · exact .ret trivial
    · exact report _ _ _
  · -- Any value will do for an argument whose type has been forgotten.
    rw [hforgotten, compatible_of_isUnknown (a := param) (b := .unknown) rfl, if_pos rfl]
    split
    · exact .ret trivial
    · exact report _ _ _

/-- The arguments of a call. -/
theorem checkCall (f : FunctionTy) (position : Position) {arguments arguments' : List Argument}
    (harguments : List.Forall₂ (fun x y => x.ty.Blurs y.ty ∧ y.position = x.position)
      arguments arguments') :
    Blurs (CWithClasses.checkCall f arguments position)
      (CWithClasses.checkCall f arguments' position) fun _ _ => True := by
  have hpairs := forall₂_zip (List.forall₂_same.mpr fun p (_ : p ∈ f.params) => rfl) harguments
  unfold CWithClasses.checkCall
  rw [← harguments.length_eq]
  split
  · refine blurRules.forM hpairs ?_
    rintro ⟨param, x⟩ ⟨param', y⟩ ⟨hparam, hty, hposition⟩
    change param = param' at hparam
    subst hparam
    exact checkArgument param hty hposition
  · exact report _ _ _

/-- A call. -/
theorem callOf (c : Clause) {a b : Ty} {arguments arguments' : List Argument} (h : a.Blurs b)
    (harguments : List.Forall₂ (fun x y => x.ty.Blurs y.ty ∧ y.position = x.position)
      arguments arguments') :
    Blurs (c.callOf a arguments) (c.callOf b arguments') Ty.Blurs := by
  obtain rfl | rfl := h
  · unfold Clause.callOf
    split
    · exact .ret (.refl _)
    · split
      next f _ =>
        exact .seq (checkCall f c.position harguments) fun _ _ _ => .ret (.refl _)
      next => exact mismatch _ _ _ _
  · exact forget (.callOf c a arguments)

/-- The deletion of an operand. -/
theorem deleteOf (c : Clause) {a b : Ty} (h : a.Blurs b) :
    Blurs (c.deleteOf a) (c.deleteOf b) Ty.Blurs := by
  obtain rfl | rfl := h
  · exact same (.deleteOf c _)
  · change Blurs _ (pure Ty.void) _
    unfold Clause.deleteOf
    split
    · exact .ret (.refl _)
    · exact mismatch _ _ _ _

/-- Two branches, of which one may have been forgotten. -/
theorem branches (c : Clause) {a b a' b' : Ty} (ha : a.Blurs a') (hb : b.Blurs b') :
    Blurs (c.branches a b) (c.branches a' b') Ty.Blurs := by
  have honly : (c.branches a b).Looks True := IsVerdict.looks (.branches False.elim False.elim c)
  obtain rfl | rfl := ha
  · obtain rfl | rfl := hb
    · exact same (.branches False.elim False.elim c)
    · have hforgotten : commonType? a' .unknown = some .unknown := by
        simp [commonType?, commonArithmetic?, Ty.isUnknown]
      have hright : c.branches a' .unknown = pure .unknown := by
        unfold Clause.branches
        rw [hforgotten]
      rw [hright]
      exact forget honly
  · exact forget honly

/-- An assignment. -/
theorem assign (c : Clause) (operator : Token) (target value : Position) {a b a' b' : Ty}
    (ha : a.Blurs a') (hb : b.Blurs b') :
    Blurs (c.assign operator target value a b) (c.assign operator target value a' b') Ty.Blurs := by
  obtain rfl | rfl := ha
  · obtain rfl | rfl := hb
    · exact same (.assign c target value _ False.elim fun _ => trivial)
    · unfold Clause.assign
      split
      · exact .ret (.refl _)
      · split
        · exact mismatch _ _ _ _
        · change Blurs _ (pure a') _
          split
          · exact .ret (.refl _)
          · split
            · exact fun _ _ _ _ _ hrun => by cases hrun
            · split
              · exact .ret (.refl _)
              · exact reject _ _ _
  · exact forget (IsVerdict.looks (.assign c target value b False.elim fun _ => trivial))

/-- A type that is used as a number or as a truth value. -/
theorem unlessUnknown (accepts : Ty → Bool) (expected : String) (position : Position) {a b : Ty}
    (h : a.Blurs b) :
    Blurs
      (unless accepts a || a.isUnknown do Check.report (.typeMismatch expected a.render) position)
      (unless accepts b || b.isUnknown do Check.report (.typeMismatch expected b.render) position)
      fun _ _ => True := by
  obtain rfl | rfl := h
  · split
    · exact .ret trivial
    · exact report _ _ _
  · have hunknown : (accepts .unknown || Ty.unknown.isUnknown) = true := by simp [Ty.isUnknown]
    rw [if_pos hunknown]
    split
    · exact .ret trivial
    · exact report _ _ _

end Check.Blurs

/-- No step of an expression reports more after types have been forgotten. -/
def blurredExpressions : ExpressionPairs where
  toPairRules := blurRules
  ty := Ty.Blurs
  name _ := True
  void := .refl _
  constant _ := .refl _
  unsupported construct position := .reject (.unsupported construct) position _
  resolveName _ := .resolveName _
  stepType position h := by
    obtain rfl | rfl := h
    · exact .same (.stepType position False.elim)
    · exact .forget (IsVerdict.looks (.stepType position False.elim))
  indexType position h := by
    obtain rfl | rfl := h
    · exact .same (.indexType position False.elim)
    · exact .forget (IsVerdict.looks (.indexType position False.elim))
  checkIntegral position h := .unlessUnknown Ty.isIntegral _ position h
  unaryType rule position h := .unaryType rule position h
  binaryType kind rule position ha hb := .binaryType kind rule position ha hb
  memberOf c member h := .memberOf c member h
  callOf c h harguments := .callOf c h harguments
  deleteOf c h := .deleteOf c h
  checkTruth position h := .unlessUnknown Ty.isScalar _ position h
  branches c ha hb := .branches c ha hb
  assign c operator target value ha hb := .assign c operator target value ha hb

/-- An expression that names no type and that is right where it stands is right in a table in which
some types have been forgotten. Its type is what it was, or it is forgotten too. -/
theorem Node.checkExpression_blurred {n : Node} {s s₁ : Checker} {ty : Ty} {table : SymbolTable}
    (hplain : ∀ m ∈ n.subtrees, m.rule.namesType = false) (hlimit : s.limit = none)
    (hrun : n.checkExpression s = .ok ty s₁) (hquiet : s₁.diagnostics = s.diagnostics)
    (htable : s.symbols.Blurs table) :
    ∃ ty' s₁', n.checkExpression { s with symbols := table } = .ok ty' s₁' ∧
      s₁'.diagnostics = s.diagnostics ∧ (ty' = .unknown ∨ ty' = ty) := by
  have hphrase : n.phrase.Throughout blurredExpressions.Expression := by
    refine throughout_phrase fun m hm hparts => ?_
    change blurredExpressions.pair m.phrase.roles.expression m.phrase.roles.expression _
    rw [m.phrase_roles_eq]
    refine ExpressionPairs.expression hparts (fun _ _ => trivial) fun hnames => ?_
    change m.rule.namesType = true at hnames
    rw [hplain m hm] at hnames
    cases hnames
  have hstart : s.Blurs { s with symbols := table } := ⟨htable, hlimit⟩
  obtain ⟨ty', s₁', hrun', hquiet', -, hty⟩ := (hphrase.self s _ hstart ty s₁ hrun).quiet hquiet
  exact ⟨ty', s₁', hrun', hquiet', hty.symm⟩

/-- The expression `(p[x] = f(x)) ? x : 1`. -/
def storingExpression : Node :=
  let x := word .identifier "x"
  let element := tree .index [word .identifier "p", x]
  let value := tree .call [word .identifier "f", x]
  let store := tree .assignment [element, word .assign "=", value]
  { rule := .conditional, children := [store, x, word .intConst "1"] }

/-- A scope that binds the names `f`, `p` and `x`. -/
def storingTable (f x : Ty) : SymbolTable :=
  { current := { kind := .global, bindings := [("f", f), ("p", .pointer .int), ("x", x)] } }

/-- If nothing is known about `f` and `x` any more, nothing is known about the value of the
expression, but nothing is reported. -/
theorem Node.checkExpression_storingExpression :
    (∃ s₁, storingExpression.checkExpression
        { symbols := storingTable (.function 0 .int [.int] 1) .int } = .ok .int s₁ ∧
      s₁.diagnostics = []) ∧
    ∃ s₁', storingExpression.checkExpression { symbols := storingTable .unknown .unknown } =
        .ok .unknown s₁' ∧ s₁'.diagnostics = [] := by
  have htable : (storingTable (.function 0 .int [.int] 1) .int).Blurs
      (storingTable .unknown .unknown) := by
    refine ⟨.cons ⟨rfl, ?_⟩ .nil, fun _ => ⟨.nil, .nil⟩⟩
    exact .cons ⟨rfl, .inr rfl⟩ (.cons ⟨rfl, .inl rfl⟩ (.cons ⟨rfl, .inr rfl⟩ .nil))
  have hplain : ∀ m ∈ storingExpression.subtrees, m.rule.namesType = false := by decide
  obtain ⟨s₁, hrun, hquiet⟩ : ∃ s₁, storingExpression.checkExpression
      { symbols := storingTable (.function 0 .int [.int] 1) .int } = .ok .int s₁ ∧
      s₁.diagnostics = [] := ⟨_, rfl, rfl⟩
  obtain ⟨ty', s₁', hrun', hquiet', -⟩ := checkExpression_blurred hplain rfl hrun hquiet htable
  have hty : ty' = .unknown := (EStateM.Result.ok.inj hrun').1.symm
  exact ⟨⟨s₁, hrun, hquiet⟩, s₁', hty ▸ hrun', hquiet'⟩

end CWithClasses
