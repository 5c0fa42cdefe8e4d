import CWithClasses.Proofs.Pairs.Expression
import CWithClasses.Proofs.Sameness
import CWithClasses.Proofs.Verdict

/-!
# Steps that read

Specifiers, declarators and expressions look up names, make functions and report problems. Unless a
class is specified in them, or named with its key, they bind nothing. A `ReadingLogic` asks for what
these few steps do, and for no more: nothing is assumed about the names that are looked up. So of
the steps that an expression ends with it is only shown that they keep to the logic.
-/

namespace CWithClasses

open Check

/-! ### The functions that a type mentions -/

variable {F : Nat → Prop}

namespace Ty

/-- The type mentions no functions but those with the property. -/
def Over (F : Nat → Prop) (t : Ty) : Prop := ∀ i ∈ t.mentions.functions, F i

/-- A type that mentions no functions. -/
theorem over_of_none {t : Ty} (h : t.mentions.functions = []) : t.Over F := by
  intro i hi
  rw [h] at hi
  cases hi

@[simp] theorem over_pointer {t : Ty} : (pointer t).Over F ↔ t.Over F := Iff.rfl

/-- A function mentions itself, and what its result and its parameters mention. -/
@[simp] theorem over_function {id required : Nat} {result : Ty} {params : List Ty} :
    (function id result params required).Over F ↔
      F id ∧ result.Over F ∧ ∀ t ∈ params, t.Over F := by
  have hparams : (∀ i ∈ (mentionsOf params).functions, F i) ↔ ∀ t ∈ params, t.Over F := by
    induction params with
    | nil => simp [mentionsOf]
    | cons t rest ih =>
      change (∀ i ∈ t.mentions.functions ++ (mentionsOf rest).functions, F i) ↔ _
      simp only [List.mem_append, or_imp, forall_and, List.forall_mem_cons, ih, Over]
  change (∀ i ∈ [id] ++ result.mentions.functions ++ (mentionsOf params).functions, F i) ↔ _
  simp only [List.mem_append, List.mem_singleton, or_imp, forall_and, forall_eq, hparams, Over,
    and_assoc]

/-- What is mentioned by the type of a function. -/
theorem Over.function? {t : Ty} {f : FunctionTy} (h : t.Over F) (hf : t.function? = some f) :
    F f.id ∧ ∀ u ∈ f.params, u.Over F := by
  unfold Ty.function? at hf
  split at hf <;> cases hf
  exact ⟨(over_function.mp h).1, (over_function.mp h).2.2⟩

/-- Types that are the same as others are no functions if these are none. -/
theorem function?_eq_none_of_sameTypes {ts us : List Ty} (h : sameTypes ts us = true)
    (hus : ∀ u ∈ us, u.function? = none) : ∀ t ∈ ts, t.function? = none := by
  induction ts generalizing us with
  | nil => exact fun t ht => by cases ht
  | cons t ts ih =>
    cases us with
    | nil => cases h
    | cons u us =>
      rw [sameTypes, Bool.and_eq_true] at h
      rw [List.forall_mem_cons] at hus ⊢
      refine ⟨?_, ih h.2 hus.2⟩
      cases t with
      | function =>
        cases u <;> first | cases h.1 | cases hus.1
      | _ => rfl

/-- Decay only adds pointers. -/
theorem Over.decay {t : Ty} (h : t.Over F) : t.decay.Over F := by
  unfold Ty.decay
  split <;> exact h

/-- No type decays to a function. -/
theorem function?_decay (t : Ty) : t.decay.function? = none := by
  cases t <;> rfl

/-- Only an object decays to an object. -/
theorem eq_of_decay_eq_object {t : Ty} {c : ClassRef} (h : t.decay = .object c) :
    t = .object c := by
  unfold Ty.decay at h
  split at h
  · cases h
  · cases h
  · exact h

end Ty

/-! ### Guards -/

/-- The functions that may get bodies, the classes that may be named and opened, and the types that
may be bound to names. -/
structure TypeGuard where
  functions : Nat → Prop
  classes : ClassRef → Prop
  types : Ty → Prop
  plain : ∀ {t : Ty}, t.mentions.functions = [] → t.mentions.classes = [] → types t
  object : ∀ {c : ClassRef}, classes c → types (.object c)
  opens : ∀ {t : Ty} {c : ClassRef}, types t → t.asClass? = some c → classes c
  pointer : ∀ {t : Ty}, types t → types (.pointer t)
  array : ∀ {t : Ty} (size : Nat), types t → types (.array t size)
  /-- Only the element type of an array matters. -/
  resize : ∀ {t : Ty} {size : Nat} (count : Nat), types (.array t size) → types (.array t count)
  decay : ∀ {t : Ty}, types t → types t.decay
  function : ∀ {id required : Nat} {result : Ty} {params : List Ty}, functions id → types result →
    (∀ t ∈ params, types t) → types (.function id result params required)
  defines : ∀ {t : Ty} {f : FunctionTy}, types t → t.function? = some f → functions f.id
  /-- The parameters of a function may be bound if others of the same types are no functions. -/
  parameters : ∀ {t : Ty} {f : FunctionTy} {declared : List Ty}, types t → t.function? = some f →
    sameTypes f.params declared = true → (∀ u ∈ declared, u.function? = none) →
    ∀ u ∈ f.params, types u

namespace TypeGuard

variable (G : TypeGuard)

@[simp] theorem unknown : G.types .unknown := G.plain rfl rfl
@[simp] theorem void : G.types .void := G.plain rfl rfl
@[simp] theorem int : G.types .int := G.plain rfl rfl

/-- A primitive type may be bound. -/
theorem primitive {kind : TokenKind} {t : Ty} (h : kind.primitive? = some t) : G.types t := by
  unfold TokenKind.primitive? at h
  split at h <;> cases h <;> exact G.plain rfl rfl

/-- All classes may be named. -/
def Open : Prop := ∀ c, G.classes c

/-- Types that mention no functions but those with the property. -/
def deep (F : Nat → Prop) : TypeGuard where
  functions := F
  classes _ := True
  types := Ty.Over F
  plain h _ := Ty.over_of_none h
  object _ := Ty.over_of_none rfl
  opens _ _ := trivial
  pointer := id
  array _ := id
  resize _ := id
  decay := Ty.Over.decay
  function hid hresult hparams := Ty.over_function.mpr ⟨hid, hresult, hparams⟩
  defines := fun h hf => (h.function? hf).1
  parameters := fun h hf _ _ => (h.function? hf).2

/-- Types that are no functions but those with the property. -/
def shallow (F : Nat → Prop) : TypeGuard where
  functions := F
  classes _ := True
  types t := ∀ f, t.function? = some f → F f.id
  plain {t} h _ f hf := by
    cases t <;> cases hf
    cases h
  object _ _ hf := by cases hf
  opens _ _ := trivial
  pointer _ _ hf := by cases hf
  array _ _ _ hf := by cases hf
  resize _ _ _ hf := by cases hf
  decay {t} _ f hf := by
    rw [t.function?_decay] at hf
    cases hf
  function hid _ _ f hf := by
    cases hf
    exact hid
  defines h hf := h _ hf
  parameters _ _ hsame hdeclared u hu f hf := by
    rw [Ty.function?_eq_none_of_sameTypes hsame hdeclared u hu] at hf
    cases hf

/-- Only functions are guarded. -/
theorem Open.deep (F : Nat → Prop) : (TypeGuard.deep F).Open := fun _ => trivial

/-- Only functions are guarded. -/
theorem Open.shallow (F : Nat → Prop) : (TypeGuard.shallow F).Open := fun _ => trivial

end TypeGuard

/-! ### The logic -/

/-- The classes that are found by their names may be named. -/
structure SymbolTable.Offers (G : TypeGuard) (t : SymbolTable) : Prop where
  names : ∀ name c, t.lookupTypeName name = .ok (.object c) → G.classes c
  members : ∀ c name inside d, t.memberLookup c name inside = .ok (.object d) → G.classes d

/-- Nothing is asked for if all classes may be named. -/
theorem TypeGuard.Open.offers {G : TypeGuard} (h : G.Open) (t : SymbolTable) : t.Offers G :=
  ⟨fun _ c _ => h c, fun _ _ _ d _ => h d⟩

/-- What has to be shown of the steps by which types are read. -/
structure ReadingLogic extends StepRules where
  guard : TypeGuard
  /-- The names that an object may have. -/
  names : String → Prop
  fault : ∀ {α : Type} {p : Prop} {Q : α → Prop} (e : Fault), triple p (throw e) Q
  symbols : ∀ {p : Prop}, triple p Check.symbols (SymbolTable.Offers guard)
  log : ∀ {p : Prop} (e : Event), triple p (Check.log e) fun _ => True
  report : ∀ {p : Prop} {e : Problem} (position : Position), ¬ e.isRedeclaration = true →
    triple p (Check.report e position) fun _ => True
  resolve : ∀ {p : Prop} (name : String) (position : Position) (ty : Ty),
    triple p (Check.resolve name position ty) fun _ => True
  newFunction : ∀ {p : Prop} {result : Ty} {params : List Ty} (required : Nat),
    (p → guard.types result ∧ ∀ t ∈ params, guard.types t) →
    triple p (Check.newFunction result params required) guard.types

namespace ReadingLogic

variable (L : ReadingLogic) {α β : Type} {p : Prop}

/-! ### Parts and tokens -/

/-- Taking a part of a construct, and going on with it. -/
theorem part {c : Clause} {i : Nat} {f : Phrase → Check β} {Q : β → Prop}
    (hf : ∀ q, c.part? i = some q → L.triple p (f q) Q) : L.triple p (c.part i >>= f) Q := by
  unfold Clause.part
  cases hpart : c.part? i with
  | none => exact L.fault _
  | some q => exact hf q hpart

/-- Reading something off the tree, and going on with it. -/
theorem lift {x : Except Fault α} {f : α → Check β} {Q : β → Prop}
    (hf : ∀ a, L.triple p (f a) Q) : L.triple p ((liftM x : Check α) >>= f) Q := by
  cases x with
  | error e => exact L.fault e
  | ok a => exact hf a

/-- Reading the token of a leaf, and going on with it. -/
theorem leaf {n : Node} {f : Token → Check β} {Q : β → Prop}
    (hf : ∀ t, n.token = some t → L.triple p (f t) Q) :
    L.triple p ((liftM n.leafToken : Check Token) >>= f) Q := by
  unfold Node.leafToken
  cases htoken : n.token with
  | none => exact L.fault _
  | some t => exact hf t htoken

/-- A construct that has no meaning. -/
theorem unexpected {Q : α → Prop} (c : Clause) (context : String) :
    L.triple p (c.unexpected context) Q :=
  L.fault _

/-! ### Steps whose results do not matter -/

/-- The step keeps to the logic, whatever is assumed. -/
def Idle (x : Check α) : Prop := ∀ p, L.triple p x fun _ => True

variable {L}

namespace Idle

/-- A step that only has a result. -/
theorem ret (a : α) : L.Idle (pure a) := fun _ => L.ret a fun _ => trivial

/-- A step about whose result more is known. -/
theorem of {x : Check α} {Q : α → Prop} (hx : ∀ p, L.triple p x Q) : L.Idle x :=
  fun p => L.post (hx p) fun _ _ _ => trivial

/-- One step after another. -/
theorem bind {x : Check α} {f : α → Check β} (hx : L.Idle x) (hf : ∀ a, L.Idle (f a)) :
    L.Idle (x >>= f) :=
  fun p => L.next (hx p) fun a => hf a p

/-- A report of anything but a redeclaration. -/
theorem report {e : Problem} (position : Position) (he : ¬ e.isRedeclaration = true) :
    L.Idle (Check.report e position) :=
  fun _ => L.report position he

end Idle

/-- Rejecting a construct gives it an unknown type. -/
theorem reject {e : Problem} (position : Position) (he : ¬ e.isRedeclaration = true) :
    L.triple p (Check.reject e position) (· = .unknown) :=
  L.next (L.report position he) fun _ => L.ret _ fun _ => rfl

/-- A mismatch is a rejection. -/
theorem mismatch (expected : String) (received : Ty) (position : Position) :
    L.triple p (Check.mismatch expected received position) (· = .unknown) :=
  reject position nofun

namespace Idle

/-- A step that only looks. -/
theorem looks {x : Check α} (hx : x.Looks True) : L.Idle x := by
  induction hx with
  | ret a => exact .ret a
  | bind _ _ ihx ihf => exact ihx.bind ihf
  | symbols => exact .of fun _ => L.symbols
  | report position he => exact .report position (Problem.isPlain_iff.mp he).2
  | fault e => exact fun _ => L.fault e
  | resolve name position ty => exact fun _ => L.resolve name position ty

/-- A step that only looks, of whose result nothing is said. -/
theorem pair (b : β) {x : Check α} (hx : x.Looks True) :
    L.Idle x ∧ x.Yields fun _ => ∃ _ : β, True :=
  ⟨looks hx, fun _ _ _ _ => ⟨b, trivial⟩⟩

end Idle

/-! ### Expressions -/

/-- The steps of an expression, as a run that goes together with itself. Nothing is said of
types. -/
def expressions (L : ReadingLogic) : ExpressionPairs where
  pair x _ R := L.Idle x ∧ x.Yields fun a => ∃ b, R a b
  ret h := ⟨.ret _, .ret ⟨_, h⟩⟩
  seq hx hf := by
    refine ⟨fun p => L.seq hx.2 (hx.1 p) fun a ⟨b, hab⟩ => (hf a b hab).1 _, ?_⟩
    exact hx.2.bind fun a ⟨b, hab⟩ => (hf a b hab).2
  fault e := ⟨fun _ => L.fault e, .fault e⟩
  ty _ _ := True
  name _ := True
  void := trivial
  constant _ := trivial
  unsupported _ position := Idle.pair .void (.reject position rfl)
  resolveName _ := Idle.pair .void (.resolveName _)
  stepType position _ := Idle.pair .void (Check.IsVerdict.looks (.stepType position False.elim))
  indexType position _ := Idle.pair .void (Check.IsVerdict.looks (.indexType position False.elim))
  checkIntegral position _ := Idle.pair () (.checkIntegral _ position)
  unaryType rule position _ :=
    Idle.pair .void (Check.IsVerdict.looks (.unaryType position rule False.elim))
  binaryType kind rule position _ _ :=
    Idle.pair .void (Check.IsVerdict.looks (.binaryType position False.elim False.elim kind rule))
  memberOf c member _ := Idle.pair .void (.memberOf c _ member)
  callOf c _ _ := Idle.pair .void (.callOf c _ _)
  deleteOf c _ := Idle.pair .void (Check.IsVerdict.looks (.deleteOf c _))
  checkTruth position _ := Idle.pair () (.checkTruth _ position)
  branches c _ _ := Idle.pair .void (Check.IsVerdict.looks (.branches False.elim False.elim c))
  assign c _ target value _ _ :=
    Idle.pair .void (Check.IsVerdict.looks (.assign c target value _ False.elim fun _ => trivial))

/-- A step whose result does not matter goes together with every other. -/
theorem pair_of_idle {x y : Check Unit} (hx : L.Idle x) : L.expressions.pair x y fun _ _ => True :=
  ⟨hx, fun _ _ _ _ => ⟨(), trivial⟩⟩

end ReadingLogic

end CWithClasses
