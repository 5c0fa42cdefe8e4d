import CWithClasses.Proofs.Blurring

/-!
# Forgotten arguments

Arguments that are accepted are still accepted after the types of some of them have been forgotten:
any parameter accepts a type that is unknown. So an argument that has been reported already gives no
rise to a second report, whether the arguments are those of a call or of a construction.

There is one exception. A class without a constructor can only be copied, from an object of that
very class. An object whose type has been forgotten is none, so it counts as an argument too many.
-/

namespace CWithClasses

open Check

/-- The step ends well and reports nothing. -/
def Check.Silent (x : Check Unit) (s : Checker) : Prop :=
  ∃ s₁, x s = .ok () s₁ ∧ s₁.diagnostics = s.diagnostics

/-- The second argument is the first one, or its type has been forgotten. -/
def Argument.Blurs (x y : Argument) : Prop := x.ty.Blurs y.ty ∧ y.position = x.position

/-- The class has no constructor, and nothing is known about the only argument, which should be an
object to copy. -/
structure Checker.LosesCopy (s : Checker) (c : ClassRef) (arguments : List Argument) : Prop where
  lacks : s.symbols.member? c c.name = none
  forgotten : ∃ argument, arguments = [argument] ∧ argument.ty = .unknown

variable {s : Checker} {c : ClassRef} {arguments arguments' : List Argument}

namespace Check.Silent

/-- A step that does nothing reports nothing. -/
theorem ret (s : Checker) : (pure () : Check Unit).Silent s := ⟨s, rfl, rfl⟩

/-- Only what a step does in the state matters. -/
theorem congr {x y : Check Unit} (h : x s = y s) : x.Silent s ↔ y.Silent s := by
  rw [Check.Silent, Check.Silent, h]

/-- A report is not silent. -/
theorem not_report (hlimit : s.limit = none) (e : Problem) (position : Position) :
    ¬ (Check.report e position).Silent s := by
  rintro ⟨s₁, hrun, hquiet⟩
  cases hrun
  have hmore : (s.reported ⟨e, position⟩).diagnostics = s.diagnostics ++ [⟨e, position⟩] :=
    s.diagnostics_reported_append hlimit
  rw [hquiet] at hmore
  simp at hmore

/-- A step that reports unless a condition holds. -/
theorem unless_iff (hlimit : s.limit = none) (condition : Bool) (e : Problem)
    (position : Position) :
    (unless condition do Check.report e position : Check Unit).Silent s ↔ condition = true := by
  cases condition with
  | true => exact ⟨fun _ => rfl, fun _ => ret s⟩
  | false => exact ⟨fun h => absurd h (not_report hlimit e position), nofun⟩

/-- A silent step is still silent after types have been forgotten. -/
theorem of_blurs {x y : Check Unit} {R : Unit → Unit → Prop} (h : x.Blurs y R)
    (hlimit : s.limit = none) (hx : x.Silent s) : y.Silent s := by
  obtain ⟨s₁, hrun, hquiet⟩ := hx
  obtain ⟨_, s₁', hrun', hquiet', -⟩ := (h s s ⟨.refl _, hlimit⟩ () s₁ hrun).quiet hquiet
  exact ⟨s₁', hrun', hquiet'⟩

end Check.Silent

/-! ### Constructors -/

/-- Without a constructor, nothing can be passed but an object to copy. -/
theorem checkConstructor_of_lacks (hlacks : s.symbols.member? c c.name = none)
    (arguments : List Argument) (position : Position) :
    checkConstructor c arguments position s =
      (unless arguments.isEmpty || isCopy c arguments do
        Check.report (.arityMismatch "0" arguments.length) position : Check Unit) s := by
  have hlookup : s.symbols.memberLookup c c.name (s.symbols.insideClass c) =
      .error (.notFound (c.name ++ "::" ++ c.name)) := by
    rw [SymbolTable.memberLookup, hlacks]
  rw [checkConstructor, bind_symbols, hlookup]

/-- Unless a class has no constructor, its construction is a call, or the arguments do not matter:
the member of that name is no function, or it is private. -/
theorem checkConstructor_cases (s : Checker) (c : ClassRef) :
    s.symbols.member? c c.name = none ∨
      (∃ f, ∀ arguments position,
        checkConstructor c arguments position s = checkCall f arguments position s) ∨
      (∀ arguments position, checkConstructor c arguments position s = .ok () s) ∨
      ∃ e, ∀ arguments position,
        checkConstructor c arguments position s = Check.report e position s := by
  cases hmember : s.symbols.member? c c.name with
  | none => exact .inl rfl
  | some member =>
    obtain ⟨access, ty⟩ := member
    right
    cases hlookup : s.symbols.memberLookup c c.name (s.symbols.insideClass c) with
    | ok ty =>
      cases hfunction : ty.function? with
      | some f =>
        refine .inl ⟨f, fun arguments position => ?_⟩
        rw [checkConstructor, bind_symbols, hlookup]
        dsimp only
        rw [hfunction]
      | none =>
        refine .inr (.inl fun arguments position => ?_)
        rw [checkConstructor, bind_symbols, hlookup]
        dsimp only
        rw [hfunction]
        rfl
    | error e =>
      have hprivate : e = .privateMember c.name c.name := by
        rw [SymbolTable.memberLookup, hmember] at hlookup
        cases access with
        | pub => cases hlookup
        | priv =>
          dsimp only at hlookup
          split at hlookup <;> cases hlookup
          rfl
      subst hprivate
      refine .inr (.inr ⟨.privateMember c.name c.name, fun arguments position => ?_⟩)
      rw [checkConstructor, bind_symbols, hlookup]

/-- An object that has been forgotten is an argument too many. -/
theorem Checker.LosesCopy.checkConstructor_eq (h : s.LosesCopy c arguments) (position : Position) :
    checkConstructor c arguments position s =
      .ok () (s.reported ⟨.arityMismatch "0" 1, position⟩) := by
  obtain ⟨argument, rfl, hunknown⟩ := h.forgotten
  have hnocopy : ([argument].isEmpty || isCopy c [argument]) = false := by
    rw [isCopy, hunknown]
    rfl
  rw [checkConstructor_of_lacks h.lacks, hnocopy]
  rfl

/-- A copy is still a copy unless its type has been forgotten. -/
theorem isCopy_of_forgotten (hforget : List.Forall₂ Argument.Blurs arguments arguments')
    (hcopy : (arguments.isEmpty || isCopy c arguments) = true) :
    (arguments'.isEmpty || isCopy c arguments') = true ∨
      ∃ argument, arguments' = [argument] ∧ argument.ty = .unknown := by
  cases hforget with
  | nil => exact .inl rfl
  | @cons x y rest rest' hxy hrest =>
    cases hrest with
    | nil =>
      rcases hxy.1 with hsame | hunknown
      · rw [isCopy, ← hsame] at hcopy
        exact .inl hcopy
      · exact .inr ⟨y, rfl, hunknown⟩
    | cons => cases hcopy

/-- The construction of an object of a class after types have been forgotten. -/
theorem checkConstructor_forgotten (hlimit : s.limit = none)
    (hforget : List.Forall₂ Argument.Blurs arguments arguments') {position : Position}
    (hsilent : (checkConstructor c arguments position).Silent s) :
    (checkConstructor c arguments' position).Silent s ∧ ¬ s.LosesCopy c arguments' ∨
      s.LosesCopy c arguments' ∧
        checkConstructor c arguments' position s =
          .ok () (s.reported ⟨.arityMismatch "0" 1, position⟩) := by
  by_cases hloses : s.LosesCopy c arguments'
  · exact .inr ⟨hloses, hloses.checkConstructor_eq position⟩
  · refine .inl ⟨?_, hloses⟩
    rcases checkConstructor_cases s c with hlacks | ⟨f, hcall⟩ | hignores | ⟨e, hrefuses⟩
    · rw [Check.Silent.congr (checkConstructor_of_lacks hlacks _ _),
        Check.Silent.unless_iff hlimit] at hsilent ⊢
      rcases isCopy_of_forgotten hforget hsilent with hcopy | hforgotten
      · exact hcopy
      · exact absurd ⟨hlacks, hforgotten⟩ hloses
    · rw [Check.Silent.congr (hcall _ _)] at hsilent ⊢
      exact .of_blurs (.checkCall f position hforget) hlimit hsilent
    · exact ⟨s, hignores arguments' position, rfl⟩
    · rw [Check.Silent.congr (hrefuses _ _)] at hsilent
      exact absurd hsilent (Check.Silent.not_report hlimit _ _)

/-! ### Constructions -/

/-- Any value will do to initialize an object if its type has been forgotten. -/
theorem initializable_unknown (declared : Ty) : initializable declared .unknown = true := by
  unfold initializable
  rw [compatible_of_isUnknown (a := declared) (b := .unknown) rfl, Bool.true_or]

/-- What is no object of a class is constructed from nothing or from one value. -/
theorem silent_value_iff {ty : Ty} (hvalue : ty.objectClass? = none) (hlimit : s.limit = none)
    (arguments : List Argument) (position : Position) :
    (checkConstruction ty arguments position).Silent s ↔
      ty.isUnknown = true ∨ arguments = [] ∨
        ∃ argument, arguments = [argument] ∧ initializable ty argument.ty = true := by
  unfold checkConstruction
  rw [hvalue]
  by_cases hunknown : ty.isUnknown = true
  · rw [if_pos hunknown]
    exact iff_of_true (.ret s) (.inl hunknown)
  · rw [if_neg hunknown]
    cases arguments with
    | nil => exact iff_of_true (.ret s) (.inr (.inl rfl))
    | cons argument rest =>
      cases rest with
      | nil =>
        refine (Check.Silent.unless_iff hlimit _ _ _).trans ?_
        simp [hunknown]
      | cons next rest =>
        refine iff_of_false (Check.Silent.not_report hlimit _ _) ?_
        simp [hunknown]

/-- The construction of an object of no class after types have been forgotten. -/
theorem silent_value_forgotten {ty : Ty} (hvalue : ty.objectClass? = none)
    (hlimit : s.limit = none) (hforget : List.Forall₂ Argument.Blurs arguments arguments')
    {position : Position} (hsilent : (checkConstruction ty arguments position).Silent s) :
    (checkConstruction ty arguments' position).Silent s := by
  rw [silent_value_iff hvalue hlimit] at hsilent ⊢
  rcases hsilent with hunknown | rfl | ⟨x, rfl, hx⟩
  · exact .inl hunknown
  · cases hforget
    exact .inr (.inl rfl)
  · cases hforget with
    | @cons _ y _ _ hxy hrest =>
      cases hrest
      refine .inr (.inr ⟨y, rfl, ?_⟩)
      rcases hxy.1 with hsame | hunknown
      · rw [hsame]
        exact hx
      · rw [hunknown]
        exact initializable_unknown ty

/-- The construction of an object of a class asks for a constructor. -/
theorem checkConstruction_object (c : ClassRef) (arguments : List Argument) (position : Position) :
    checkConstruction (.object c) arguments position = checkConstructor c arguments position :=
  rfl

/-- Where the arguments of a call or of a construction are accepted, they are still accepted after
the types of some of them have been forgotten. The exception is an object of a class without a
constructor that is copied from a single object: once the type of that object has been forgotten, it
is reported that no argument is expected. -/
theorem silent_of_forgotten (hlimit : s.limit = none)
    (hforget : List.Forall₂ Argument.Blurs arguments arguments') (position : Position) :
    (∀ f, (checkCall f arguments position).Silent s → (checkCall f arguments' position).Silent s) ∧
      (∀ c, (checkConstructor c arguments position).Silent s →
        (checkConstructor c arguments' position).Silent s ∧ ¬ s.LosesCopy c arguments' ∨
          s.LosesCopy c arguments' ∧
            checkConstructor c arguments' position s =
              .ok () (s.reported ⟨.arityMismatch "0" 1, position⟩)) ∧
      ∀ ty, (checkConstruction ty arguments position).Silent s →
        (checkConstruction ty arguments' position).Silent s ∧
            (∀ c, ty = .object c → ¬ s.LosesCopy c arguments') ∨
          ∃ c, ty = .object c ∧ s.LosesCopy c arguments' ∧
            checkConstruction ty arguments' position s =
              .ok () (s.reported ⟨.arityMismatch "0" 1, position⟩) := by
  refine ⟨fun f => .of_blurs (.checkCall f position hforget) hlimit,
    fun c => checkConstructor_forgotten hlimit hforget, fun ty hsilent => ?_⟩
  cases hclass : ty.objectClass? with
  | none =>
    refine .inl ⟨silent_value_forgotten hclass hlimit hforget hsilent, ?_⟩
    rintro c rfl
    cases hclass
  | some c =>
    have hobject : ty = .object c := by
      cases ty with
      | object d => exact congrArg Ty.object (Option.some.inj hclass)
      | _ => cases hclass
    subst hobject
    rw [checkConstruction_object] at hsilent ⊢
    rcases checkConstructor_forgotten hlimit hforget hsilent with ⟨hstill, hkept⟩ | ⟨hloses, hrun⟩
    · refine .inl ⟨hstill, ?_⟩
      rintro d hd
      cases hd
      exact hkept
    · exact .inr ⟨c, rfl, hloses, hrun⟩

/-- The class `Point` has a constructor that takes a number and a pointer to another point, the
class `Tag` has none. -/
def pointState : Checker where
  symbols :=
    { current :=
        { kind := .global
          bindings := [("Tag", .object ⟨1, "Tag"⟩), ("Point", .object ⟨0, "Point"⟩)] }
      classes := #[
        { publicMembers :=
            [("Point", .function 0 .void [.double, .pointer (.object ⟨0, "Point"⟩)] 1)]
          complete := true },
        { complete := true }] }

/-- If nothing is known about the number any more, a point can still be constructed, by a call and
in a declaration. -/
theorem silent_forgottenNumber :
    let point : Ty := .object ⟨0, "Point"⟩
    let constructor : FunctionTy := ⟨0, .void, [.double, .pointer point], 1⟩
    let next : Argument := ⟨.pointer point, ⟨1, "point.cpp"⟩⟩
    let known := [⟨.int, ⟨1, "point.cpp"⟩⟩, next]
    let forgotten := [⟨.unknown, ⟨1, "point.cpp"⟩⟩, next]
    (pointState.limit = none ∧ List.Forall₂ Argument.Blurs known forgotten) ∧
      ((checkCall constructor known .null).Silent pointState ∧
        (checkCall constructor forgotten .null).Silent pointState) ∧
      ((checkConstructor ⟨0, "Point"⟩ known .null).Silent pointState ∧
        (checkConstructor ⟨0, "Point"⟩ forgotten .null).Silent pointState) ∧
      (checkConstruction point known .null).Silent pointState ∧
        (checkConstruction point forgotten .null).Silent pointState := by
  intro point constructor next known forgotten
  have hforget : List.Forall₂ Argument.Blurs known forgotten :=
    .cons ⟨.inr rfl, rfl⟩ (.cons ⟨.refl _, rfl⟩ .nil)
  have hkept : ∀ c, ¬ pointState.LosesCopy c forgotten := by
    rintro c ⟨-, argument, hsingle, -⟩
    simp [forgotten] at hsingle
  have hcalled : (checkCall constructor known .null).Silent pointState := ⟨pointState, rfl, rfl⟩
  have hbuilt : (checkConstructor ⟨0, "Point"⟩ known .null).Silent pointState :=
    ⟨pointState, rfl, rfl⟩
  have hdeclared : (checkConstruction point known .null).Silent pointState :=
    ⟨pointState, rfl, rfl⟩
  obtain ⟨hcall, hconstructor, hconstruction⟩ :=
    silent_of_forgotten (s := pointState) rfl hforget .null
  refine ⟨⟨rfl, hforget⟩, ⟨hcalled, hcall constructor hcalled⟩, ⟨hbuilt, ?_⟩, hdeclared, ?_⟩
  · rcases hconstructor _ hbuilt with ⟨hstill, -⟩ | ⟨hloses, -⟩
    · exact hstill
    · exact absurd hloses (hkept _)
  · rcases hconstruction _ hdeclared with ⟨hstill, -⟩ | ⟨c, -, hloses, -⟩
    · exact hstill
    · exact absurd hloses (hkept c)

/-- A tag can be copied from a tag. If nothing is known about the tag to copy any more, it is
reported that a tag takes no arguments. -/
theorem forgottenTag_reported :
    let tag : ClassRef := ⟨1, "Tag"⟩
    let known : List Argument := [⟨.object tag, ⟨1, "tag.cpp"⟩⟩]
    let forgotten : List Argument := [⟨.unknown, ⟨1, "tag.cpp"⟩⟩]
    List.Forall₂ Argument.Blurs known forgotten ∧
      ((checkConstructor tag known .null).Silent pointState ∧
        ¬ (checkConstructor tag forgotten .null).Silent pointState) ∧
      (checkConstruction (.object tag) known .null).Silent pointState ∧
        ¬ (checkConstruction (.object tag) forgotten .null).Silent pointState := by
  intro tag known forgotten
  have hloud : ¬ (checkConstructor tag forgotten .null).Silent pointState := by
    rintro ⟨s₁, hrun, hquiet⟩
    cases hrun
    cases hquiet
  exact ⟨.cons ⟨.inr rfl, rfl⟩ .nil, ⟨⟨pointState, rfl, rfl⟩, hloud⟩, ⟨pointState, rfl, rfl⟩, hloud⟩

end CWithClasses
