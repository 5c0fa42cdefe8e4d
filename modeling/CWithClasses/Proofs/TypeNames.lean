import CWithClasses.Proofs.Redefinition

/-!
# What a name means as a type

As a type, a name means the innermost class of that name whose body is open. If there is none, it
means what the innermost scope says that binds it, and that has to be a class. So a class that is
declared in a block hides the classes and the objects of the same name around it, up to the end of
the block; but inside the body of a class nothing hides the class itself, not even a class of the
same name that one of its methods declares.
-/

namespace CWithClasses

open Node (word tree)

/-- The class of the given name whose body the scope is. -/
def Frame.opens? (f : Frame) (name : String) : Option ClassRef :=
  f.cls?.filter fun c => c.name == name

namespace SymbolTable

variable {t : SymbolTable} {name : String}

/-- What is found in the innermost scope in which anything is found. -/
def Innermost {α : Type} (t : SymbolTable) (finds : Frame → Option α) (a : α) : Prop :=
  ∃ above f below, t.frames = above ++ f :: below ∧ finds f = some a ∧ ∀ g ∈ above, finds g = none

/-- The scopes are asked from the innermost one outwards. -/
theorem findSome?_frames {α : Type} {finds : Frame → Option α} {a : α} :
    t.frames.findSome? finds = some a ↔ t.Innermost finds a :=
  List.findSome?_eq_some_iff

/-- No class of the name is open. -/
theorem openClass?_eq_none : t.openClass? name = none ↔ ∀ f ∈ t.frames, f.opens? name = none :=
  List.findSome?_eq_none_iff

/-- As long as no class of the name is open, the name is looked up like any other. -/
theorem lookupTypeName_of_closed {ty : Ty} (h : t.openClass? name = none) :
    t.lookupTypeName name = .ok ty ↔ ∃ c, ty = .object c ∧ t.lookup? name = some (.object c) := by
  unfold lookupTypeName lookup
  rw [h]
  cases t.lookup? name with
  | none =>
    constructor
    · intro hfound
      cases hfound
    · rintro ⟨c, -, hfound⟩
      cases hfound
  | some found =>
    constructor
    · intro hfound
      cases found with
      | object c =>
        cases hfound
        exact ⟨c, rfl, rfl⟩
      | _ => cases hfound
    · rintro ⟨c, rfl, hfound⟩
      cases hfound
      rfl

/-- What a name means as a type. -/
theorem lookupTypeName_eq_ok_iff {ty : Ty} :
    t.lookupTypeName name = .ok ty ↔ ∃ c, ty = .object c ∧
      (t.Innermost (·.opens? name) c ∨ (∀ f ∈ t.frames, f.opens? name = none) ∧
        t.Innermost (t.findIn · name) (.object c)) := by
  cases hopen : t.openClass? name with
  | none =>
    have hclosed := openClass?_eq_none.mp hopen
    rw [lookupTypeName_of_closed hopen]
    refine exists_congr fun c => and_congr_right fun _ => ?_
    have hnot : ¬ t.Innermost (·.opens? name) c := by
      rw [← findSome?_frames]
      exact fun h => Option.some_ne_none c (h.symm.trans hopen)
    rw [lookup?, findSome?_frames]
    exact ⟨fun h => .inr ⟨hclosed, h⟩, fun h => (h.resolve_left hnot).2⟩
  | some c =>
    have hinner := findSome?_frames.mp hopen
    have hlookup : t.lookupTypeName name = .ok (.object c) := by
      unfold lookupTypeName
      rw [hopen]
    constructor
    · intro h
      exact ⟨c, Except.ok.inj (h.symm.trans hlookup), .inl hinner⟩
    · rintro ⟨d, rfl, hfound | ⟨hclosed, -⟩⟩
      · have hsame : some d = some c := (findSome?_frames.mpr hfound).symm.trans hopen
        rw [Option.some.inj hsame]
        exact hlookup
      · exact absurd (hopen.symm.trans (openClass?_eq_none.mpr hclosed)) (Option.some_ne_none c)

end SymbolTable

/-- The same classes are open if the scopes are of the same kinds. -/
theorem SymbolTable.openClass?_eq (t : SymbolTable) (name : String) :
    t.openClass? name = t.bound.findSome? fun scope =>
      (Frame.mk scope.1 scope.2 [] .pub).opens? name := by
  unfold openClass? bound
  rw [List.findSome?_map]
  rfl

namespace Checker.Keeps

variable {s s' : Checker} {name : String}

/-- The classes whose bodies are open stay the same. -/
theorem openClass? (h : s.Keeps [] s') (name : String) :
    s'.symbols.openClass? name = s.symbols.openClass? name := by
  obtain ⟨new, hbound, -⟩ := h.symbols.bound
  rw [SymbolTable.openClass?_eq, SymbolTable.openClass?_eq, hbound, s.symbols.bound_eq]
  rfl

/-- A class that the innermost scope binds keeps its name there, unless the scope is a class
body. -/
theorem lookupTypeName {c : ClassRef} (h : s.Keeps [] s') (hcls : s.symbols.current.cls? = none)
    (hclosed : s.symbols.openClass? name = none)
    (hc : s.symbols.lookupLocal? name = some (.object c)) :
    s'.symbols.lookupTypeName name = .ok (.object c) := by
  have hlocal : s'.symbols.findIn s'.symbols.current name = some (.object c) := by
    unfold SymbolTable.lookupLocal? SymbolTable.findIn at hc
    unfold SymbolTable.findIn
    rw [hcls] at hc
    rw [h.cls?, hcls]
    exact h.lookup hc
  have hfound : s'.symbols.lookup? name = some (.object c) := by
    unfold SymbolTable.lookup? SymbolTable.frames
    rw [List.findSome?_cons_of_isSome (by rw [hlocal]; rfl)]
    exact hlocal
  rw [SymbolTable.lookupTypeName_of_closed ((h.openClass? name).trans hclosed)]
  exact ⟨c, rfl, hfound⟩

end Checker.Keeps

/-- In every table: as a type, a name means the innermost class of that name that is open, and if
none is open, the class that the innermost scope binds that binds the name at all. So a class that
is declared in a scope hides, for the rest of this scope, whatever has the same name around it, as
long as that is no class in whose body the scope stands. -/
theorem lookupTypeName_innermost (name : String) :
    (∀ (t : SymbolTable) (ty : Ty), t.lookupTypeName name = .ok ty ↔ ∃ c, ty = .object c ∧
      (t.Innermost (·.opens? name) c ∨ (∀ f ∈ t.frames, f.opens? name = none) ∧
        t.Innermost (t.findIn · name) (.object c))) ∧
    ∀ (n : Node) (s s₁ : Checker) (ty : Ty) (c : ClassRef), s.symbols.current.cls? = none →
      s.symbols.lookupLocal? name = some (.object c) →
      (∀ f ∈ s.symbols.frames, f.opens? name = none) →
      n.check s = .ok ty s₁ → s₁.symbols.lookupTypeName name = .ok (.object c) := by
  refine ⟨fun t ty => SymbolTable.lookupTypeName_eq_ok_iff, ?_⟩
  intro n s s₁ ty c hcls hc hclosed hrun
  have hkeeps : n.check.Keeps := bindingsLogic.toStepLogic.check (p := True) (.inl trivial)
  exact (hkeeps.of_ok hrun).lookupTypeName hcls (SymbolTable.openClass?_eq_none.mpr hclosed) hc

/-- A class `S`, and the scope of a function inside of the given scopes. -/
def functionScope (around : List Frame) : Checker where
  symbols :=
    { current := { kind := .function }
      outer := around ++ [{ kind := .global, bindings := [("S", .object ⟨0, "S"⟩)] }]
      classes := #[{ complete := true }] }

/-- The declaration `struct S { int a; };`. -/
def localClass : Node :=
  { rule := .simpleDecl
    children := [tree .classSpec [tree .classHead [word .structKey "struct", word .identifier "S"],
      tree .memberSpec [tree .memberDecl [word .intType "int", word .identifier "a"], none]]] }

/-- The declaration `S x;`. -/
def localObject : Node :=
  { rule := .simpleDecl
    children := [word .className "S" 2, word .identifier "x" 2] }

/-- In a function that belongs to no class, a local class `S` hides the one around the function, and
an object `x` declared behind it is of the local class. -/
theorem lookupTypeName_localClass :
    ∃ s₁ s₂, localClass.check (functionScope []) = .ok .void s₁ ∧
      localObject.check s₁ = .ok .void s₂ ∧
      s₂.symbols.lookupLocal? "x" = some (.object ⟨1, "S"⟩) ∧
      s₂.symbols.lookupTypeName "S" = .ok (.object ⟨1, "S"⟩) := by
  have hrun : ∃ s₁ s₂, localClass.check (functionScope []) = .ok .void s₁ ∧
      localObject.check s₁ = .ok .void s₂ ∧ s₁.symbols.current.cls? = none ∧
      s₁.symbols.lookupLocal? "S" = some (.object ⟨1, "S"⟩) ∧ s₁.symbols.openClass? "S" = none ∧
      s₂.symbols.lookupLocal? "x" = some (.object ⟨1, "S"⟩) :=
    ⟨_, _, rfl, rfl, rfl, rfl, rfl, rfl⟩
  obtain ⟨s₁, s₂, hclass, hobject, hcls, hlocal, hclosed, hx⟩ := hrun
  exact ⟨s₁, s₂, hclass, hobject, hx, (lookupTypeName_innermost "S").2 localObject s₁ s₂
    .void ⟨1, "S"⟩ hcls hlocal (SymbolTable.openClass?_eq_none.mp hclosed) hobject⟩

/-- In a method of `S`, a local class `S` is bound in the innermost scope, above the body of the
class, and still an object `x` declared behind it is of the class around the method. -/
theorem lookupTypeName_localClass_of_method :
    ∃ s₁ s₂, localClass.check (functionScope [{ kind := .classBody ⟨0, "S"⟩ }]) = .ok .void s₁ ∧
      localObject.check s₁ = .ok .void s₂ ∧ s₂.symbols.current.cls? = none ∧
      s₂.symbols.lookupLocal? "S" = some (.object ⟨1, "S"⟩) ∧
      s₂.symbols.lookupLocal? "x" = some (.object ⟨0, "S"⟩) ∧
      s₂.symbols.lookupTypeName "S" = .ok (.object ⟨0, "S"⟩) :=
  ⟨_, _, rfl, rfl, rfl, rfl, rfl, rfl⟩

end CWithClasses
