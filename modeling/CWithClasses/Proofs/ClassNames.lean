import CWithClasses.Proofs.TypeNames
import CWithClasses.Proofs.Upkeep.Reached

/-!
# Names that are taken for class names

A table does not tell the name of a class from the name of an object of that class: both are bound
to the class as it stands. So the name of an object is accepted where a type is expected, and a
class head of that name completes the class of the object.

Nothing else goes wrong. Wherever a check may stand, a name that is never given to an object of a
class means, as a type, a class of that very name, and a class head of that name opens such a class.
-/

namespace CWithClasses

open Node (word)

variable {D : String → Prop}

/-- As a type, a name means a class of that name, unless it is a given one. -/
theorem SymbolTable.Abides.lookupTypeName {F : Nat → Prop} {t : SymbolTable} (h : t.Abides F D)
    {name : String} {ty : Ty} (hty : t.lookupTypeName name = .ok ty) :
    ∃ c, ty = .object c ∧ (c.name = name ∨ D name) := by
  obtain ⟨c, rfl, hopen | ⟨-, hbound⟩⟩ := lookupTypeName_eq_ok_iff.mp hty
  · obtain ⟨_, f, _, -, hf, -⟩ := hopen
    obtain ⟨-, hname⟩ := Option.filter_eq_some_iff.mp hf
    exact ⟨c, rfl, .inl (beq_iff_eq.mp hname)⟩
  · obtain ⟨above, f, below, hframes, hf, -⟩ := hbound
    refine ⟨c, rfl, ?_⟩
    dsimp only [findIn] at hf
    split at hf
    next d _ =>
      obtain ⟨⟨access, _⟩, hmember, rfl⟩ := Option.map_eq_some_iff.mp hf
      exact (h.members d name access _ hmember).object c rfl
    next =>
      have hscope : (f.kind, f.bindings) ∈ t.bound :=
        List.mem_map_of_mem (hframes ▸ List.mem_append_right _ List.mem_cons_self)
      exact (h.scopes _ hscope name _ hf).object c rfl

/-- Wherever a check may stand: as a type, a name means a class of that very name, and a class head
of that name opens such a class, unless it is the name of a built-in object or a declarator
somewhere gives it to an object of a class. -/
theorem name_of_lookupTypeName {config : Config} {s : Checker} (hs : s.Reached config D) :
    (∀ name ty, s.symbols.lookupTypeName name = .ok ty →
      ∃ c, ty = .object c ∧ (c.name = name ∨ D name)) ∧
    ∀ head c s', openClass head s = .ok c s' → c.name = head.text ∨ D head.text := by
  have habides : s.symbols.Abides (fun _ => True) D := hs.abides fun _ _ => trivial
  refine ⟨fun name ty hty => habides.lookupTypeName hty, fun head c s' hrun => ?_⟩
  have hopen := DeclaringLogic.openClass (L := upkeepLogic (fun _ => True) D) (p := True) head
  exact (hopen.holds trivial s c s' habides.upheld hrun
    ⟨fun _ _ _ => trivial, fun _ _ _ => trivial⟩).2

/-- The declaration `struct S;`. -/
def forwardClass : Node :=
  { rule := .simpleDecl
    children := [some { rule := .elaborated, children :=
      [word .structKey "struct", word .identifier "S"] }] }

/-- After `struct S;` and `S x;`, in a check that starts without headers, `x` is the only name that
may mean a class of another name. -/
theorem name_of_lookupTypeName_object : ∃ s : Checker, s.Reached .bare (· = "x") ∧
    s.symbols.lookupTypeName "S" = .ok (.object ⟨0, "S"⟩) ∧
    (∀ name ty, s.symbols.lookupTypeName name = .ok ty →
      ∃ c, ty = .object c ∧ (c.name = name ∨ name = "x")) ∧
    ∀ head c s', openClass head s = .ok c s' → c.name = head.text ∨ head.text = "x" := by
  have hrun : ∃ s₁ s₂, forwardClass.check (.start .bare) = .ok .void s₁ ∧
      localObject.check s₁ = .ok .void s₂ ∧
      s₂.symbols.lookupTypeName "S" = .ok (.object ⟨0, "S"⟩) := ⟨_, _, rfl, rfl, rfl⟩
  obtain ⟨s₁, s₂, hclass, hobject, hlookup⟩ := hrun
  have hbuiltins : ∀ name cls,
      (name, Builtin.objectOf cls) ∈ Config.bare.builtins → name = "x" := by
    intro name cls h
    rcases List.mem_cons.mp h with h | h <;> cases h
  have hforward : ∀ name ∈ forwardClass.objectNames, name = "x" := by
    intro name hname
    cases hname
  have hlocal : ∀ name ∈ localObject.objectNames, name = "x" := by
    intro name hname
    exact List.mem_singleton.mp hname
  have hreached : s₂.Reached .bare (· = "x") :=
    ⟨hbuiltins, .step (.step (.refl _) hforward .check hclass) hlocal .check hobject⟩
  exact ⟨s₂, hreached, hlookup, name_of_lookupTypeName hreached⟩

/-- The object `x` is accepted as a type, and a class head of that name completes the class `S`. -/
theorem lookupTypeName_object_accepted :
    ∃ s₁ s₂ s₃, forwardClass.check (.start .bare) = .ok .void s₁ ∧
      localObject.check s₁ = .ok .void s₂ ∧ s₂.diagnostics = [] ∧
      s₂.symbols.lookupTypeName "x" = .ok (.object ⟨0, "S"⟩) ∧
      openClass ⟨.identifier, "x", ⟨3, "main.cpp"⟩⟩ s₂ = .ok ⟨0, "S"⟩ s₃ :=
  ⟨_, _, _, rfl, rfl, rfl, rfl, rfl⟩

end CWithClasses
