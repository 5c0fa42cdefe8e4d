import CWithClasses.Proofs.Upkeep.Perusal

/-!
# How a function stands in a scope

Outside of a class, the name of a function is not bound in a scope, or it is bound to a function
that has a body or not. A function without a body gets none by what is done elsewhere as long as no
class mentions it: the body of another function is checked in a scope of its own, which binds
nothing at first, and every function that is made there is a new one.

A declaration or a definition of a name is told by how its function stands: the first one introduces
the name, and further ones are compared with the type that the name is bound to.
-/

namespace CWithClasses

open Check

/-! ### Functions without bodies -/

namespace SymbolTable

variable {t : SymbolTable}

/-- Functions without the property have no bodies, and none of them is a member of a class. -/
structure Spares (F : Nat → Prop) (t : SymbolTable) : Prop where
  bodies : ∀ i, ¬ F i → t.bodies[i]?.join = none
  members : ∀ c name access ty, t.member? c name = some (access, ty) →
    (TypeGuard.shallow F).types ty

variable {F : Nat → Prop}

/-- In a new scope, none of these functions is bound. -/
theorem Spares.upheld_push (h : t.Spares F) (kind : FrameKind) :
    (t.push kind).Upheld (.shallow F) fun _ => True where
  bindings _ _ hname := by cases hname
  members c name access ty hmember :=
    ⟨h.members c name access ty hmember, fun _ _ => .inr trivial⟩
  bodies := h.bodies

/-- What is upheld spares these functions. -/
theorem Upheld.spares {G : TypeGuard} {D : String → Prop} (h : t.Upheld G D) :
    t.Spares G.functions where
  bodies := h.bodies
  members c name access ty hmember _ hf := G.defines (h.members c name access ty hmember).types hf

/-- Fewer functions are spared. -/
theorem Spares.mono {G : Nat → Prop} (h : t.Spares F) (hF : ∀ i, F i → G i) : t.Spares G where
  bodies i hi := h.bodies i fun hf => hi (hF i hf)
  members c name access ty hmember f hf := hF f.id (h.members c name access ty hmember f hf)

/-- The same members and bodies. -/
theorem Spares.of_eq {t' : SymbolTable} (h : t.Spares F) (hclasses : t'.classes = t.classes)
    (hbodies : t'.bodies = t.bodies) : t'.Spares F where
  bodies i hi := hbodies ▸ h.bodies i hi
  members c name access ty hmember := by
    unfold member? classBody at hmember
    rw [hclasses] at hmember
    exact h.members c name access ty hmember

/-- Members and bodies may go. -/
theorem Spares.sheds {t' : SymbolTable} (h : t.Spares F) (hsheds : t.Sheds t') : t'.Spares F where
  bodies i hi := hsheds.bodies i (h.bodies i hi)
  members c name access ty hmember := h.members c name access ty (hsheds.members c name _ hmember)

end SymbolTable

/-- What is only read does not add anything. -/
theorem Checker.Reads.sheds {s s' : Checker} (h : s.Reads s') : s.symbols.Sheds s'.symbols := by
  obtain ⟨count, hsymbols⟩ := h.symbols
  rw [hsymbols]
  exact .withFunctions s count

namespace FunctionBody

variable {b : FunctionBody} {i : Nat} {s s' : Checker}

/-- Parameters that are no functions may be bound. -/
theorem Agrees.binds (h : b.Agrees) (F : Nat → Prop) :
    b.Binds (TypeGuard.shallow F) fun _ => True := by
  obtain ⟨f, hf, hsame⟩ := h.function
  refine ⟨fun f' hf' ty hty g hg => ?_, fun _ _ _ _ _ _ _ _ => trivial⟩
  obtain rfl := Option.some.inj (hf'.symm.trans (Ty.asFunction?_of_function? hf))
  rw [Ty.function?_eq_none_of_sameTypes hsame (List.forall_mem_map.mpr h.parameters) ty hty] at hg
  cases hg

/-- The scope of a function body. No other function gets a body in it, unless it is a member of a
class. -/
theorem spares_scope {f : FunctionTy} {scope : Option Frame} (h : b.scope f s = .ok scope s')
    (hf : b.ty.asFunction? = some f) (hs : s.symbols.Spares (· ≠ i))
    (hi : i < s.symbols.bodies.size)
    (hbody : (guardedLogic (.shallow (· ≠ i)) fun _ => True).Body b) (hagrees : b.Agrees)
    (hcls : b.cls = none) : s'.symbols.Spares (· ≠ i) ∧ i < s'.symbols.bodies.size := by
  have hstatements : (b.checkStatements f).Maintains
      (.guarded (.shallow (· ≠ i)) fun _ => True) True
      fun _ => True := hbody True f hf fun _ => hagrees.binds _
  unfold FunctionBody.scope at h
  rw [hcls] at h
  obtain ⟨r, s₁, hbracket, hret⟩ := exists_of_bind h
  cases hret
  obtain ⟨a, inside, hrun, -, hpop, -⟩ := hstatements.keeps.inside_bracket hbracket
  obtain ⟨-, -, hclasses, hbodies⟩ := SymbolTable.pop?_rest hpop
  have hmakes : (s.opened .function).Makes (· ≠ i) inside := by
    rintro j hj - rfl
    exact absurd hi (Nat.not_lt_of_le hj)
  have hle := (hstatements.made (s.opened .function) a inside hrun).functions
  obtain ⟨hupheld, -⟩ := hstatements.holds trivial (s.opened .function) a inside
    (hs.upheld_push .function) hrun ⟨hmakes, fun _ _ _ => trivial⟩
  exact ⟨hupheld.spares.of_eq hclasses hbodies, hbodies ▸ hi.trans_le hle⟩

/-- The body of a function that is not attached to it. -/
theorem spares_check (h : b.check s = .ok () s') (hs : s.symbols.Spares (· ≠ i))
    (hi : i < s.symbols.bodies.size)
    (hbody : (guardedLogic (.shallow (· ≠ i)) fun _ => True).Body b) (hagrees : b.Agrees)
    (hcls : b.cls = none) (hattach : b.attach = false) :
    s'.symbols.Spares (· ≠ i) ∧ i < s'.symbols.bodies.size := by
  obtain ⟨f, hf, -⟩ := hagrees.function
  rw [FunctionBody.check_eq (Ty.asFunction?_of_function? hf)] at h
  obtain ⟨scope, s₁, hscope, hrest⟩ := exists_of_bind h
  obtain ⟨_, s₂, hattached, hlog⟩ := exists_of_bind hrest
  obtain ⟨hclosed, hsize⟩ :=
    spares_scope hscope (Ty.asFunction?_of_function? hf) hs hi hbody hagrees hcls
  have hgone := FunctionBody.attachScope_refused hattached hattach
  cases hlog
  exact ⟨hclosed.sheds hgone, hsize.trans_le hgone.functions⟩

end FunctionBody

/-! ### What a name is bound to -/

/-- The number of redeclarations that have been reported. -/
def Checker.redeclarations (s : Checker) : Nat :=
  s.diagnostics.countP fun d => d.problem.isRedeclaration

/-- Outside of a class and without a limit on reports, the innermost scope binds the name as
told. -/
structure Checker.Has (f : String) (bound : Option Ty) (s : Checker) : Prop where
  limit : s.limit = none
  cls? : s.symbols.current.cls? = none
  lookup : s.symbols.current.bindings.lookup f = bound

/-- The name is not bound yet. Functions from a number on are members of no class and have no
bodies, and all that are made will be such functions. -/
structure Checker.Vacant (f : String) (first : Nat) (s : Checker) : Prop
    extends Checker.Has f none s where
  size : first ≤ s.symbols.bodies.size
  spares : s.symbols.Spares (· < first)

/-- The name is bound to the type. As long as this is a function without a body, no class has it as
a member. -/
structure Checker.Owns (f : String) (ty : Ty) (s : Checker) : Prop
    extends Checker.Has f (some ty) s where
  pending : ∀ g, ty.asFunction? = some g → s.symbols.isDefined ty = false →
    s.symbols.Spares (· ≠ g.id) ∧ g.id < s.symbols.bodies.size

/-- The name is bound to a function, which has a body or not. -/
structure Checker.Stands (f : String) (ty : Ty) (g : FunctionTy) (defined : Bool)
    (s : Checker) : Prop extends Checker.Owns f ty s where
  function : ty.function? = some g
  isDefined : s.symbols.isDefined ty = defined

namespace Checker

variable {f : String} {bound : Option Ty} {ty : Ty} {g : FunctionTy} {first : Nat} {defined : Bool}
  {s s' : Checker}

/-- A report changes nothing about what is bound. -/
theorem Has.reported (h : s.Has f bound) (d : Diagnostic) : (s.reported d).Has f bound := by
  refine ⟨(s.limit_reported d).trans h.limit, ?_, ?_⟩
  · rw [s.symbols_reported]
    exact h.cls?
  · rw [s.symbols_reported]
    exact h.lookup

/-- What the name means in the scope. -/
theorem Has.lookupLocal? (h : s.Has f bound) : s.symbols.lookupLocal? f = bound :=
  (SymbolTable.lookupLocal?_eq h.cls? f).trans h.lookup

/-- What is kept is bound as before. -/
theorem Keeps.has (h : s.Keeps [] s') (hs : s.Has f (some ty)) : s'.Has f (some ty) :=
  ⟨h.limit.trans hs.limit, h.cls?.trans hs.cls?, h.lookup hs.lookup⟩

/-- A redeclaration that is reported is counted. -/
theorem redeclarations_reported (hlimit : s.limit = none) (name : String) (position : Position) :
    (s.reported ⟨.redeclaration name, position⟩).redeclarations = s.redeclarations + 1 := by
  unfold redeclarations
  rw [s.diagnostics_reported_append hlimit, List.countP_append]
  rfl

namespace Reads

/-- No redeclaration is reported. -/
theorem redeclarations (h : s.Reads s') : s'.redeclarations = s.redeclarations := by
  obtain ⟨new, hnew, hall⟩ := h.reports
  unfold Checker.redeclarations
  rw [hnew, List.countP_append, List.countP_eq_zero.mpr hall, Nat.add_zero]

/-- No name is bound. -/
theorem has (h : s.Reads s') (hs : s.Has f bound) : s'.Has f bound := by
  obtain ⟨count, hsymbols⟩ := h.symbols
  refine ⟨h.limit.trans hs.limit, ?_, ?_⟩
  · rw [hsymbols]
    exact hs.cls?
  · rw [hsymbols]
    exact hs.lookup

/-- No function gets a body, and none loses its body. -/
theorem isDefined (h : s.Reads s') (ty : Ty) :
    s'.symbols.isDefined ty = s.symbols.isDefined ty := by
  obtain ⟨count, hsymbols⟩ := h.symbols
  rw [hsymbols]
  unfold SymbolTable.isDefined SymbolTable.body? withFunctions
  simp only [SymbolTable.join_append_none]

/-- The name is still not bound. -/
theorem vacant (h : s.Reads s') (hs : s.Vacant f first) : s'.Vacant f first where
  toHas := h.has hs.toHas
  size := hs.size.trans h.size_le
  spares := hs.spares.sheds h.sheds

end Reads

namespace Owns

/-- A change by which nothing is added, and a function keeps a body that it has. -/
theorem sheds (hs : s.Owns f ty) (hhas : s'.Has f (some ty))
    (hdefined : s'.symbols.isDefined ty = s.symbols.isDefined ty)
    (hsheds : s.symbols.Sheds s'.symbols) : s'.Owns f ty where
  toHas := hhas
  pending g hg h := (hs.pending g hg (hdefined.symm.trans h)).imp (·.sheds hsheds)
    (·.trans_le hsheds.functions)

/-- Reading changes nothing about what is bound. -/
theorem reads (hs : s.Owns f ty) (h : s.Reads s') : s'.Owns f ty :=
  hs.sheds (h.has hs.toHas) (h.isDefined ty) h.sheds

/-- A report changes nothing about what is bound. -/
theorem reported (hs : s.Owns f ty) (d : Diagnostic) : (s.reported d).Owns f ty := by
  have hsymbols := s.symbols_reported d
  refine hs.sheds (hs.toHas.reported d) (by rw [hsymbols]) ?_
  rw [hsymbols]
  exact .refl _

/-- A function that has a body. -/
theorem of_isDefined (hhas : s.Has f (some ty)) (hdefined : s.symbols.isDefined ty = true) :
    s.Owns f ty where
  toHas := hhas
  pending _ _ h := by
    rw [hdefined] at h
    cases h

/-- A function without a body, from what is known about functions of its number. -/
theorem of_spares (hhas : s.Has f (some ty)) (hg : ty.asFunction? = some g)
    (hspares : s.symbols.Spares (· ≠ g.id)) (hsize : g.id < s.symbols.bodies.size) :
    s.Owns f ty ∧ s.symbols.isDefined ty = false := by
  refine ⟨⟨hhas, fun g' hg' _ => ?_⟩, ?_⟩
  · cases hg.symm.trans hg'
    exact ⟨hspares, hsize⟩
  · unfold SymbolTable.isDefined SymbolTable.body?
    rw [hg]
    exact congrArg Option.isSome (hspares.bodies g.id fun h => h rfl)

end Owns

namespace Stands

/-- Reading changes nothing about the function. -/
theorem reads (hs : s.Stands f ty g defined) (h : s.Reads s') : s'.Stands f ty g defined :=
  ⟨hs.toOwns.reads h, hs.function, (h.isDefined ty).trans hs.isDefined⟩

/-- A report changes nothing about the function. -/
theorem reported (hs : s.Stands f ty g defined) (d : Diagnostic) :
    (s.reported d).Stands f ty g defined := by
  refine ⟨hs.toOwns.reported d, hs.function, ?_⟩
  rw [s.symbols_reported]
  exact hs.isDefined

/-- A function that has a body. -/
theorem of_defines (hhas : s.Has f (some ty)) (hfunction : ty.function? = some g)
    (hdefines : s.Defines f) : s.Stands f ty g true := by
  obtain ⟨ty', hlookup, hdefined⟩ := hdefines
  rw [hhas.lookup] at hlookup
  cases hlookup
  exact ⟨.of_isDefined hhas hdefined, hfunction, hdefined⟩

/-- A function without a body, from what is known about functions of its number. -/
theorem of_spares (hhas : s.Has f (some ty)) (hfunction : ty.function? = some g)
    (hspares : s.symbols.Spares (· ≠ g.id)) (hsize : g.id < s.symbols.bodies.size) :
    s.Stands f ty g false := by
  obtain ⟨howns, hdefined⟩ :=
    Owns.of_spares hhas (Ty.asFunction?_of_function? hfunction) hspares hsize
  exact ⟨howns, hfunction, hdefined⟩

end Stands

end Checker

/-! ### A name is declared -/

/-- The name is bound to the type, and nothing else is declared or reported. -/
structure Checker.Introduces (f : String) (ty : Ty) (s s' : Checker) : Prop where
  has : s'.Has f (some ty)
  classes : s'.symbols.classes = s.symbols.classes
  bodies : s'.symbols.bodies = s.symbols.bodies
  diagnostics : s'.diagnostics = s.diagnostics

/-- A name that is introduced is not reported. -/
theorem Checker.Introduces.redeclarations {f : String} {ty : Ty} {s s' : Checker}
    (h : s.Introduces f ty s') : s'.redeclarations = s.redeclarations :=
  congrArg (List.countP _) h.diagnostics

section Declaring

variable {f : String} {position : Position} {ty bound : Ty} {s s' : Checker}

/-- A name that is not bound yet is introduced. -/
theorem Check.declare_vacant (hs : s.Has f none) :
    ∃ s', Check.declare f position ty s = .ok () s' ∧ s.Introduces f ty s' := by
  obtain ⟨hlimit, hcls, hlookup⟩ := hs
  have hinsert : s.symbols.insert f ty = .ok { s.symbols with
      current :=
        { s.symbols.current with bindings := (f, ty) :: s.symbols.current.bindings } } := by
    unfold SymbolTable.insert
    rw [hcls, hlookup]
  exact ⟨_, Check.declare_eq position hinsert, ⟨hlimit, hcls, List.lookup_cons_self⟩, rfl, rfl, rfl⟩

/-- A name that is bound is reported. -/
theorem Check.declare_bound (hs : s.Has f (some bound)) :
    Check.declare f position ty s = .ok () (s.reported ⟨.redeclaration f, position⟩) := by
  have hinsert : s.symbols.insert f ty = .error (.redeclaration f) := by
    unfold SymbolTable.insert
    rw [hs.cls?, hs.lookup]
  unfold Check.declare
  rw [bind_symbols, hinsert]
  rfl

/-- The first declaration of a function introduces its name. -/
theorem declareFunction_vacant {a : Ty} (hs : s.Has f none)
    (h : declareFunction { name := f, position } ty s = .ok a s') :
    a = ty ∧ s.Introduces f ty s' := by
  obtain ⟨s₁, hdeclare, hintroduces⟩ := Check.declare_vacant hs
  unfold declareFunction at h
  rw [bind_symbols, hs.lookupLocal?] at h
  dsimp only at h
  rw [bind_ok hdeclare] at h
  cases h
  exact ⟨rfl, hintroduces⟩

/-- A further declaration is reported if its signature is another one. -/
theorem declareFunction_bound {a : Ty} (hs : s.Has f (some bound))
    (h : declareFunction { name := f, position } ty s = .ok a s') :
    s' = if sameSignature bound ty then s else s.reported ⟨.redeclaration f, position⟩ := by
  unfold declareFunction at h
  rw [bind_symbols, hs.lookupLocal?] at h
  dsimp only at h
  split at h
  next hsame =>
    cases h
    rw [if_pos hsame]
  next hother =>
    rw [bind_ok (Check.declare_bound hs)] at h
    cases h
    rw [if_neg hother]

/-- The first declaration of a function may be its definition. -/
theorem defineLocal_vacant {d : Definition} (hs : s.Has f none)
    (h : defineLocal { name := f, position } ty s = .ok d s') :
    d = { ty, attach := true } ∧ s.Introduces f ty s' := by
  unfold defineLocal at h
  rw [bind_symbols, hs.lookupLocal?] at h
  obtain ⟨a, s₁, hdeclare, hret⟩ := exists_of_bind h
  obtain ⟨rfl, hintroduces⟩ := declareFunction_vacant hs hdeclare
  cases hret
  exact ⟨rfl, hintroduces⟩

/-- A definition of a function that is declared becomes its body, if the signature is the same and
there is no body yet. Otherwise it is reported. -/
theorem defineLocal_bound {d : Definition} (hs : s.Has f (some bound))
    (h : defineLocal { name := f, position } ty s = .ok d s') :
    if sameSignature bound ty && !s.symbols.isDefined bound
    then d = { ty := bound, attach := true } ∧ s' = s
    else d = { ty, attach := false } ∧ s' = s.reported ⟨.redeclaration f, position⟩ := by
  unfold defineLocal at h
  rw [bind_symbols, hs.lookupLocal?] at h
  dsimp only at h
  split at h
  next hfirst =>
    cases h
    rw [if_pos hfirst]
    exact ⟨rfl, rfl⟩
  next hagain =>
    cases h
    rw [if_neg hagain]
    exact ⟨rfl, rfl⟩

end Declaring

end CWithClasses
