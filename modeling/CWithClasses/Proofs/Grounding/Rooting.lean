import CWithClasses.Proofs.Members.Grounded
import CWithClasses.Proofs.Upkeep.Table

/-!
# What is mentioned has been made

Classes and functions are numbered as they are made. A step gets hold of a number in two ways: it
makes the class or the function, or it finds the number in a type that a scope or a class holds. So
if all that has been made has some property, then what is mentioned keeps it through any step, and
with the property of having been made this is what the name says.

The property is a parameter, because more is made in the course of a step than was made before. A
function that has a body has the property as well. What is in the body does not count, as nothing is
looked up there.
-/

namespace CWithClasses

open Check

variable {P : Nat ⊕ Nat → Prop}

/-! ### Types -/

namespace Ty

/-- All functions and classes that the type mentions have the property. -/
def Within (P : Nat ⊕ Nat → Prop) (t : Ty) : Prop := ∀ x, t.mentions.Has x → P x

/-- A type that mentions nothing. -/
theorem within_of_none {t : Ty} (hfunctions : t.mentions.functions = [])
    (hclasses : t.mentions.classes = []) : t.Within P := by
  intro x hx
  cases x with
  | inl i =>
    change i ∈ t.mentions.functions at hx
    rw [hfunctions] at hx
    cases hx
  | inr i =>
    change i ∈ t.mentions.classes at hx
    rw [hclasses] at hx
    cases hx

/-- An object mentions its class. -/
theorem within_object {c : ClassRef} (h : P (.inr c.id)) : (object c).Within P := by
  intro x hx
  exact Mentions.has_ofClass.mp hx ▸ h

/-- What some types mention. -/
theorem has_mentionsOf {ts : List Ty} {x : Nat ⊕ Nat} :
    (mentionsOf ts).Has x ↔ ∃ t ∈ ts, t.mentions.Has x := by
  induction ts with
  | nil => simp [mentionsOf]
  | cons t rest ih => simp [mentionsOf, ih]

/-- A function mentions itself, and what its result and its parameters mention. -/
theorem has_function {id required : Nat} {result : Ty} {params : List Ty} {x : Nat ⊕ Nat} :
    (function id result params required).mentions.Has x ↔
      x = .inl id ∨ result.mentions.Has x ∨ ∃ t ∈ params, t.mentions.Has x := by
  have hself : ({ functions := [id] } : Mentions).Has x ↔ x = .inl id := by
    cases x <;> simp [Mentions.Has]
  rw [mentions, Mentions.has_append, Mentions.has_append, has_mentionsOf, hself, or_assoc]

/-- The type of a function, by its parts. -/
theorem within_function {id required : Nat} {result : Ty} {params : List Ty} (hid : P (.inl id))
    (hresult : result.Within P) (hparams : ∀ t ∈ params, t.Within P) :
    (function id result params required).Within P := by
  intro x hx
  rcases has_function.mp hx with rfl | hx | ⟨t, ht, hx⟩
  · exact hid
  · exact hresult x hx
  · exact hparams t ht x hx

namespace Within

variable {t : Ty} {f : FunctionTy} {c : ClassRef}

/-- Decay only adds pointers. -/
theorem decay (h : t.Within P) : t.decay.Within P := by
  unfold Ty.decay
  split <;> exact h

/-- What the function of a type mentions. -/
theorem asFunction? (h : t.Within P) (hf : t.asFunction? = some f) :
    P (.inl f.id) ∧ f.result.Within P ∧ ∀ u ∈ f.params, u.Within P := by
  have hparts : ∀ {g : FunctionTy}, (function g.id g.result g.params g.required).Within P →
      P (.inl g.id) ∧ g.result.Within P ∧ ∀ u ∈ g.params, u.Within P := fun h =>
    ⟨h _ (has_function.mpr (.inl rfl)), fun x hx => h x (has_function.mpr (.inr (.inl hx))),
      fun u hu x hx => h x (has_function.mpr (.inr (.inr ⟨u, hu, hx⟩)))⟩
  unfold Ty.asFunction? at hf
  split at hf
  · cases hf
    exact hparts (g := ⟨_, _, _, _⟩) h
  · cases hf
    exact hparts (g := ⟨_, _, _, _⟩) h
  · cases hf

/-- The class behind pointers is mentioned. -/
theorem asClass? (h : t.Within P) (hc : t.asClass? = some c) : P (.inr c.id) := by
  fun_induction Ty.asClass? t with
  | case1 d =>
    cases hc
    exact h _ (Mentions.has_ofClass.mpr rfl)
  | case2 t ih => exact ih h hc
  | case3 => cases hc

end Within

end Ty

/-- Types that mention only functions and classes with the property. -/
def TypeGuard.rooted (P : Nat ⊕ Nat → Prop) : TypeGuard where
  functions i := P (.inl i)
  classes c := P (.inr c.id)
  types := Ty.Within P
  plain := Ty.within_of_none
  object := Ty.within_object
  opens := Ty.Within.asClass?
  pointer := id
  array _ := id
  resize _ := id
  decay := Ty.Within.decay
  function := Ty.within_function
  defines h hf := (h.asFunction? (Ty.asFunction?_of_function? hf)).1
  parameters h hf _ _ := (h.asFunction? (Ty.asFunction?_of_function? hf)).2.2

/-! ### Tables -/

/-- A scope that was just opened mentions nothing but the class whose body it is. -/
theorem Frame.exists_of_new {kind : FrameKind} {x : Nat ⊕ Nat}
    (hx : ({ kind } : Frame).mentions.Has x) : ∃ c, kind = .classBody c ∧ x = .inr c.id := by
  unfold Frame.mentions Bindings.mentions at hx
  simp only [Mentions.has_append, Mentions.has_ofList] at hx
  rcases hx with (⟨_, hentry, -⟩ | ⟨_, hc, -⟩) | ⟨c, hc, hx⟩
  · cases hentry
  · cases hc
  · cases kind with
    | classBody d =>
      rw [List.mem_singleton.mp hc] at hx
      exact ⟨d, rfl, Mentions.has_ofClass.mp hx⟩
    | _ => cases hc

namespace SymbolTable

variable {t t₁ : SymbolTable} {x : Nat ⊕ Nat}

/-- A new class is all that is mentioned beside what was mentioned before. -/
theorem mentioned_newClass {name : String}
    (hx : ((t.newClass name).2.declareClass (t.newClass name).1).Mentioned x) :
    t.Mentioned x ∨ x = .inr t.classes.size := by
  unfold Mentioned at hx
  rw [(declareClass_rest ..).1, frames_declareClass] at hx
  rcases hx with hx | ⟨b, hb, hx⟩
  · rcases has_recordClass.mp hx with hx | ⟨hx, -⟩
    · exact .inl (.inl hx)
    · exact .inr hx
  · rcases Array.mem_push.mp hb with hb | rfl
    · exact .inl (.inr ⟨b, hb, hx⟩)
    · exact absurd hx (ClassBody.not_has_of_isEmpty rfl x)

/-- A new name is bound to its type. -/
theorem mentioned_insert {name : String} {ty : Ty} (h : t.insert name ty = .ok t₁)
    (hx : t₁.Mentioned x) : t.Mentioned x ∨ ty.mentions.Has x := by
  rcases insert_cases h with ⟨c, b, -, hadd, rfl⟩ | ⟨-, -, rfl⟩
  · rcases mentioned_modifyClass hx with hx | hx
    · exact .inl hx
    · exact ((ClassBody.has_add hadd).mp hx).imp_left fun hx => .inr (exists_of_classBody hx)
  · rcases hx with ⟨f, hf, hx⟩ | hx
    · rcases List.mem_cons.mp hf with rfl | hf
      · exact (((Frame.has_bind ..).mp hx)).imp_left fun hx => .inl ⟨_, List.mem_cons_self, hx⟩
      · exact .inl (.inl ⟨f, List.mem_cons_of_mem _ hf, hx⟩)
    · exact .inl (.inr hx)

/-- What members are typed with is mentioned. -/
theorem mentioned_of_member? {c : ClassRef} {name : String} {m : Access × Ty}
    (hm : t.member? c name = some m) (hx : m.2.mentions.Has x) : t.Mentioned x :=
  .inr (exists_of_classBody (ClassBody.has_of_member? hm hx))

/-- A class that is found by its name is mentioned. -/
theorem mentioned_of_lookupTypeName {name : String} {c : ClassRef}
    (hfound : t.lookupTypeName name = .ok (.object c)) : t.Mentioned (.inr c.id) := by
  unfold lookupTypeName at hfound
  split at hfound
  next hopen =>
    cases hfound
    obtain ⟨f, hf, hcls⟩ := List.exists_of_findSome?_eq_some hopen
    exact mentioned_of_cls? hf (Option.filter_eq_some_iff.mp hcls).1
  next =>
    unfold SymbolTable.lookup at hfound
    cases hlookup : t.lookup? name with
    | none =>
      rw [hlookup] at hfound
      cases hfound
    | some ty =>
      rw [hlookup] at hfound
      obtain ⟨f, hf, hty⟩ := List.exists_of_findSome?_eq_some hlookup
      cases ty <;> cases hfound
      exact mentioned_of_findIn hf hty (Mentions.has_ofClass.mpr rfl)

/-! ### Rooted tables -/

/-- All functions and classes that scopes and members mention have the property, and so do the
functions that have a body. -/
structure RootedIn (P : Nat ⊕ Nat → Prop) (t : SymbolTable) : Prop where
  mentioned : ∀ x, t.Mentioned x → P x
  bodies : ∀ i, ¬ P (.inl i) → t.bodies[i]?.join = none

namespace RootedIn

/-- A class that is found by its name has the property. -/
theorem offers (h : t.RootedIn P) : t.Offers (.rooted P) := by
  refine ⟨fun name c hfound => h.mentioned _ (mentioned_of_lookupTypeName hfound),
    fun c name inside d hfound => ?_⟩
  have hmember : ∃ access, t.member? c name = some (access, .object d) := by
    unfold memberLookup at hfound
    split at hfound
    next hm =>
      cases hfound
      exact ⟨_, hm⟩
    next hm =>
      split at hfound <;> cases hfound
      exact ⟨_, hm⟩
    next => cases hfound
  obtain ⟨access, hm⟩ := hmember
  exact h.mentioned _ (mentioned_of_member? hm (Mentions.has_ofClass.mpr rfl))

/-- All that is bound is permitted. -/
theorem upheld (h : t.RootedIn P) : t.Upheld (.rooted P) fun _ => True := by
  refine ⟨fun name ty hty => ⟨fun x hx => h.mentioned x (.inl ⟨_, List.mem_cons_self, ?_⟩),
    fun _ _ => .inr trivial⟩, fun c name access ty hm => ⟨fun x hx => ?_, fun _ _ => .inr trivial⟩,
    h.bodies⟩
  · unfold Frame.mentions
    rw [Mentions.has_append, Mentions.has_append]
    exact .inl (.inl (Mentions.has_ofList.mpr ⟨_, Bindings.mem_of_lookup hty, hx⟩))
  · exact h.mentioned x (mentioned_of_member? hm hx)

/-- Nothing is added. -/
theorem sheds (h : t.RootedIn P) (hsheds : t.Sheds t₁) : t₁.RootedIn P where
  mentioned x hx := h.mentioned x (hsheds.mentioned x hx)
  bodies i hi := hsheds.bodies i (h.bodies i hi)

/-- A scope is opened, that of a class only if the class has the property. -/
theorem push (h : t.RootedIn P) {kind : FrameKind}
    (hkind : ∀ c, kind = .classBody c → P (.inr c.id)) : (t.push kind).RootedIn P := by
  refine ⟨?_, h.bodies⟩
  rintro x (⟨f, hf, hx⟩ | hx)
  · rcases List.mem_cons.mp hf with rfl | hf
    · obtain ⟨c, hc, rfl⟩ := Frame.exists_of_new hx
      exact hkind c hc
    · exact h.mentioned x (.inl ⟨f, hf, hx⟩)
  · exact h.mentioned x (.inr hx)

/-- A scope is closed. -/
theorem pop (h : t.RootedIn P) {frame : Frame} (hpop : t.pop? = some (frame, t₁)) :
    t₁.RootedIn P := by
  obtain ⟨-, hframes, hclasses, hbodies⟩ := pop?_rest hpop
  refine ⟨fun x hx => h.mentioned x ?_, hbodies ▸ h.bodies⟩
  unfold Mentioned at hx ⊢
  rw [hframes, hclasses] at hx
  exact hx.imp_left fun ⟨f, hf, hx⟩ => ⟨f, List.mem_cons_of_mem _ hf, hx⟩

/-- A class is made that has the property. -/
theorem newClass (h : t.RootedIn P) (name : String) (hnew : P (.inr t.classes.size)) :
    ((t.newClass name).2.declareClass (t.newClass name).1).RootedIn P := by
  obtain ⟨-, hbodies, -, -⟩ := declareClass_rest (t.newClass name).2 (t.newClass name).1
  refine ⟨fun x hx => ?_, hbodies ▸ h.bodies⟩
  rcases mentioned_newClass hx with hx | rfl
  · exact h.mentioned x hx
  · exact hnew

/-- A name is bound. -/
theorem insert (h : t.RootedIn P) {name : String} {ty : Ty} (hty : ty.Within P)
    (hinsert : t.insert name ty = .ok t₁) : t₁.RootedIn P :=
  ⟨fun x hx => (mentioned_insert hinsert hx).elim (h.mentioned x) (hty x),
    (insert_made hinsert).1 ▸ h.bodies⟩

/-- A function gets a body. -/
theorem define (h : t.RootedIn P) {f : FunctionTy} {frame : Frame} (hf : P (.inl f.id))
    (hdefine : t.define? f frame = some t₁) : t₁.RootedIn P := by
  obtain ⟨-, hframes, hclasses, -⟩ := define?_rest hdefine
  refine ⟨fun x hx => h.mentioned x ?_, fun i hi => ?_⟩
  · unfold Mentioned at hx ⊢
    rwa [hframes, hclasses] at hx
  · exact (bodies_define hdefine (i := i) fun heq => hi (heq ▸ hf)).trans (h.bodies i hi)

end RootedIn

end SymbolTable

/-- Tables that mention only what has the property. -/
def TableLaw.rooted (P : Nat ⊕ Nat → Prop) : TableLaw where
  guard := .rooted P
  names _ := True
  holds := SymbolTable.RootedIn P
  upheld h := h.upheld
  offers h := h.offers
  sheds := .sheds
  push h := h.push
  pop _ h hpop _ := h.pop hpop
  newClass name h := h.newClass name
  insert h hty := h.insert hty.types
  define h := h.define

/-- The logic of steps that mention only what has the property. -/
abbrev rootingLogic (P : Nat ⊕ Nat → Prop) : DeclaringLogic := (TableLaw.rooted P).logic

/-- The step mentions only what has the property. -/
abbrev Check.Roots (P : Nat ⊕ Nat → Prop) {α : Type} (p : Prop) (x : Check α)
    (Q : α → Prop) : Prop :=
  Check.Maintains (.rooted P) p x Q

end CWithClasses
