import CWithClasses.Check.Class
import CWithClasses.Check.Statement
import CWithClasses.Proofs.Known

/-!
# Reasoning about the steps of a check

The rules of the language are built from a few steps on the state of a check: problems are
recorded, names are bound, scopes are opened and closed again. What holds of these steps and
carries over from parts to wholes holds of every check. A `StepLogic` lists what has to be shown
for that. Its triples speak about a step under an assumption, and about the result of the step.

An assumption is a plain proposition, not one about states. What is assumed or concluded about
types is always that they are known, which may rest on nothing having been reported so far: so
`StepLogic.report` concludes everything. Facts that hold of a result in any case, whatever has been
reported, are stated by `Check.Yields`.
-/

namespace CWithClasses

/-- After a step that ends well, the next one goes on. -/
theorem Check.bind_ok {α β : Type} {x : Check α} {s s₁ : Checker} {a : α} (h : x s = .ok a s₁)
    (f : α → Check β) : (x >>= f) s = f a s₁ := by
  change EStateM.bind x f s = f a s₁
  simp [EStateM.bind, h]

/-- After a fault, nothing goes on. -/
theorem Check.bind_error {α β : Type} {x : Check α} {s s₁ : Checker} {e : Fault}
    (h : x s = .error e s₁) (f : α → Check β) : (x >>= f) s = .error e s₁ := by
  change EStateM.bind x f s = .error e s₁
  simp [EStateM.bind, h]

/-- If one step after another has a result, both have one. -/
theorem Check.exists_of_bind {α β : Type} {x : Check α} {f : α → Check β} {s s' : Checker} {b : β}
    (h : (x >>= f) s = .ok b s') : ∃ a s₁, x s = .ok a s₁ ∧ f a s₁ = .ok b s' := by
  change EStateM.bind x f s = .ok b s' at h
  unfold EStateM.bind at h
  split at h
  next a s₁ hrun => exact ⟨a, s₁, hrun, h⟩
  next => cases h

/-- A change after a step has no influence on its result. -/
theorem Check.exists_of_afterwards {α : Type} {x : Check α} {f : Checker → Checker}
    {s s' : Checker} {a : α} (h : Check.afterwards x f s = .ok a s') :
    ∃ s₁, x s = .ok a s₁ ∧ f s₁ = s' := by
  unfold Check.afterwards at h
  split at h
  next hrun =>
    cases h
    exact ⟨_, hrun, rfl⟩
  next => cases h

/-- A step inside of loops and switches has its result there. -/
theorem Check.exists_of_nested {loops switches : Nat} {x : Check Unit} {s s' : Checker} {a : Unit}
    (h : Check.nested loops switches x s = .ok a s') :
    ∃ s₁, x (s.nested loops switches) = .ok a s₁ ∧ s' = s₁.unnested loops switches := by
  obtain ⟨s₁, hrun, rfl⟩ := Check.exists_of_afterwards h
  exact ⟨s₁, hrun, rfl⟩

/-- A step that starts with reading the symbol table. -/
theorem Check.bind_symbols {α : Type} (k : SymbolTable → Check α) (s : Checker) :
    (Check.symbols >>= k) s = k s.symbols s :=
  rfl

/-- Closing a scope that there is. -/
theorem Check.popScope_eq {s : Checker} {frame : Frame} {rest : SymbolTable}
    (h : s.symbols.pop? = some (frame, rest)) :
    Check.popScope s =
      .ok (some frame) ({ s with symbols := rest }.logged (.poppedScope rest.depth)) := by
  unfold Check.popScope
  rw [bind_symbols, h]
  rfl

/-- Binding a name that can be bound. -/
theorem Check.declare_eq {s : Checker} {name : String} {ty : Ty} {t : SymbolTable}
    (position : Position) (h : s.symbols.insert name ty = .ok t) :
    Check.declare name position ty s = .ok () { s with symbols := t } := by
  unfold Check.declare
  rw [bind_symbols, h]
  rfl

/-- The state after some functions without bodies were made. -/
def Checker.withFunctions (s : Checker) (count : Nat) : Checker :=
  { s with symbols := { s.symbols with bodies := s.symbols.bodies ++ Array.replicate count none } }

namespace Checker

/-- No functions are made. -/
theorem withFunctions_zero (s : Checker) : s.withFunctions 0 = s := by
  simp [withFunctions]

/-- Some functions are made after others. -/
theorem withFunctions_add (s : Checker) (m n : Nat) :
    (s.withFunctions m).withFunctions n = s.withFunctions (m + n) := by
  simp [withFunctions]

end Checker

/-- Making a function. -/
theorem Check.newFunction_eq (result : Ty) (params : List Ty) (required : Nat) (s : Checker) :
    Check.newFunction result params required s =
      .ok (.function s.symbols.bodies.size result params required) (s.withFunctions 1) := by
  have hpush : s.symbols.bodies.push none = s.symbols.bodies ++ Array.replicate 1 none := by
    simp
  unfold Checker.withFunctions
  rw [← hpush]
  rfl

/-- What holds of every result of a step. -/
def Check.Yields {α : Type} (x : Check α) (R : α → Prop) : Prop :=
  ∀ s a s', x s = .ok a s' → R a

/-- Triples that follow the way in which steps are put together. -/
structure StepRules where
  /-- Under an assumption, a step does what it should, and its result satisfies a condition. -/
  triple : ∀ {α : Type}, Prop → Check α → (α → Prop) → Prop
  /-- A step that only has a result. -/
  ret : ∀ {α : Type} {p : Prop} {Q : α → Prop} (a : α), (p → Q a) → triple p (pure a) Q
  /-- A step after another one, given what the first one yields in any case. -/
  seq : ∀ {α β : Type} {p : Prop} {x : Check α} {f : α → Check β} {R P : α → Prop}
    {Q : β → Prop}, x.Yields R → triple p x P → (∀ a, R a → triple (p ∧ P a) (f a) Q) →
    triple p (x >>= f) Q
  /-- More may be assumed, and less concluded. -/
  conseq : ∀ {α : Type} {p q : Prop} {x : Check α} {P Q : α → Prop},
    triple p x P → (q → p) → (∀ a, q → P a → Q a) → triple q x Q

namespace StepRules

variable (L : StepRules) {α β : Type} {p q : Prop}

/-- More may be assumed. -/
theorem pre {x : Check α} {Q : α → Prop} (hx : L.triple p x Q) (hq : q → p) : L.triple q x Q :=
  L.conseq hx hq fun _ _ h => h

/-- Less may be concluded. -/
theorem post {x : Check α} {P Q : α → Prop} (hx : L.triple p x P) (hQ : ∀ a, p → P a → Q a) :
    L.triple p x Q :=
  L.conseq hx (fun h => h) hQ

/-- One step after another, which may rely on what is known of the first result. -/
theorem bind {x : Check α} {f : α → Check β} {P : α → Prop} {Q : β → Prop}
    (hx : L.triple p x P) (hf : ∀ a, L.triple (p ∧ P a) (f a) Q) : L.triple p (x >>= f) Q :=
  L.seq (fun _ _ _ _ => trivial) hx fun a (_ : True) => hf a

/-- One step after another, which asks nothing of the first result. -/
theorem next {x : Check α} {f : α → Check β} {P : α → Prop} {Q : β → Prop}
    (hx : L.triple p x P) (hf : ∀ a, L.triple p (f a) Q) : L.triple p (x >>= f) Q :=
  L.bind hx fun a => L.pre (hf a) And.left

/-- A step that is only done under a condition, and then the rest. -/
theorem doIf {c : Prop} [Decidable c] {x : Check Unit} {f : Unit → Check β} {P : Unit → Prop}
    {Q : β → Prop} (hx : L.triple p x P) (hf : L.triple p (f ()) Q) :
    L.triple p (if c then x >>= f else f ()) Q := by
  split
  · exact L.next hx fun _ => hf
  · exact hf

/-- A step that is left out under a condition, and then the rest. -/
theorem skipIf {c : Prop} [Decidable c] {x : Check Unit} {f : Unit → Check β} {P : Unit → Prop}
    {Q : β → Prop} (hx : L.triple p x P) (hf : L.triple p (f ()) Q) :
    L.triple p (if c then f () else x >>= f) Q := by
  split
  · exact hf
  · exact L.next hx fun _ => hf

/-- The same for each item of a list. -/
theorem forM {f : α → Check PUnit} {items : List α}
    (hf : ∀ a ∈ items, L.triple p (f a) fun _ => True) :
    L.triple p (items.forM f) fun _ => True := by
  induction items with
  | nil => exact L.ret _ fun _ => trivial
  | cons a rest ih =>
    refine L.next (hf a (by simp)) fun _ => ?_
    exact ih fun b hb => hf b (List.mem_cons_of_mem _ hb)

/-- The same for each item of a list, with all results. -/
theorem mapM {f : α → Check β} {items : List α} {Q : β → Prop}
    (hf : ∀ a ∈ items, L.triple p (f a) Q) :
    L.triple p (items.mapM f) fun results => ∀ b ∈ results, Q b := by
  induction items with
  | nil =>
    rw [List.mapM_nil]
    exact L.ret _ fun _ b hb => by cases hb
  | cons a rest ih =>
    rw [List.mapM_cons]
    refine L.bind (hf a (by simp)) fun b => ?_
    refine L.bind (L.pre (ih fun c hc => hf c (List.mem_cons_of_mem _ hc)) And.left) fun bs => ?_
    refine L.ret _ ?_
    rintro ⟨⟨_, hb⟩, hbs⟩ c hc
    rcases List.mem_cons.mp hc with rfl | hrest
    · exact hb
    · exact hbs c hrest

/-- A list that is gone through with a value that keeps a property. -/
theorem foldlM {f : β → α → Check β} {items : List α} {b : β} {I : β → Prop} (hb : p → I b)
    (hf : ∀ b, ∀ a ∈ items, L.triple (p ∧ I b) (f b a) I) :
    L.triple p (items.foldlM f b) I := by
  -- The property of the value is the assumption under which the rest of the list is read.
  suffices h : ∀ b, L.triple (p ∧ I b) (items.foldlM f b) I from
    L.pre (h b) fun hp => ⟨hp, hb hp⟩
  clear hb b
  induction items with
  | nil => exact fun b => L.ret _ And.right
  | cons a rest ih =>
    intro b
    refine L.bind (hf b a (by simp)) fun b' => ?_
    refine L.pre (ih (fun c d hd => hf c d (List.mem_cons_of_mem _ hd)) b') ?_
    rintro ⟨⟨hp, _⟩, hb'⟩
    exact ⟨hp, hb'⟩

end StepRules

/-- What a step yields in any case is put together like the step. -/
def StepRules.yields : StepRules where
  triple p x Q := p → x.Yields Q
  ret a ha := by
    intro hp s b s' h
    cases h
    exact ha hp
  seq := by
    intro α β p x f R P Q hR hx hf hp s b s' h
    obtain ⟨a, s₁, hrun, hrest⟩ := Check.exists_of_bind h
    exact hf a (hR s a s₁ hrun) ⟨hp, hx hp s a s₁ hrun⟩ s₁ b s' hrest
  conseq hx hq hQ := fun hp s a s' h => hQ a hp (hx (hq hp) s a s' h)

namespace Check.Yields

variable {α β : Type}

/-- A step that only has a result yields it. -/
theorem ret {a : α} {R : α → Prop} (ha : R a) : Check.Yields (pure a) R :=
  StepRules.yields.ret (p := True) a (fun _ => ha) trivial

/-- A fault yields nothing. -/
theorem fault {R : α → Prop} (e : Fault) : Check.Yields (throw e) R := by
  intro s a s' h
  cases h

/-- A step after another one yields what the second one does. -/
theorem bind {x : Check α} {f : α → Check β} {R : α → Prop} {Q : β → Prop} (hx : x.Yields R)
    (hf : ∀ a, R a → (f a).Yields Q) : (x >>= f).Yields Q :=
  StepRules.yields.seq (p := True) (P := fun _ => True) hx (fun _ _ _ _ _ => trivial)
    (fun a ha _ => hf a ha) trivial

/-- A step after one whose result does not matter. -/
theorem next {x : Check α} {f : α → Check β} {Q : β → Prop} (hf : ∀ a, (f a).Yields Q) :
    (x >>= f).Yields Q :=
  bind (R := fun _ => True) (fun _ _ _ _ => trivial) fun a _ => hf a

/-- Less may be said about a result. -/
theorem mono {x : Check α} {R Q : α → Prop} (hx : x.Yields R) (h : ∀ a, R a → Q a) : x.Yields Q :=
  fun s a s' hrun => h a (hx s a s' hrun)

/-- The parts of a construct are the ones that it has. -/
theorem part (c : Clause) (i : Nat) : (c.part i).Yields fun q => c.part? i = some q := by
  unfold Clause.part
  cases h : c.part? i with
  | none => exact fault _
  | some q => exact ret rfl

end Check.Yields

/-! ### The steps of a check -/

/-- Whether the problem is a jump that has nothing to apply to. -/
def Problem.isIllegalJump : Problem → Bool
  | .illegalJump _ => true
  | _ => false

/-- Whether the problem is a name that is declared once too often. -/
def Problem.isRedeclaration : Problem → Bool
  | .redeclaration _ => true
  | _ => false

namespace SymbolTable

variable {t : SymbolTable} {name : String} {e : Problem}

/-- A name that cannot be bound is no jump. -/
theorem not_illegalJump_of_insert {ty : Ty} (h : t.insert name ty = .error e) :
    ¬ e.isIllegalJump = true := by
  have hadd : ∀ (b : ClassBody) (access : Access), b.add name ty access = .error e →
      ¬ e.isIllegalJump = true := by
    intro b access h
    unfold ClassBody.add at h
    split at h
    · cases h
      nofun
    · cases access <;> cases h
  unfold SymbolTable.insert at h
  split at h
  · unfold addMember at h
    split at h
    next => cases h
    next herror =>
      cases h
      exact hadd _ _ herror
  · split at h <;> cases h
    nofun

/-- A member that cannot be named is neither a jump nor redeclared. -/
theorem failure_of_memberLookup {c : ClassRef} {inside : Bool}
    (h : t.memberLookup c name inside = .error e) :
    ¬ e.isIllegalJump = true ∧ ¬ e.isRedeclaration = true := by
  unfold memberLookup at h
  split at h
  · cases h
  · split at h <;> cases h
    exact ⟨Bool.false_ne_true, Bool.false_ne_true⟩
  · cases h
    exact ⟨Bool.false_ne_true, Bool.false_ne_true⟩

/-- A name that is no type is neither a jump nor redeclared. -/
theorem failure_of_lookupTypeName (h : t.lookupTypeName name = .error e) :
    ¬ e.isIllegalJump = true ∧ ¬ e.isRedeclaration = true := by
  unfold lookupTypeName SymbolTable.lookup at h
  split at h
  · cases h
  · cases hfound : t.lookup? name with
    | none =>
      rw [hfound] at h
      cases h
      exact ⟨Bool.false_ne_true, Bool.false_ne_true⟩
    | some ty =>
      rw [hfound] at h
      cases ty <;> cases h <;> exact ⟨Bool.false_ne_true, Bool.false_ne_true⟩

end SymbolTable

/-- Runs a step inside the body of a class that starts with the given access region. -/
def Check.inClass {α : Type} (cls : ClassRef) (access : Access) (x : Check α) : Check α := do
  pushScope (.classBody cls)
  modifySymbols (·.setAccess access)
  let a ← x
  dropScope
  return a

/-- What has to be shown of the steps that only look at the state, and of what they report. -/
structure LookingLogic extends StepRules where
  /-- Whether trees that break the grammar are considered as well. -/
  faults : Prop
  fault : ∀ {α : Type} {p : Prop} {Q : α → Prop} (e : Fault), faults → triple p (throw e) Q
  /-- Whether statements are considered as well. Only they report illegal jumps. -/
  statements : Prop := True
  symbols : ∀ {p : Prop}, triple p Check.symbols SymbolTable.Known
  /-- A step may depend on the loops, switches and functions around it. -/
  nesting : ∀ {α : Type} {p : Prop} {k : Nat → Nat → List Ty → Check α} {Q : α → Prop},
    (∀ loops switches returns, triple p (k loops switches returns) Q) →
    triple p (do let s ← get; k s.loops s.switches s.returns) Q
  log : ∀ {p : Prop} (e : Event), triple p (Check.log e) fun _ => True
  /-- After a report, nothing is claimed any more. -/
  report : ∀ {p : Prop} (e : Problem) (position : Position),
    (e.isIllegalJump = true → statements) →
    triple p (Check.report e position) fun _ => False

/-- What has to be shown of the steps of a check in order to know it of all checks. -/
structure StepLogic extends LookingLogic where
  resolve : ∀ {p : Prop} (name : String) (position : Position) {ty : Ty}, (p → ty.Known) →
    triple p (Check.resolve name position ty) fun _ => True
  newClass : ∀ {p : Prop} (name : String), triple p (Check.newClass name) fun _ => True
  newFunction : ∀ {p : Prop} {result : Ty} {params : List Ty} (required : Nat),
    (p → result.Known ∧ ∀ t ∈ params, t.Known) →
    triple p (Check.newFunction result params required) Ty.Known
  declare : ∀ {p : Prop} (name : String) (position : Position) {ty : Ty}, (p → ty.Known) →
    triple p (Check.declare name position ty) fun _ => True
  markComplete : ∀ {p : Prop} (c : ClassRef),
    triple p (Check.modifySymbols (·.markComplete c)) fun _ => True
  inBlock : ∀ {α : Type} {p : Prop} {x : Check α} {Q : α → Prop},
    triple p x Q → triple p (Check.inScope .block x) Q
  nested : ∀ {p : Prop} (loops switches : Nat) {x : Check Unit}, triple p x (fun _ => True) →
    triple p (Check.nested loops switches x) fun _ => True
  missingBody : ∀ {p : Prop} {c : Clause}, c.rule = .switchOn → faults →
    triple p c.missingBody fun _ => True
  functionBody : ∀ {p : Prop} {b : FunctionBody} {f : FunctionTy}, b.ty.asFunction? = some f →
    (p → ∀ t ∈ f.params, t.Known) →
    (∀ init, b.ctorInit = some init → triple p init.ctorInit fun _ => True) →
    triple p b.body.functionBlock (fun _ => True) → triple p b.check fun _ => True
  /-- The steps in the body of a class. They may also change its access region. -/
  inner : StepRules
  within : ∀ {α : Type} {p : Prop} {x : Check α} {Q : α → Prop}, triple p x Q →
    inner.triple p x Q
  setAccess : ∀ {p : Prop} (access : Access),
    inner.triple p (Check.modifySymbols (·.setAccess access)) fun _ => True
  /-- The classes whose bodies may be opened. -/
  opens : ClassRef → Prop := fun _ => True
  /-- The class of a class head may be opened. -/
  afterHead : ∀ {α : Type} {p : Prop} {head : Phrase} {k : ClassRef → Check α}
    {P : ClassRef → Prop} {Q : α → Prop}, triple p head.classHead P →
    (∀ cls, opens cls → triple p (k cls) Q) → triple p (head.classHead >>= k) Q
  inClass : ∀ {α : Type} {p : Prop} {cls : ClassRef} (access : Access) {x : Check α}
    {Q : α → Prop}, opens cls → inner.triple p x Q → triple p (Check.inClass cls access x) Q

end CWithClasses
