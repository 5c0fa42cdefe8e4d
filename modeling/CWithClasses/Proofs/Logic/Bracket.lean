import CWithClasses.Proofs.Logic.Basic
import Mathlib.Logic.Basic

/-!
# Steps between brackets

A check closes what it has opened, unless a fault comes in between. So the steps that open
something come in brackets: `Check.bracket` runs a step in a scope of its own, `Check.inFunction`
runs one inside of a function. Blocks, class bodies and function bodies are put together from
these two.

A `BracketLogic` is a property of steps that brackets carry over from the inside to the outside.
It yields a logic of steps, in which nothing is assumed and nothing is said about results.
-/

namespace CWithClasses

open Check

/-! ### Brackets -/

/-- The state after a scope was opened. -/
def Checker.opened (s : Checker) (kind : FrameKind) : Checker :=
  let table := s.symbols.push kind
  { s with symbols := table }.logged (.pushedScope table.depth)

/-- Runs a step in a scope of its own, and hands over the scope. -/
def Check.bracket {α : Type} (kind : FrameKind) (x : Check α) : Check (α × Option Frame) := do
  pushScope kind
  let a ← x
  let frame ← popScope
  return (a, frame)

/-- Runs a step inside of a function with the given result type. -/
def Check.inFunction (result : Ty) (x : Check Unit) : Check Unit := do
  modify (·.enterFunction result)
  x
  modify (·.leaveFunction)

/-- A fault inside of a bracket leaves the scope open. -/
theorem Check.bracket_error {α : Type} {kind : FrameKind} {x : Check α} {s s' : Checker}
    {e : Fault} (h : x (s.opened kind) = .error e s') : bracket kind x s = .error e s' := by
  have hopen : pushScope kind s = .ok () (s.opened kind) := rfl
  rw [bracket, bind_ok hopen, bind_error h]

/-- A bracket around a step that ends well closes a scope again. -/
theorem Check.bracket_ok {α : Type} {kind : FrameKind} {x : Check α} {s s₁ : Checker} {a : α}
    {frame : Frame} {rest : SymbolTable} (h : x (s.opened kind) = .ok a s₁)
    (hpop : s₁.symbols.pop? = some (frame, rest)) :
    bracket kind x s =
      .ok (a, some frame) ({ s₁ with symbols := rest }.logged (.poppedScope rest.depth)) := by
  have hopen : pushScope kind s = .ok () (s.opened kind) := rfl
  rw [bracket, bind_ok hopen, bind_ok h, bind_ok (popScope_eq hpop)]
  rfl

/-- A step in a scope of its own is a bracket, after which the scope goes. -/
theorem Check.inScope_eq {α : Type} (kind : FrameKind) (x : Check α) :
    inScope kind x = (do
      let (a, frame) ← bracket kind x
      discard frame
      return a) := by
  simp [inScope, bracket, dropScope]

/-- A step in the body of a class is a bracket, which starts with an access region. -/
theorem Check.inClass_eq {α : Type} (cls : ClassRef) (access : Access) (x : Check α) :
    inClass cls access x = (do
      let (a, frame) ← bracket (.classBody cls) (do
        modifySymbols (·.setAccess access)
        x)
      discard frame
      return a) := by
  simp [inClass, bracket, dropScope]

namespace FunctionBody

/-- What a function does between its parameters and its end. -/
def run (b : FunctionBody) : Check Unit := do
  match b.ctorInit with
  | some init => init.ctorInit
  | none => pure ()
  b.body.functionBlock

/-- Checks the statements of a function in the scopes that they stand in, and hands over the
innermost one. -/
def scope (b : FunctionBody) (f : FunctionTy) : Check (Option Frame) :=
  match b.cls with
  | none => do
      let (_, frame) ← bracket .function (b.checkStatements f)
      return frame
  | some c => do
      let ((_, frame), _) ← bracket (.classBody c) (bracket .function (b.checkStatements f))
      return frame

/-- The statements of a function follow its parameters. -/
theorem checkStatements_eq (b : FunctionBody) (f : FunctionTy) :
    b.checkStatements f = (do
      bindParameters b.parameters f.params
      inFunction f.result b.run) := by
  unfold checkStatements inFunction run
  cases b.ctorInit <;> simp

/-- Checking a function body comes down to a bracket, or two of them in a class. -/
theorem check_eq {b : FunctionBody} {f : FunctionTy} (hf : b.ty.asFunction? = some f) :
    b.check = (do
      let frame ← b.scope f
      b.attachScope f frame
      log (.definedFunction b.name b.ty)) := by
  unfold check scope
  rw [hf]
  cases b.cls <;> simp [bracket]

/-- A function gets the scope of its body, or the scope goes. -/
theorem attachScope_cases {b : FunctionBody} {f : FunctionTy} {scope : Option Frame}
    {s s' : Checker} (h : b.attachScope f scope s = .ok () s') :
    (b.attach = true ∧ ∃ frame t, scope = some frame ∧ s.symbols.define? f frame = some t ∧
      s' = { s with symbols := t }) ∨
    ∃ s₁, Check.discard scope s = .ok () s₁ ∧ s' = { s₁ with log := s'.log } := by
  unfold attachScope at h
  cases hattach : b.attach with
  | false =>
    rw [hattach] at h
    exact .inr ⟨s', h, rfl⟩
  | true =>
    rw [hattach] at h
    cases scope with
    | none => exact .inr ⟨s', h, rfl⟩
    | some frame =>
      dsimp only at h
      rw [bind_symbols] at h
      cases hdefine : s.symbols.define? f frame with
      | some t =>
        rw [hdefine] at h
        cases h
        exact .inl ⟨rfl, frame, t, rfl, hdefine, rfl⟩
      | none =>
        rw [hdefine] at h
        obtain ⟨_, s₁, hdiscard, hlog⟩ := exists_of_bind h
        cases hlog
        exact .inr ⟨s₁, hdiscard, rfl⟩

end FunctionBody

/-! ### Properties of steps -/

/-- A property of steps that follows the way in which they are put together, and that brackets
carry over to the outside. -/
structure BracketLogic where
  holds : ∀ {α : Type}, Check α → Prop
  ret : ∀ {α : Type} (a : α), holds (pure a : Check α)
  /-- A step after another one, given what the first one yields in any case. -/
  seq : ∀ {α β : Type} {x : Check α} {f : α → Check β} {R : α → Prop}, x.Yields R → holds x →
    (∀ a, R a → holds (f a)) → holds (x >>= f)
  fault : ∀ {α : Type} (e : Fault), holds (throw e : Check α)
  symbols : holds Check.symbols
  /-- A step may depend on the loops, switches and functions around it. -/
  nesting : ∀ {α : Type} {k : Nat → Nat → List Ty → Check α},
    (∀ loops switches returns, holds (k loops switches returns)) →
    holds (do let s ← get; k s.loops s.switches s.returns)
  log : ∀ e : Event, holds (Check.log e)
  /-- Whether statements are considered as well. Only they report illegal jumps. -/
  statements : Prop := True
  report : ∀ (e : Problem) (position : Position), (e.isIllegalJump = true → statements) →
    holds (Check.report e position)
  resolve : ∀ (name : String) (position : Position) (ty : Ty),
    holds (Check.resolve name position ty)
  newClass : ∀ name : String, holds (Check.newClass name)
  newFunction : ∀ (result : Ty) (params : List Ty) (required : Nat),
    holds (Check.newFunction result params required)
  declare : ∀ (name : String) (position : Position) (ty : Ty),
    holds (Check.declare name position ty)
  markComplete : ∀ c : ClassRef, holds (modifySymbols (·.markComplete c))
  setAccess : ∀ access : Access, holds (modifySymbols (·.setAccess access))
  discard : ∀ frame : Option Frame, holds (Check.discard frame)
  attachScope : ∀ (b : FunctionBody) (f : FunctionTy) (frame : Option Frame),
    holds (b.attachScope f frame)
  bracket : ∀ {α : Type} (kind : FrameKind) {x : Check α}, holds x →
    holds (Check.bracket kind x)
  inFunction : ∀ (result : Ty) {x : Check Unit}, holds x → holds (Check.inFunction result x)
  nested : ∀ (loops switches : Nat) {x : Check Unit}, holds x →
    holds (Check.nested loops switches x)
  missingBody : ∀ {c : Clause}, c.rule = .switchOn → holds c.missingBody

namespace BracketLogic

variable (L : BracketLogic) {α β : Type}

/-- The rules of a property of steps. -/
def rules : StepRules where
  triple _ x _ := L.holds x
  ret a _ := L.ret a
  seq := L.seq
  conseq hx _ _ := hx

/-- One step after another. -/
theorem bind {x : Check α} {f : α → Check β} (hx : L.holds x) (hf : ∀ a, L.holds (f a)) :
    L.holds (x >>= f) :=
  L.seq (R := fun _ => True) (fun _ _ _ _ => trivial) hx fun a _ => hf a

/-- Taking a part of a construct. -/
theorem part (c : Clause) (i : Nat) : L.holds (c.part i) := by
  unfold Clause.part
  cases c.part? i with
  | none => exact L.fault _
  | some q => exact L.ret q

/-- A step in a scope of its own. -/
theorem inScope (kind : FrameKind) {x : Check α} (hx : L.holds x) :
    L.holds (Check.inScope kind x) := by
  rw [inScope_eq]
  exact L.bind (L.bracket kind hx) fun r => L.bind (L.discard _) fun _ => L.ret _

/-- A step in the body of a class. -/
theorem inClass (cls : ClassRef) (access : Access) {x : Check α} (hx : L.holds x) :
    L.holds (Check.inClass cls access x) := by
  have hbody := L.bind (L.setAccess access) fun _ => hx
  rw [inClass_eq]
  exact L.bind (L.bracket _ hbody) fun r => L.bind (L.discard _) fun _ => L.ret _

/-- Binding the parameters of a function. -/
theorem bindParameters (params : List Parameter) (types : List Ty) :
    L.holds (FunctionBody.bindParameters params types) := by
  unfold FunctionBody.bindParameters
  refine L.rules.forM (p := True) fun entry _ => ?_
  dsimp only
  split
  · exact L.declare _ _ _
  · exact L.ret _

/-- What a function does between its parameters and its end. -/
theorem run {b : FunctionBody} (hinit : ∀ init, b.ctorInit = some init → L.holds init.ctorInit)
    (hblock : L.holds b.body.functionBlock) : L.holds b.run := by
  unfold FunctionBody.run
  cases hctor : b.ctorInit with
  | none => exact hblock
  | some init => exact L.bind (hinit init hctor) fun _ => hblock

/-- The statements of a function body. -/
theorem checkStatements {b : FunctionBody} (f : FunctionTy)
    (hinit : ∀ init, b.ctorInit = some init → L.holds init.ctorInit)
    (hblock : L.holds b.body.functionBlock) : L.holds (b.checkStatements f) := by
  rw [b.checkStatements_eq]
  exact L.bind (L.bindParameters _ _) fun _ => L.inFunction _ (L.run hinit hblock)

/-- Checking the body of a function. -/
theorem functionBody {b : FunctionBody} {f : FunctionTy} (hf : b.ty.asFunction? = some f)
    (hinit : ∀ init, b.ctorInit = some init → L.holds init.ctorInit)
    (hblock : L.holds b.body.functionBlock) : L.holds b.check := by
  have hinner := L.bracket .function (L.checkStatements f hinit hblock)
  have hscope : L.holds (b.scope f) := by
    unfold FunctionBody.scope
    cases b.cls with
    | none => exact L.bind hinner fun r => L.ret _
    | some c => exact L.bind (L.bracket _ hinner) fun r => L.ret _
  rw [FunctionBody.check_eq hf]
  exact L.bind hscope fun frame => L.bind (L.attachScope b f frame) fun _ => L.log _

/-- A property of steps is a logic of steps, in which class bodies are nothing special. -/
def toStepLogic : StepLogic where
  toStepRules := L.rules
  faults := True
  fault e _ := L.fault e
  statements := L.statements
  symbols := L.symbols
  nesting := L.nesting
  log := L.log
  report := L.report
  resolve name position ty _ := L.resolve name position ty
  newClass := L.newClass
  newFunction required _ := L.newFunction _ _ required
  declare name position ty _ := L.declare name position ty
  markComplete := L.markComplete
  inBlock := L.inScope .block
  nested := L.nested
  missingBody hrule _ := L.missingBody hrule
  functionBody hf _ := L.functionBody hf
  inner := L.rules
  within hx := hx
  setAccess := L.setAccess
  afterHead hx hk := L.bind hx fun cls => hk cls trivial
  inClass access _ _ _ := L.inClass _ access

instance [h : Fact L.statements] : Fact L.toStepLogic.statements := h

end BracketLogic

end CWithClasses
