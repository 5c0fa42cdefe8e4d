import CWithClasses.Proofs.Logic.Basic

/-!
# Step logics from changes of the state

Where it does not matter how scopes are nested, opening and closing them are changes of the state
like all others. An `OpenLogic` asks for less than a `StepLogic`: for one rule about all changes
that have nothing to do with what has been reported. The bracketed steps are derived from it.
-/

namespace CWithClasses

namespace Checker

/-- The state with the reports, the limit and the log of another one. -/
def withReportsOf (s t : Checker) : Checker :=
  { s with diagnostics := t.diagnostics, limit := t.limit, dropped := t.dropped, log := t.log }

/-- A change of the state that has nothing to do with what has been reported. -/
def Quiet (f : Checker → Checker) : Prop :=
  ∀ s t : Checker, f (s.withReportsOf t) = (f s).withReportsOf t

/-- A report changes nothing but what has been reported. -/
theorem withReportsOf_reported (s : Checker) (d : Diagnostic) :
    s.withReportsOf (s.reported d) = s.reported d := by
  unfold reported
  split
  · dsimp only
    split <;> rfl
  · rfl

/-- A report keeps the limit. -/
theorem limit_reported (s : Checker) (d : Diagnostic) : (s.reported d).limit = s.limit := by
  unfold reported
  split
  · dsimp only
    split <;> rfl
  · rfl

/-- Without a limit, a report is added to the others. -/
theorem reported_eq {s : Checker} (h : s.limit = none) (d : Diagnostic) :
    s.reported d =
      { s.logged (.reported d.position d.problem) with diagnostics := s.diagnostics ++ [d] } := by
  unfold reported
  rw [h]
  rfl

/-- A report adds a diagnostic, unless the limit has been reached. -/
theorem diagnostics_reported (s : Checker) (d : Diagnostic) :
    (s.reported d).diagnostics =
      if s.limit.any fun limit => limit ≤ s.diagnostics.length then s.diagnostics
      else s.diagnostics ++ [d] := by
  unfold reported
  split
  · dsimp only
    split <;> rfl
  · rfl

/-- Without a limit, every report is kept. -/
theorem diagnostics_reported_append (s : Checker) {d : Diagnostic} (h : s.limit = none) :
    (s.reported d).diagnostics = s.diagnostics ++ [d] := by
  rw [diagnostics_reported, h]
  rfl

/-- A quiet change leaves the reports as they are. -/
theorem Quiet.reports_eq {f : Checker → Checker} (hf : Quiet f) (s : Checker) :
    (f s).limit = s.limit ∧ (f s).diagnostics = s.diagnostics := by
  have h : f s = (f s).withReportsOf s := hf s s
  rw [h]
  exact ⟨rfl, rfl⟩

/-- Nothing that is bound or was resolved is unknown. -/
structure Known (s : Checker) : Prop where
  symbols : s.symbols.Known
  resolutions : ∀ r ∈ s.resolutions, r.ty.Known

/-- Letting go of a frame leaves known types only. -/
theorem Known.discard {s : Checker} (hs : s.Known) (f : Frame) : (s.discard f).Known :=
  ⟨(hs.symbols.discard f).reclaim _, hs.resolutions⟩

end Checker

open Checker (Quiet)

/-- What has to be shown of the steps of a check if the nesting of scopes does not matter. -/
structure OpenLogic extends LookingLogic where
  change : ∀ {p : Prop} {f : Checker → Checker}, Quiet f →
    (p → ∀ s : Checker, s.Known → (f s).Known) → triple p (modify f) fun _ => True
  afterwards : ∀ {α : Type} {p : Prop} {x : Check α} {f : Checker → Checker} {Q : α → Prop},
    Quiet f → (∀ s : Checker, s.Known → (f s).Known) → triple p x Q →
    triple p (Check.afterwards x f) Q

namespace OpenLogic

variable (L : OpenLogic) {α : Type} {p : Prop}

/-! ### Symbol tables -/

/-- Changing the symbol table. -/
theorem modifySymbols {f : SymbolTable → SymbolTable}
    (h : p → ∀ t : SymbolTable, t.Known → (f t).Known) :
    L.triple p (Check.modifySymbols f) fun _ => True :=
  L.change (fun _ _ => rfl) fun hp _ hs => ⟨h hp _ hs.symbols, hs.resolutions⟩

/-- Replacing the symbol table. -/
theorem setSymbols {t : SymbolTable} (h : p → t.Known) :
    L.triple p (Check.modifySymbols fun _ => t) fun _ => True :=
  L.modifySymbols fun hp _ _ => h hp

/-- Making a class. -/
theorem newClass (name : String) : L.triple p (Check.newClass name) fun _ => True := by
  unfold Check.newClass
  refine L.bind L.symbols fun table => ?_
  refine L.next (L.setSymbols fun hp => (hp.2.newClass name).declareClass _) fun _ => ?_
  exact L.ret _ fun _ => trivial

/-- Making a function type. -/
theorem newFunction {result : Ty} {params : List Ty} (required : Nat)
    (h : p → result.Known ∧ ∀ t ∈ params, t.Known) :
    L.triple p (Check.newFunction result params required) Ty.Known := by
  unfold Check.newFunction
  refine L.bind L.symbols fun table => ?_
  refine L.next (L.setSymbols fun hp => hp.2.newFunction result params required) fun _ => ?_
  exact L.ret _ fun hp => Ty.known_function.mpr (h hp.1)

/-- Binding a name. -/
theorem declare (name : String) (position : Position) {ty : Ty} (hty : p → ty.Known) :
    L.triple p (Check.declare name position ty) fun _ => True := by
  unfold Check.declare
  refine L.bind L.symbols fun table => ?_
  split
  next rest hinsert => exact L.setSymbols fun hp => hp.2.insert (hty hp.1) hinsert
  next e hinsert =>
    refine L.post (L.report e _ fun hjump => ?_) fun _ _ _ => trivial
    exact absurd hjump (SymbolTable.not_illegalJump_of_insert hinsert)

/-! ### Scopes -/

/-- Opening a scope. -/
theorem pushScope (kind : FrameKind) : L.triple p (Check.pushScope kind) fun _ => True := by
  unfold Check.pushScope
  refine L.next (L.modifySymbols fun _ t ht => ht.push kind) fun _ => ?_
  exact L.next L.symbols fun _ => L.log _

/-- Closing a scope hands over known bindings. -/
theorem popScope :
    L.triple p Check.popScope fun frame => ∀ f, frame = some f → Bindings.Known f.bindings := by
  unfold Check.popScope
  refine L.bind L.symbols fun table => ?_
  split
  next =>
    refine L.next (L.log _) fun _ => L.ret _ fun _ f hf => ?_
    cases hf
  next frame rest hpop =>
    refine L.next (L.setSymbols fun hp => (hp.2.pop hpop).1) fun _ => ?_
    refine L.next (L.log _) fun _ => L.ret _ fun hp f hf => ?_
    cases hf
    exact (hp.2.pop hpop).2

/-- Letting go of a frame. -/
theorem discard (frame : Option Frame) : L.triple p (Check.discard frame) fun _ => True := by
  cases frame with
  | none => exact L.ret _ fun _ => trivial
  | some f => exact L.change (fun _ _ => rfl) fun _ s hs => hs.discard f

/-- Closing a scope for good. -/
theorem dropScope : L.triple p Check.dropScope fun _ => True :=
  L.next L.popScope fun _ => L.discard _

/-- A step in a scope of its own. -/
theorem inScope (kind : FrameKind) {x : Check α} {Q : α → Prop} (hx : L.triple p x Q) :
    L.triple p (Check.inScope kind x) Q := by
  unfold Check.inScope
  refine L.next (L.pushScope kind) fun _ => ?_
  refine L.bind hx fun a => ?_
  exact L.next L.dropScope fun _ => L.ret _ And.right

/-- A step in the body of a class. -/
theorem inClass (cls : ClassRef) (access : Access) {x : Check α} {Q : α → Prop}
    (hx : L.triple p x Q) : L.triple p (Check.inClass cls access x) Q := by
  unfold Check.inClass
  refine L.next (L.pushScope _) fun _ => ?_
  refine L.next (L.modifySymbols fun _ t ht => ht.setAccess access) fun _ => ?_
  refine L.bind hx fun a => ?_
  exact L.next L.dropScope fun _ => L.ret _ And.right

/-! ### Loops, switches and functions -/

/-- A step inside of loops and switches. -/
theorem nested (loops switches : Nat) {x : Check Unit} (hx : L.triple p x fun _ => True) :
    L.triple p (Check.nested loops switches x) fun _ => True := by
  refine L.next (L.change (fun _ _ => rfl) fun _ s hs => ⟨hs.symbols, hs.resolutions⟩) fun _ => ?_
  exact L.afterwards (fun _ _ => rfl) (fun s hs => ⟨hs.symbols, hs.resolutions⟩) hx

/-- A switch without a body. -/
theorem missingBody {c : Clause} (hfaults : L.faults) : L.triple p c.missingBody fun _ => True := by
  refine L.next (L.change (fun _ _ => rfl) fun _ s hs => ⟨hs.symbols, hs.resolutions⟩) fun _ => ?_
  exact L.fault _ hfaults

/-- Binding the parameters of a function. -/
theorem bindParameters (params : List Parameter) {types : List Ty}
    (h : p → ∀ t ∈ types, t.Known) :
    L.triple p (FunctionBody.bindParameters params types) fun _ => True := by
  unfold FunctionBody.bindParameters
  refine L.forM fun entry hentry => ?_
  dsimp only
  split
  · exact L.declare _ _ fun hp => h hp _ (List.of_mem_zip hentry).2
  · exact L.ret _ fun _ => trivial

/-- What a function body does inside of its scope. -/
theorem checkStatements {b : FunctionBody} {f : FunctionTy}
    (hparams : p → ∀ t ∈ f.params, t.Known)
    (hinit : ∀ init, b.ctorInit = some init → L.triple p init.ctorInit fun _ => True)
    (hblock : L.triple p b.body.functionBlock fun _ => True) :
    L.triple p (b.checkStatements f) fun _ => True := by
  have hbody : L.triple p (do
      b.body.functionBlock
      modify (·.leaveFunction)) fun _ => True :=
    L.next hblock fun _ => L.change (fun _ _ => rfl) fun _ s hs => ⟨hs.symbols, hs.resolutions⟩
  unfold FunctionBody.checkStatements
  refine L.next (L.bindParameters _ hparams) fun _ => ?_
  refine L.next (L.change (fun _ _ => rfl) fun _ s hs => ⟨hs.symbols, hs.resolutions⟩) fun _ => ?_
  cases hctor : b.ctorInit with
  | none => exact hbody
  | some init => exact L.next (hinit init hctor) fun _ => hbody

/-- Giving a function the scope of its body. -/
theorem attachScope (b : FunctionBody) (f : FunctionTy) {scope : Option Frame}
    (h : p → ∀ frame, scope = some frame → Bindings.Known frame.bindings) :
    L.triple p (b.attachScope f scope) fun _ => True := by
  unfold FunctionBody.attachScope
  split
  next frame _ =>
    refine L.bind L.symbols fun table => ?_
    split
    next rest hdefine => exact L.setSymbols fun hp => hp.2.define (h hp.1 frame rfl) hdefine
    next => exact L.next (L.discard _) fun _ => L.log _
  next => exact L.discard _

/-- Checking the body of a function. -/
theorem functionBody {b : FunctionBody} {f : FunctionTy} (hf : b.ty.asFunction? = some f)
    (hparams : p → ∀ t ∈ f.params, t.Known)
    (hinit : ∀ init, b.ctorInit = some init → L.triple p init.ctorInit fun _ => True)
    (hblock : L.triple p b.body.functionBlock fun _ => True) :
    L.triple p b.check fun _ => True := by
  have hend : ∀ scope, L.triple
      (p ∧ ∀ frame, scope = some frame → Bindings.Known frame.bindings) (do
        b.attachScope f scope
        Check.log (.definedFunction b.name b.ty)) fun _ => True :=
    fun scope => L.next (L.attachScope b f And.right) fun _ => L.log _
  have hbody := L.checkStatements hparams hinit hblock
  unfold FunctionBody.check
  rw [hf]
  cases b.cls with
  | none =>
    refine L.next (L.pushScope .function) fun _ => ?_
    refine L.next hbody fun _ => ?_
    exact L.bind L.popScope hend
  | some c =>
    refine L.next (L.pushScope (.classBody c)) fun _ => ?_
    refine L.next (L.pushScope .function) fun _ => ?_
    refine L.next hbody fun _ => ?_
    refine L.bind L.popScope fun scope => ?_
    exact L.next L.popScope fun _ => hend scope

/-- An open logic is a logic of steps, in which class bodies are nothing special. -/
def toStepLogic : StepLogic where
  toLookingLogic := L.toLookingLogic
  resolve name position _ hty := L.change (fun _ _ => rfl) fun hp s hs => by
    refine ⟨hs.symbols, fun r hr => ?_⟩
    rcases List.mem_append.mp hr with hold | hnew
    · exact hs.resolutions r hold
    · rw [List.mem_singleton.mp hnew]
      exact hty hp
  newClass := L.newClass
  newFunction := L.newFunction
  declare := L.declare
  markComplete c := L.modifySymbols fun _ _ ht => ht.markComplete c
  inBlock := L.inScope .block
  nested := L.nested
  missingBody _ := L.missingBody
  functionBody := L.functionBody
  inner := L.toStepRules
  within hx := hx
  setAccess access := L.modifySymbols fun _ _ ht => ht.setAccess access
  afterHead hx hk := L.next hx fun cls => hk cls trivial
  inClass access _ _ _ := L.inClass _ access

end OpenLogic

end CWithClasses
