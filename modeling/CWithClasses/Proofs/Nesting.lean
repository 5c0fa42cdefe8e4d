import CWithClasses.Proofs.Logic.Open
import CWithClasses.Proofs.Logic.Tree

/-!
# The nesting of a check

A check opens and closes scopes, classes, functions, loops and switches as it goes. What is open
at a moment is its `Nesting`. Every check that ends well leaves the nesting as it was. One that
meets a fault may leave more open, but closes nothing that was open before.

Steps that open something are described by what has to be closed again. A step moves from one
view of the nesting to another one: opening a scope moves from the nesting to the nesting without
its innermost scope, and closing it moves back.
-/

namespace CWithClasses

open Node (word tree)

/-! ### Scopes -/

namespace SymbolTable

/-- The kinds and access regions of the open scopes, the innermost one first. -/
def scopes (t : SymbolTable) : List (FrameKind × Access) :=
  t.frames.map fun f => (f.kind, f.access)

/-- There is always a scope open. -/
theorem scopes_ne_nil (t : SymbolTable) : t.scopes ≠ [] := by
  simp [scopes, frames]

/-- The scopes are as many as the depth says. -/
theorem length_scopes (t : SymbolTable) : t.scopes.length = t.depth := by
  simp [scopes, frames, depth]

/-- A table with the same frames has the same scopes. -/
theorem scopes_congr {t t' : SymbolTable} (h : t'.frames = t.frames) : t'.scopes = t.scopes := by
  unfold scopes
  rw [h]

/-- Binding a name opens and closes nothing. -/
theorem scopes_insert {t t' : SymbolTable} {name : String} {ty : Ty}
    (h : t.insert name ty = .ok t') : t'.scopes = t.scopes := by
  obtain ⟨c, b, -, -, rfl⟩ | ⟨-, -, rfl⟩ := insert_cases h <;> rfl

/-- Giving a function its body opens and closes nothing. -/
theorem scopes_define {t t' : SymbolTable} {f : FunctionTy} {body : Frame}
    (h : t.define? f body = some t') : t'.scopes = t.scopes :=
  scopes_congr (define?_rest h).2.1

/-- Recording a class keeps the kind and the access region of a frame. -/
theorem scope_record (f : Frame) (c : ClassRef) :
    ((f.record c).kind, (f.record c).access) = (f.kind, f.access) := by
  unfold Frame.record
  split <;> rfl

/-- The frames with a class recorded are those with it recorded in the innermost one that is no
class body, wherever that is. -/
theorem frames_declareClass (t : SymbolTable) (c : ClassRef) :
    (t.declareClass c).frames = recordClass c t.frames := by
  have hsplit : recordClass c t.frames =
      if t.current.isClassBody then t.current :: recordClass c t.outer
      else t.current.record c :: t.outer := rfl
  rw [hsplit]
  unfold declareClass
  split <;> rfl

/-- Recording a class opens and closes nothing. -/
theorem scopes_declareClass (t : SymbolTable) (c : ClassRef) :
    (t.declareClass c).scopes = t.scopes := by
  have hrecord : ∀ frames : List Frame,
      (recordClass c frames).map (fun f => (f.kind, f.access)) =
        frames.map fun f => (f.kind, f.access) := by
    intro frames
    induction frames with
    | nil => rfl
    | cons f rest ih =>
      unfold recordClass
      split
      · simp [ih]
      · simp [scope_record f c]
  unfold declareClass
  split
  · simp [scopes, frames, hrecord]
  · simp [scopes, frames, scope_record t.current c]

/-- Letting go of classes keeps the frames. -/
theorem frames_discard (t : SymbolTable) (f : Frame) : (t.discard f).frames = t.frames := by
  unfold discard
  exact List.foldlRecOn (motive := fun t' : SymbolTable => t'.frames = t.frames) _ _ rfl
    fun _ h _ _ => h

/-- Letting go of the body of a function keeps the frames. -/
theorem frames_dropBody (t : SymbolTable) (id : Nat) : (t.dropBody id).frames = t.frames := by
  unfold dropBody
  split
  · exact frames_discard _ _
  · rfl

/-- Letting go of what is not mentioned keeps the frames. -/
theorem frames_reclaim (t : SymbolTable) (held : Mentions) :
    (t.reclaim held).frames = t.frames := by
  have hfoldl : ∀ (step : SymbolTable → Nat → SymbolTable),
      (∀ t id, (step t id).frames = t.frames) →
      ∀ (ids : List Nat) (t : SymbolTable), (ids.foldl step t).frames = t.frames :=
    fun step hstep ids t =>
      List.foldlRecOn (motive := fun t' : SymbolTable => t'.frames = t.frames) ids step rfl
        fun t' h id _ => (hstep t' id).trans h
  unfold reclaim
  generalize t.bodies.size + t.classes.size = rounds
  induction rounds generalizing t with
  | zero => rfl
  | succ rounds ih =>
    unfold reclaimRounds
    dsimp only
    split
    · rfl
    · rw [ih, hfoldl dropMembers fun _ _ => rfl, hfoldl dropBody frames_dropBody]

/-- Built-in declarations are all made in the global scope. -/
theorem scopes_populated (config : Config) : (populated config).scopes = [(.global, .pub)] := by
  have hstep : ∀ (t : SymbolTable) (entry : String × Builtin),
      (t.declareBuiltin entry).scopes = t.scopes := by
    intro t entry
    have hty : (t.builtinTy entry.1 entry.2).2.scopes = t.scopes := by
      unfold builtinTy
      split
      · rfl
      · exact scopes_declareClass _ _
      · rfl
      · rfl
    unfold declareBuiltin
    dsimp only
    split
    next h => exact (scopes_insert h).trans hty
    next => exact hty
  unfold populated
  exact List.foldlRecOn (motive := fun t : SymbolTable => t.scopes = [(.global, .pub)])
    config.builtins declareBuiltin (show empty.scopes = _ from rfl)
    fun t h entry _ => (hstep t entry).trans h

end SymbolTable

/-! ### Nestings -/

/-- What is open around a step of a check. -/
structure Nesting where
  /-- The kinds and access regions of the scopes, the innermost one first. -/
  scopes : List (FrameKind × Access)
  /-- The result types of the functions, the innermost one first. -/
  returns : List Ty
  loops : Nat
  switches : Nat
  /-- The loops and switches around each function. -/
  suspended : List (Nat × Nat)

/-- What is open in a state. -/
def Checker.nesting (s : Checker) : Nesting :=
  ⟨s.symbols.scopes, s.returns, s.loops, s.switches, s.suspended⟩

/-- Reporting a problem changes nothing about the nesting. -/
theorem Checker.nesting_reported (s : Checker) (d : Diagnostic) :
    (s.reported d).nesting = s.nesting := by
  rw [← withReportsOf_reported]
  rfl

namespace Nesting

/-- All scopes and functions of a nesting are still open in another one. -/
def Within (a b : Nesting) : Prop := a.scopes <:+ b.scopes ∧ a.returns <:+ b.returns

/-- A nesting is within itself. -/
theorem Within.refl (a : Nesting) : a.Within a := ⟨List.suffix_rfl, List.suffix_rfl⟩

/-- What is within something that is still open is still open. -/
theorem Within.trans {a b c : Nesting} (hab : a.Within b) (hbc : b.Within c) : a.Within c :=
  ⟨hab.1.trans hbc.1, hab.2.trans hbc.2⟩

/-- The nesting without its innermost scope. -/
def pop (a : Nesting) : Nesting := { a with scopes := a.scopes.tail }

/-- The nesting without its innermost function. -/
def leave (a : Nesting) : Nesting :=
  { a with
    returns := a.returns.tail
    suspended := a.suspended.tail
    loops := (a.suspended.headD (0, 0)).1
    switches := (a.suspended.headD (0, 0)).2 }

/-- The nesting without its innermost loops and switches. -/
def unnested (loops switches : Nat) (a : Nesting) : Nesting :=
  { a with loops := a.loops - loops, switches := a.switches - switches }

/-- A view of a nesting shows what is left of it once something has been closed. -/
def View (g : Nesting → Nesting) : Prop := ∀ a, (g a).Within a

/-- Nothing may have been closed. -/
theorem View.id : View id := Within.refl

/-- Closing a scope first leaves less to see. -/
theorem View.pop {g : Nesting → Nesting} (hg : View g) : View fun a => g a.pop :=
  fun _ => (hg _).trans ⟨List.tail_suffix _, List.suffix_rfl⟩

/-- Leaving a function first leaves less to see. -/
theorem View.leave {g : Nesting → Nesting} (hg : View g) : View fun a => g a.leave :=
  fun _ => (hg _).trans ⟨List.suffix_rfl, List.tail_suffix _⟩

/-- The ends of loops and switches close no scopes and no functions. -/
theorem View.unnested (loops switches : Nat) : View (Nesting.unnested loops switches) :=
  fun _ => ⟨List.suffix_rfl, List.suffix_rfl⟩

end Nesting

open Nesting (View)

/-! ### Steps that move between views -/

/-- After the step, the nesting looks in the second view as it did in the first one before. A
fault leaves at least that much open. -/
def Check.Moves {α : Type} (g h : Nesting → Nesting) (x : Check α) : Prop :=
  ∀ s : Checker, (g s.nesting).scopes ≠ [] →
    match x s with
    | .ok _ s' => h s'.nesting = g s.nesting
    | .error _ s' => (g s.nesting).Within s'.nesting

namespace Check.Moves

variable {α β : Type} {f g h : Nesting → Nesting}

/-- A step that only has a result moves nowhere. -/
theorem ret (a : α) : Check.Moves g g (pure a) := fun _ _ => rfl

/-- One step after another, given what the first one yields. -/
theorem seq {x : Check α} {k : α → Check β} {R : α → Prop} (hR : x.Yields R)
    (hx : x.Moves f g) (hk : ∀ a, R a → (k a).Moves g h) : (x >>= k).Moves f h := by
  intro s hs
  have hstep := hx s hs
  change match EStateM.bind x k s with
    | .ok _ s' => h s'.nesting = f s.nesting
    | .error _ s' => (f s.nesting).Within s'.nesting
  unfold EStateM.bind
  cases hrun : x s with
  | error e s₁ =>
    rw [hrun] at hstep
    exact hstep
  | ok a s₁ =>
    rw [hrun] at hstep
    rw [← hstep] at hs ⊢
    exact hk a (hR s a s₁ hrun) s₁ hs

/-- One step after another. -/
theorem bind {x : Check α} {k : α → Check β} (hx : x.Moves f g) (hk : ∀ a, (k a).Moves g h) :
    (x >>= k).Moves f h :=
  seq (R := fun _ => True) (fun _ _ _ _ => trivial) hx fun a _ => hk a

/-- A step that closes nothing looks the same in every view. -/
theorem of_id {x : Check α} (hx : x.Moves id id) (hg : View g) : x.Moves g g := by
  intro s hs
  have hstep := hx s s.symbols.scopes_ne_nil
  cases hrun : x s with
  | error e s' =>
    rw [hrun] at hstep
    exact (hg _).trans hstep
  | ok a s' =>
    rw [hrun] at hstep
    exact congrArg g hstep

/-- A change of the state after a step, which closes no scopes and no functions. -/
theorem afterwards {x : Check α} {change : Checker → Checker} (hx : x.Moves f g)
    (hchange : ∀ s : Checker, h (change s).nesting = g s.nesting)
    (hwithin : ∀ s : Checker, s.nesting.Within (change s).nesting) :
    (Check.afterwards x change).Moves f h := by
  intro s hs
  have hstep := hx s hs
  unfold Check.afterwards
  cases hrun : x s with
  | error e s' =>
    rw [hrun] at hstep
    exact hstep.trans (hwithin s')
  | ok a s' =>
    rw [hrun] at hstep
    exact (hchange s').trans hstep

/-- Opening a scope. -/
theorem pushScope (kind : FrameKind) : (Check.pushScope kind).Moves g fun a => g a.pop :=
  fun _ _ => rfl

/-- Closing a scope. There is one to close if the view shows one around it. -/
theorem popScope (hg : ∀ a, (g a).scopes ≠ [] → a.scopes ≠ []) :
    Check.popScope.Moves (fun a => g a.pop) g := by
  intro s hs
  have houter : s.symbols.outer ≠ [] := by
    intro hnil
    refine hg _ hs ?_
    simp [Nesting.pop, Checker.nesting, SymbolTable.scopes, SymbolTable.frames, hnil]
  obtain ⟨next, outer, houter⟩ := List.exists_cons_of_ne_nil houter
  have hpop : s.symbols.pop? =
      some (s.symbols.current, { s.symbols with current := next, outer }) := by
    simp [SymbolTable.pop?, houter]
  rw [Check.popScope_eq hpop]
  refine congrArg g ?_
  simp [Nesting.pop, Checker.nesting, Checker.logged, SymbolTable.scopes, SymbolTable.frames,
    houter]

/-- Letting go of a frame that is closed already. -/
theorem discard (frame : Option Frame) : (Check.discard frame).Moves g g := by
  cases frame with
  | none => exact ret _
  | some f =>
    intro s _
    refine congrArg g ?_
    have hframes : (s.discard f).symbols.frames = s.symbols.frames :=
      (SymbolTable.frames_reclaim _ _).trans (SymbolTable.frames_discard _ _)
    simp only [Checker.nesting, SymbolTable.scopes_congr hframes]
    rfl

/-- Closing a scope for good. -/
theorem dropScope (hg : ∀ a, (g a).scopes ≠ [] → a.scopes ≠ []) :
    Check.dropScope.Moves (fun a => g a.pop) g :=
  (popScope hg).bind fun frame => discard frame

end Check.Moves

/-- Steps that look the same in a view before and after. -/
def Nesting.rules (g : Nesting → Nesting) : StepRules where
  triple _ x _ := x.Moves g g
  ret a _ := .ret a
  seq hR hx hk := .seq hR hx hk
  conseq hx _ _ := hx

namespace Check.Moves

variable {α : Type}

/-! ### Steps that open and close -/

/-- A step in a scope of its own. -/
theorem inScope (kind : FrameKind) {x : Check α} (hx : x.Moves id id) :
    (Check.inScope kind x).Moves id id := by
  refine (pushScope kind).bind fun _ => ?_
  refine (hx.of_id View.id.pop).bind fun a => ?_
  exact (dropScope fun _ h => h).bind fun _ => ret a

/-- A step in the body of a class, which may change the access region there. -/
theorem inClass (cls : ClassRef) (access : Access) {x : Check α}
    (hx : x.Moves Nesting.pop Nesting.pop) : (Check.inClass cls access x).Moves id id := by
  refine (pushScope (.classBody cls)).bind fun _ => ?_
  refine bind (g := Nesting.pop) (fun _ _ => rfl) fun _ => ?_
  refine hx.bind fun a => ?_
  exact (dropScope (g := id) fun _ h => h).bind fun _ => ret a

/-- A step inside of loops and switches. -/
theorem nested (loops switches : Nat) {x : Check Unit} (hx : x.Moves id id) :
    (Check.nested loops switches x).Moves id id := by
  refine bind (g := Nesting.unnested loops switches) (fun s _ => ?_) fun _ => ?_
  · change (s.nested loops switches).nesting.unnested loops switches = s.nesting
    simp [Nesting.unnested, Checker.nesting, Checker.nested]
  · exact (hx.of_id (.unnested loops switches)).afterwards (fun _ => rfl)
      fun _ => Nesting.Within.refl _

/-- A step that depends on the symbol table. -/
theorem onSymbols {k : SymbolTable → Check α}
    (hk : ∀ s : Checker, match k s.symbols s with
      | .ok _ s' => s'.nesting = s.nesting
      | .error _ s' => s.nesting.Within s'.nesting) :
    (Check.symbols >>= k).Moves id id :=
  fun s _ => hk s

/-- Making a class. -/
theorem newClass (name : String) : (Check.newClass name).Moves id id := by
  refine onSymbols fun s => ?_
  have hscopes := (s.symbols.newClass name).2.scopes_declareClass (s.symbols.newClass name).1
  exact congrArg (fun scopes => { s.nesting with scopes }) hscopes

/-- Binding a name. -/
theorem declare (name : String) (position : Position) (ty : Ty) :
    (Check.declare name position ty).Moves id id := by
  refine onSymbols fun s => ?_
  cases hinsert : s.symbols.insert name ty with
  | error e => exact s.nesting_reported _
  | ok table =>
    exact congrArg (fun scopes => { s.nesting with scopes }) (SymbolTable.scopes_insert hinsert)

/-! ### Function bodies -/

/-- Binding the parameters of a function. -/
theorem bindParameters (params : List Parameter) (types : List Ty) :
    (FunctionBody.bindParameters params types).Moves id id := by
  unfold FunctionBody.bindParameters
  refine (Nesting.rules id).forM (p := True) fun entry _ => ?_
  dsimp only
  split
  · exact declare _ _ _
  · exact ret ()

/-- What a function body does inside of its scope. -/
theorem checkStatements {b : FunctionBody} (f : FunctionTy)
    (hinit : ∀ init, b.ctorInit = some init → init.ctorInit.Moves id id)
    (hblock : b.body.functionBlock.Moves id id) : (b.checkStatements f).Moves id id := by
  have hbody : Check.Moves Nesting.leave id (do
      b.body.functionBlock
      modify (·.leaveFunction)) :=
    (hblock.of_id View.id.leave).bind fun _ => fun _ _ => rfl
  unfold FunctionBody.checkStatements
  refine (bindParameters _ _).bind fun _ => ?_
  refine bind (g := Nesting.leave) (fun _ _ => rfl) fun _ => ?_
  cases hctor : b.ctorInit with
  | none => exact hbody
  | some init => exact ((hinit init hctor).of_id View.id.leave).bind fun _ => hbody

/-- Giving a function the scope of its body. -/
theorem attachScope (b : FunctionBody) (f : FunctionTy) (scope : Option Frame) :
    (b.attachScope f scope).Moves id id := by
  unfold FunctionBody.attachScope
  split
  next frame _ =>
    refine onSymbols fun s => ?_
    cases hdefine : s.symbols.define? f frame with
    | none =>
      have hdiscard : Check.Moves id id (do
          Check.discard (some frame)
          Check.log (.alreadyDefined b.name)) :=
        (discard _).bind fun _ => fun _ _ => rfl
      exact hdiscard s s.symbols.scopes_ne_nil
    | some table =>
      exact congrArg (fun scopes => { s.nesting with scopes }) (SymbolTable.scopes_define hdefine)
  next => exact discard _

/-- Checking the body of a function. -/
theorem functionBody {b : FunctionBody} {f : FunctionTy} (hf : b.ty.asFunction? = some f)
    (hinit : ∀ init, b.ctorInit = some init → init.ctorInit.Moves id id)
    (hblock : b.body.functionBlock.Moves id id) : b.check.Moves id id := by
  have hend : ∀ scope, Check.Moves id id (do
      b.attachScope f scope
      Check.log (.definedFunction b.name b.ty)) :=
    fun scope => (attachScope b f scope).bind fun _ => fun _ _ => rfl
  have hbody := checkStatements f hinit hblock
  unfold FunctionBody.check
  rw [hf]
  cases hcls : b.cls with
  | none =>
    refine (pushScope .function).bind fun _ => ?_
    refine (hbody.of_id View.id.pop).bind fun _ => ?_
    exact (popScope fun _ h => h).bind hend
  | some c =>
    refine (pushScope (.classBody c)).bind fun _ => ?_
    refine (pushScope .function).bind fun _ => ?_
    refine (hbody.of_id View.id.pop.pop).bind fun _ => ?_
    refine (popScope (g := Nesting.pop) fun a h => ?_).bind fun scope => ?_
    · exact fun hnil => h (by simp [Nesting.pop, hnil])
    · exact (popScope (g := id) fun _ h => h).bind fun _ => hend scope

end Check.Moves

/-! ### The logic of nestings -/

/-- Every step of a check keeps the nesting. In the body of a class, only what is around the
innermost scope is kept, since access specifiers change the access region of that scope. -/
def nestingLogic : StepLogic where
  toStepRules := Nesting.rules id
  faults := True
  fault _ _ := fun s _ => .refl s.nesting
  symbols := fun _ _ => rfl
  nesting hk := fun s => hk s.loops s.switches s.returns s
  log _ := fun _ _ => rfl
  report _ _ _ := fun s _ => s.nesting_reported _
  resolve _ _ _ _ := fun _ _ => rfl
  newClass := .newClass
  newFunction _ _ := fun _ _ => rfl
  declare name position ty _ := .declare name position ty
  markComplete _ := fun _ _ => rfl
  inBlock := .inScope .block
  nested := .nested
  missingBody _ _ := fun s _ => .refl s.nesting
  functionBody hf _ := .functionBody hf
  inner := Nesting.rules Nesting.pop
  within hx := hx.of_id View.id.pop
  setAccess _ := fun _ _ => rfl
  afterHead hx hk := (Nesting.rules id).next hx fun cls => hk cls trivial
  inClass access _ _ _ := .inClass _ access

instance : Fact nestingLogic.statements := ⟨trivial⟩

/-- If the step ends well, the nesting is as before. After a fault, what was open is still open. -/
def Check.KeepsNesting {α : Type} (x : Check α) : Prop :=
  ∀ s : Checker, match x s with
    | .ok _ s' => s'.nesting = s.nesting
    | .error _ s' => s.nesting.Within s'.nesting

/-- Steps of the logic keep the nesting. -/
theorem Check.Moves.keepsNesting {α : Type} {x : Check α} (hx : x.Moves id id) :
    x.KeepsNesting :=
  fun s => hx s s.symbols.scopes_ne_nil

/-- Whatever a tree is checked as, and whatever state the check starts in, it keeps the nesting.
So a check from the start ends in the global scope. -/
theorem Node.check_keepsNesting :
    (∀ n : Node, n.check.KeepsNesting ∧ n.checkStatement.KeepsNesting ∧
      n.checkExpression.KeepsNesting ∧ n.checkDeclaration.KeepsNesting ∧
      n.checkClassSpec.KeepsNesting ∧ n.checkFunctionDefinition.KeepsNesting) ∧
    ∀ (root : Node) (config : Config) (o : Outcome),
      typeCheck root config = .ok o → o.symbols.depth = 1 := by
  have hcheck : ∀ n : Node, n.check.KeepsNesting := fun n =>
    (nestingLogic.check (p := True) (.inl trivial)).keepsNesting
  refine ⟨fun n => ⟨hcheck n, ?_, ?_, ?_, ?_, ?_⟩, fun root config o h => ?_⟩
  · exact (nestingLogic.sound .statement n (.inl trivial) True).keepsNesting
  · exact (nestingLogic.sound .expression n (.inl trivial) True).keepsNesting
  · exact (nestingLogic.sound .declaration n (.inl trivial) True).keepsNesting
  · exact (nestingLogic.sound .classSpec n (.inl trivial) True).keepsNesting
  · exact (nestingLogic.checkFunctionDefinition (p := True) trivial).keepsNesting
  · have hkept := hcheck root (.start config)
    rw [typeCheck_eq] at h
    split at h
    next ty s hrun =>
      cases h
      rw [hrun] at hkept
      have hscopes : s.symbols.scopes = [(.global, .pub)] :=
        (congrArg Nesting.scopes hkept).trans (SymbolTable.scopes_populated config)
      change s.symbols.depth = 1
      rw [← SymbolTable.length_scopes, hscopes]
      rfl
    next => cases h

/-- A class with a function in the body of a loop:
`void f() { while (1) struct S { void g() { break; } }; }`. -/
def localClassProgram : Node :=
  let function (name : String) (body : Option Node) : Option Node :=
    tree .functionDef [word .voidType "void",
      tree .functionDeclarator [word .identifier name, none], tree .compound [body]]
  let cls := tree .classSpec [tree .classHead [word .structKey "struct", word .identifier "S"],
    function "g" (tree .breakJump [])]
  let loop := tree .whileLoop [word .intConst "1", tree .simpleDecl [cls]]
  { rule := .program, children := [function "f" loop] }

/-- The check of the program leaves the loop, the class and both functions again. -/
theorem depth_localClassProgram :
    ∃ o, typeCheck localClassProgram .bare = .ok o ∧ o.symbols.depth = 1 := by
  have hok : (typeCheck localClassProgram .bare).isOk = true := by decide +kernel
  cases h : typeCheck localClassProgram .bare with
  | ok o => exact ⟨o, rfl, Node.check_keepsNesting.2 localClassProgram .bare o h⟩
  | error e =>
    rw [h] at hok
    cases hok

end CWithClasses
