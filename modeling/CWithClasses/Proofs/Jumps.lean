import CWithClasses.Proofs.Bindings
import CWithClasses.Proofs.Conforming
import CWithClasses.Proofs.Logic.Weighed
import Mathlib.Algebra.Group.Pi.Basic
import Mathlib.Algebra.GroupWithZero.Nat

/-!
# Jumps and what encloses them

A jump needs something to jump out of, and a label needs a switch. What counts is what encloses the
statement inside of the innermost function, so this can be told from the tree alone: `illegalJumps`
counts the jumps and labels that nothing encloses, given what encloses the whole tree.

A check keeps counts of loops and switches instead, and puts them aside in functions. The functions
of a class are even checked later than they stand. It reports as many illegal jumps all the same.
-/

namespace CWithClasses

open Check
open Node (word tree)

/-! ### Enclosure in trees -/

/-- What encloses a statement inside of the innermost function, and whether there is one. -/
structure Enclosure where
  loop : Bool
  switch : Bool
  function : Bool
  deriving DecidableEq, Repr

namespace Enclosure

/-- The body of a function: nothing else around it counts. -/
def ofFunction : Enclosure := ⟨false, false, true⟩

/-- Whether nothing that encloses a jump or a label is what it needs. -/
def forbids (e : Enclosure) : Rule → Bool
  | .breakJump => !e.loop && !e.switch
  | .continueJump => !e.loop
  | .caseLabel | .defaultLabel => !e.switch
  | .returnJump => !e.function
  | _ => false

end Enclosure

/-- Weighs jumps and labels that nothing encloses, given what encloses the whole tree. -/
def jumpWeights : Weights (Enclosure → Nat) where
  jump n e := if e.forbids n.rule then 1 else 0
  define _ w := w
  block w := w
  loop w e := w { e with loop := true }
  switch w e := w { e with switch := true }
  function w _ := w .ofFunction
  members w := w

/-- The number of jumps and labels in a tree that nothing encloses. -/
def Node.illegalJumps (n : Node) (e : Enclosure) : Nat := jumpWeights.weight n e

/-! ### Enclosure in states -/

/-- What a state says about the loops, switches and functions around a step. -/
structure Around where
  loops : Nat
  switches : Nat
  returns : List Ty
  suspended : List (Nat × Nat)

/-- What encloses a step. -/
def Around.enclosure (a : Around) : Enclosure := ⟨a.loops != 0, a.switches != 0, !a.returns.isEmpty⟩

namespace Checker

/-- The loops, switches and functions around the current step. -/
def around (s : Checker) : Around := ⟨s.loops, s.switches, s.returns, s.suspended⟩

/-- What encloses the current step. -/
def enclosure (s : Checker) : Enclosure := s.around.enclosure

/-- The number of illegal jumps that have been reported. -/
def jumpCount (s : Checker) : Nat := s.diagnostics.countP (·.problem.isIllegalJump)

/-- A report has nothing to do with what is around the step. -/
theorem around_reported (s : Checker) (d : Diagnostic) : (s.reported d).around = s.around := by
  rw [← withReportsOf_reported]
  rfl

/-- Without a limit, every illegal jump is reported. -/
theorem jumpCount_reported {s : Checker} (h : s.limit = none) (d : Diagnostic) :
    (s.reported d).jumpCount = s.jumpCount + if d.problem.isIllegalJump then 1 else 0 := by
  unfold jumpCount
  rw [diagnostics_reported, h]
  simp [List.countP_append, List.countP_singleton]

/-- A jump is forbidden by the counts if and only if nothing encloses it. -/
theorem forbids_iff (s : Checker) (rule : Rule) :
    s.enclosure.forbids rule = true ↔ s.Forbids rule := by
  cases rule <;> simp [enclosure, Around.enclosure, around, Enclosure.forbids, Forbids]

/-- From one state without a limit to another: what is around the step is the same, and so many
illegal jumps have been reported, apart from those that are still owed. -/
structure CountsJumps (jumps owed : Nat) (s s' : Checker) : Prop where
  around : s'.around = s.around
  limit : s'.limit = none
  count : s'.jumpCount + owed = s.jumpCount + jumps

end Checker

/-- The step reports as many illegal jumps as a weight tells, apart from what its result owes. -/
def Check.CountsJumps {α : Type} (w : Enclosure → Nat) (x : Check α) (owed : α → Enclosure → Nat) :
    Prop :=
  ∀ s a s', s.limit = none → x s = .ok a s' → s.CountsJumps (w s.enclosure) (owed a s.enclosure) s'

namespace Check.CountsJumps

variable {α β : Type} {w v : Enclosure → Nat}

/-- A change of the state that has nothing to do with jumps. -/
theorem change {f : Checker → Checker} (haround : ∀ s, (f s).around = s.around)
    (hlimit : ∀ s, (f s).limit = s.limit) (hdiagnostics : ∀ s, (f s).diagnostics = s.diagnostics) :
    Check.CountsJumps 0 (modify f) fun _ => 0 := by
  intro s a s' hs hrun
  cases hrun
  refine ⟨haround s, (hlimit s).trans hs, ?_⟩
  simp [Checker.jumpCount, hdiagnostics s]

/-- A step that only has a result. -/
theorem ret (a : α) (owed : α → Enclosure → Nat) : Check.CountsJumps (owed a) (pure a) owed := by
  intro s a s' hs hrun
  cases hrun
  exact ⟨rfl, hs, rfl⟩

/-- One step after another, given what the first one yields. -/
theorem seq {x : Check α} {f : α → Check β} {R : α → Prop} {owed : α → Enclosure → Nat}
    {owing : β → Enclosure → Nat} (hR : x.Yields R) (hx : Check.CountsJumps w x owed)
    (hf : ∀ a, R a → Check.CountsJumps (v + owed a) (f a) owing) :
    Check.CountsJumps (w + v) (x >>= f) owing := by
  intro s b s' hs hrun
  obtain ⟨a, s₁, hfirst, hrest⟩ := exists_of_bind hrun
  have h₁ := hx s a s₁ hs hfirst
  have h₂ := hf a (hR s a s₁ hfirst) s₁ b s' h₁.limit hrest
  have henclosure : s₁.enclosure = s.enclosure := congrArg Around.enclosure h₁.around
  have hcount₁ := h₁.count
  have hcount₂ := h₂.count
  rw [henclosure, Pi.add_apply] at hcount₂
  refine ⟨h₂.around.trans h₁.around, h₂.limit, ?_⟩
  rw [Pi.add_apply]
  omega

/-- The rules for counting jumps. -/
def rules : WeightRules (Enclosure → Nat) where
  does := Check.CountsJumps
  ret := ret
  seq := seq

/-- Adding an event to the log. -/
theorem log (e : Event) : Check.CountsJumps 0 (Check.log e) fun _ => 0 :=
  change (fun _ => rfl) (fun _ => rfl) fun _ => rfl

/-- Reading the symbol table. -/
theorem symbols : Check.CountsJumps 0 Check.symbols fun _ => 0 := by
  intro s a s' hs hrun
  cases hrun
  exact ⟨rfl, hs, rfl⟩

/-- Changing the symbol table. -/
theorem modifySymbols (f : SymbolTable → SymbolTable) :
    Check.CountsJumps 0 (Check.modifySymbols f) fun _ => 0 :=
  change (fun _ => rfl) (fun _ => rfl) fun _ => rfl

/-- Reporting a problem. -/
theorem report (e : Problem) (position : Position) :
    Check.CountsJumps (fun _ => if e.isIllegalJump then 1 else 0) (Check.report e position)
      fun _ => 0 := by
  intro s a s' hs hrun
  cases hrun
  refine ⟨s.around_reported _, (s.limit_reported _).trans hs, ?_⟩
  exact Checker.jumpCount_reported hs ⟨e, position⟩

/-- Reporting a problem that is no jump. -/
theorem reportOther {e : Problem} (position : Position) (h : ¬ e.isIllegalJump = true) :
    Check.CountsJumps 0 (Check.report e position) fun _ => 0 := by
  have hreport := report e position
  simp only [h] at hreport
  exact hreport

/-- Binding a name. -/
theorem declare (name : String) (position : Position) (ty : Ty) :
    Check.CountsJumps 0 (Check.declare name position ty) fun _ => 0 := by
  refine rules.next symbols fun table => ?_
  cases hinsert : table.insert name ty with
  | ok rest => exact modifySymbols _
  | error e => exact reportOther position (SymbolTable.not_illegalJump_of_insert hinsert)

/-- Letting go of a frame. -/
theorem discard (frame : Option Frame) : Check.CountsJumps 0 (Check.discard frame) fun _ => 0 := by
  cases frame with
  | none => exact ret () fun _ => 0
  | some f => exact change (fun _ => rfl) (fun _ => rfl) fun _ => rfl

/-- Closing a scope. -/
theorem popScope : Check.CountsJumps 0 Check.popScope fun _ => 0 := by
  refine rules.next symbols fun table => ?_
  cases table.pop? with
  | none => exact rules.next (log _) fun _ => ret none fun _ => 0
  | some popped =>
    refine rules.next (modifySymbols _) fun _ => rules.next (log _) fun _ => ?_
    exact ret (some popped.1) fun _ => 0

/-- A step in a scope of its own. -/
theorem bracket (kind : FrameKind) {x : Check α} (hx : Check.CountsJumps w x fun _ => 0) :
    Check.CountsJumps w (Check.bracket kind x) fun _ => 0 := by
  have hopen : Check.CountsJumps 0 (Check.pushScope kind) fun _ => 0 :=
    change (f := fun s => s.opened kind) (fun _ => rfl) (fun _ => rfl) fun _ => rfl
  have hclose : ∀ a : α, Check.CountsJumps 0 (do
      let frame ← Check.popScope
      return (a, frame)) fun _ => 0 := fun a =>
    rules.next popScope fun frame => ret (a, frame) fun _ => 0
  exact rules.next hopen fun _ => rules.before hx hclose

/-- Giving a function the scope of its body. -/
theorem attachScope (b : FunctionBody) (f : FunctionTy) (scope : Option Frame) :
    Check.CountsJumps 0 (b.attachScope f scope) fun _ => 0 := by
  unfold FunctionBody.attachScope
  split
  next frame _ =>
    refine rules.next symbols fun table => ?_
    cases table.define? f frame with
    | some rest => exact modifySymbols _
    | none => exact rules.next (discard (some frame)) fun _ => log _
  next => exact discard _

/-- A step between two changes of what is around it. -/
theorem between {x y : Check Unit} (enter leave : Checker → Checker)
    (inside : Enclosure → Enclosure) (hx : Check.CountsJumps w x fun _ => 0)
    (hy : ∀ s s', y s = .ok () s' → ∃ s₁, x (enter s) = .ok () s₁ ∧ s' = leave s₁)
    (henter : ∀ s, (enter s).limit = s.limit ∧ (enter s).diagnostics = s.diagnostics ∧
      (enter s).enclosure = inside s.enclosure)
    (hleave : ∀ s s', s'.around = (enter s).around → (leave s').around = s.around ∧
      (leave s').limit = s'.limit ∧ (leave s').diagnostics = s'.diagnostics) :
    Check.CountsJumps (fun e => w (inside e)) y fun _ => 0 := by
  intro s a s' hs hrun
  obtain ⟨s₁, hbody, rfl⟩ := hy s s' hrun
  obtain ⟨hlimit, hdiagnostics, henclosure⟩ := henter s
  have hreports := hx (enter s) () s₁ (hlimit.trans hs) hbody
  obtain ⟨haround, hlimit', hdiagnostics'⟩ := hleave s s₁ hreports.around
  have hcount := hreports.count
  refine ⟨haround, hlimit'.trans hreports.limit, ?_⟩
  unfold Checker.jumpCount at hcount ⊢
  rw [hdiagnostics, henclosure] at hcount
  rw [hdiagnostics']
  exact hcount

/-- A step inside of loops and switches. -/
theorem nested (loops switches : Nat) {x : Check Unit} (hx : Check.CountsJumps w x fun _ => 0) :
    Check.CountsJumps
      (fun e => w { e with loop := 0 < loops || e.loop, switch := 0 < switches || e.switch })
      (Check.nested loops switches x) fun _ => 0 := by
  refine between (·.nested loops switches) (·.unnested loops switches)
    (fun e => { e with loop := 0 < loops || e.loop, switch := 0 < switches || e.switch })
      hx ?_ ?_ ?_
  · intro s s' hrun
    obtain ⟨s₁, hbody, rfl⟩ := exists_of_nested hrun
    exact ⟨s₁, hbody, rfl⟩
  · intro s
    have hcount : ∀ a b : Nat, (a + b != 0) = (decide (0 < b) || a != 0) := by
      intro a b
      rw [Bool.eq_iff_iff]
      simp
      omega
    refine ⟨rfl, rfl, ?_⟩
    simp [Checker.enclosure, Around.enclosure, Checker.around, Checker.nested, hcount]
  · intro s s' h
    obtain ⟨hloops, hswitches, hreturns, hsuspended⟩ := Around.mk.inj h
    refine ⟨?_, rfl, rfl⟩
    simp [Checker.around, hloops, hswitches, hreturns, hsuspended, Checker.nested, Checker.unnested]

/-- A step inside of a function, where the loops and switches around it do not count. -/
theorem inFunction (result : Ty) {x : Check Unit} (hx : Check.CountsJumps w x fun _ => 0) :
    Check.CountsJumps (jumpWeights.function w) (Check.inFunction result x) fun _ => 0 := by
  refine between (·.enterFunction result) (·.leaveFunction) (fun _ => .ofFunction) hx ?_ ?_ ?_
  · intro s s' hrun
    obtain ⟨_, _, henter, hrest⟩ := exists_of_bind hrun
    cases henter
    obtain ⟨_, s₁, hbody, hleave⟩ := exists_of_bind hrest
    cases hleave
    exact ⟨s₁, hbody, rfl⟩
  · exact fun s => ⟨rfl, rfl, rfl⟩
  · intro s s' h
    obtain ⟨_, _, hreturns, hsuspended⟩ := Around.mk.inj h
    refine ⟨?_, rfl, rfl⟩
    simp [Checker.around, Checker.leaveFunction, hreturns, hsuspended, Checker.enterFunction]

end Check.CountsJumps

/-! ### Steps without jumps -/

/-- A step that reports no illegal jumps. Statements are not considered: they may report some. -/
def jumpLogic : BracketLogic where
  holds x := Check.CountsJumps 0 x fun _ => 0
  ret a := .ret a fun _ => 0
  seq hR hx hf := by
    have h := CountsJumps.seq (v := 0) hR hx hf
    rwa [zero_add] at h
  fault _ := nofun
  symbols := .symbols
  nesting hk := fun s => hk s.loops s.switches s.returns s
  log := .log
  statements := False
  report _ position h := .reportOther position h
  resolve _ _ _ := .change (fun _ => rfl) (fun _ => rfl) fun _ => rfl
  newClass _ :=
    CountsJumps.rules.next .symbols fun _ =>
      CountsJumps.rules.next (.modifySymbols _) fun _ => .ret _ fun _ => 0
  newFunction _ _ _ :=
    CountsJumps.rules.next .symbols fun _ =>
      CountsJumps.rules.next (.modifySymbols _) fun _ => .ret _ fun _ => 0
  declare := .declare
  markComplete _ := .modifySymbols _
  setAccess _ := .modifySymbols _
  discard := .discard
  attachScope := .attachScope
  bracket kind _ hx := .bracket kind hx
  inFunction result _ hx := .inFunction result hx
  nested loops switches _ hx := .nested loops switches hx
  missingBody _ := fun _ _ _ _ hrun => by cases hrun

/-! ### All statements -/

/-- A jump or a label, and what comes after it. -/
theorem Check.CountsJumps.jump {w : Enclosure → Nat} {n : Node} {c : Checker → Prop}
    [DecidablePred c] (statement : String) (position : Position) {x : Check Unit}
    {y : Checker → Check Unit}
    (hc : ∀ s, c s ↔ s.Forbids n.rule) (hx : Check.CountsJumps w x fun _ => 0)
    (hy : ∀ s, Check.CountsJumps w (y s) fun _ => 0) :
    Check.CountsJumps (jumpWeights.jump n + w) (do
      let s ← get
      if c s then do
        illegalJump statement position
        x
      else y s) fun _ => 0 := by
  intro s a s' hs hrun
  by_cases hforbidden : c s
  · have hown : jumpWeights.jump n s.enclosure = 1 :=
      if_pos ((s.forbids_iff n.rule).mpr ((hc s).mp hforbidden))
    have hrun' : (illegalJump statement position >>= fun _ => x) s = .ok a s' := by
      change (if c s then (illegalJump statement position >>= fun _ => x) else y s) s = _ at hrun
      rwa [if_pos hforbidden] at hrun
    have hreport : Check.CountsJumps (fun _ => 1) (illegalJump statement position) fun _ => 0 :=
      .report (.illegalJump statement) position
    have hboth : Check.CountsJumps ((fun _ => 1) + w) (do illegalJump statement position; x)
        fun _ => 0 := CountsJumps.rules.bind hreport fun _ => hx
    have hreports := hboth s a s' hs hrun'
    refine ⟨hreports.around, hreports.limit, ?_⟩
    rw [Pi.add_apply, hown]
    exact hreports.count
  · have hown : jumpWeights.jump n s.enclosure = 0 :=
      if_neg fun h => hforbidden ((hc s).mpr ((s.forbids_iff n.rule).mp h))
    have hrun' : y s s = .ok a s' := by
      change (if c s then (illegalJump statement position >>= fun _ => x) else y s) s = _ at hrun
      rwa [if_neg hforbidden] at hrun
    have hreports := hy s s a s' hs hrun'
    refine ⟨hreports.around, hreports.limit, ?_⟩
    rw [Pi.add_apply, hown, Nat.zero_add]
    exact hreports.count

/-- Checks report as many illegal jumps as there are in the tree. -/
def jumpTally : Tally (Enclosure → Nat) where
  toWeights := jumpWeights
  toWeightRules := CountsJumps.rules
  logic := jumpLogic
  zero hx := hx
  never w owed hx := fun s a s' _ hrun => (hx s a s' hrun).elim
  blockScope hx := .bracket .block hx
  classScope c _ hx := .bracket (.classBody c) hx
  functionScope result _ _ hparameters hx := by
    have hfunction := CountsJumps.inFunction result hx
    exact .bracket .function (CountsJumps.rules.next hparameters fun _ => hfunction)
  members_function _ := rfl
  loop_nested hx := .nested 1 0 hx
  switch_nested hx := .nested 0 1 hx
  illegalJump statement position _ _ _ hc hx hy := .jump statement position hc hx hy
  functionDefinition _ hx := hx

/-- A statement that conforms to the grammar is checked to the end. It adds exactly as many illegal
jumps to the diagnostics as there are jumps and labels in it that nothing encloses. What encloses
the statement as a whole is what the state says. -/
theorem Node.checkStatement_illegalJumps {n : Node} {s : Checker}
    (hconforms : n.conforms .statement = true) (hplaced : n.classesPlaced false = true)
    (hlimit : s.limit = none) :
    ∃ s' added, n.checkStatement s = .ok () s' ∧ s'.diagnostics = s.diagnostics ++ added ∧
      added.countP (·.problem.isIllegalJump) = n.illegalJumps s.enclosure := by
  have hsucceeds : n.checkStatement.Succeeds :=
    successLogic.toStepLogic.sound .statement n (.inr hconforms) True
  have hkeeps : n.checkStatement.Keeps :=
    bindingsLogic.toStepLogic.sound .statement n (.inl trivial) True
  have hreports : Check.CountsJumps n.illegalJumps n.checkStatement fun _ => 0 :=
    jumpTally.does_of_fits .statement n (.inr ⟨hconforms, by simpa using hplaced⟩)
  obtain ⟨_, s', hrun⟩ := hsucceeds s
  have hkept := hkeeps s
  rw [hrun] at hkept
  obtain ⟨added, hadded⟩ := hkept.diagnostics
  have hcount := (hreports s () s' hlimit hrun).count
  unfold Checker.jumpCount at hcount
  rw [← hadded, List.countP_append] at hcount
  refine ⟨s', added, hrun, hadded.symm, ?_⟩
  simp only [Pi.zero_apply] at hcount
  omega

/-- A loop around a class, and jumps outside of it:
`{ while (1) { break; struct S { void g() { break; return; } }; case 1: continue; } continue;
return; }`. -/
def jumpyBlock : Node :=
  let seq (first second : Option Node) : Option Node := tree .statementSeq [first, second]
  let method := tree .functionDef [word .voidType "void",
    tree .functionDeclarator [word .identifier "g", none],
    tree .compound [seq (tree .breakJump []) (tree .returnJump [none])]]
  let localClass := tree .simpleDecl [tree .classSpec [
    tree .classHead [word .structKey "struct", word .identifier "S"],
    tree .memberSpec [method, none]], none]
  let body := tree .compound [seq (seq (tree .breakJump []) localClass)
    (tree .caseLabel [word .intConst "1", tree .continueJump []])]
  { rule := .compound
    children := [seq (seq (tree .whileLoop [word .intConst "1", body]) (tree .continueJump []))
      (tree .returnJump [none])] }

/-- Four of its jumps and labels are illegal: the first one in the function, the label, and the two
at the end. -/
theorem illegalJumps_jumpyBlock :
    jumpyBlock.illegalJumps (Checker.start .bare).enclosure = 4 ∧
      ∃ s' added, jumpyBlock.checkStatement (.start .bare) = .ok () s' ∧
        s'.diagnostics = [] ++ added ∧
        added.countP (·.problem.isIllegalJump) =
          jumpyBlock.illegalJumps (Checker.start .bare).enclosure :=
  ⟨by decide +kernel, Node.checkStatement_illegalJumps (by decide) (by decide) rfl⟩

end CWithClasses
