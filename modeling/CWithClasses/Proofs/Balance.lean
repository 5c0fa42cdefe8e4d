import CWithClasses.Proofs.Logic.Bracket
import CWithClasses.Proofs.Logic.Open
import CWithClasses.Proofs.Logic.Tree
import Mathlib.Algebra.GroupWithZero.Nat

/-!
# The balance of loops and switches

A check counts the loops and switches around it, and the counts of the functions around it wait
until it has left the function it is in. Every statement that ends well leaves all counts as they
were.

After a fault they may differ, in two ways. A function that was being checked is not left, so that
the counts around it are still waiting. And a switch without a body has been counted already when
the body turns out to be missing.

The ends of loops and switches are counted after a fault, too. If these are around a function that
has not been left, then the counts are those of the function, which are 0 already: the check has
miscounted.
-/

namespace CWithClasses

open Node (word tree)

/-- The loops and switches around a step, and around each function that it is in. -/
structure Depths where
  loops : Nat
  switches : Nat
  suspended : List (Nat × Nat)
  miscounted : Bool

/-- The loops and switches around the current step. -/
def Checker.depths (s : Checker) : Depths := ⟨s.loops, s.switches, s.suspended, s.miscounted⟩

/-- The depths inside of so many more loops and switches. -/
def Depths.nested (d : Depths) (loops switches : Nat) : Depths :=
  { d with loops := d.loops + loops, switches := d.switches + switches }

/-- The depths after the end of so many loops and switches. -/
def Depths.unnested (d : Depths) (loops switches : Nat) : Depths where
  loops := d.loops - loops
  switches := d.switches - switches
  suspended := d.suspended
  miscounted := d.miscounted || d.loops < loops || d.switches < switches

/-- Loops and switches that were counted can be taken back. -/
theorem Depths.unnested_nested (d : Depths) (loops switches : Nat) :
    (d.nested loops switches).unnested loops switches = d := by
  have hloops : ¬ d.loops + loops < loops := by omega
  have hswitches : ¬ d.switches + switches < switches := by omega
  simp [nested, unnested, hloops, hswitches]

/-- Reporting a problem counts nothing. -/
theorem Checker.depths_reported (s : Checker) (d : Diagnostic) :
    (s.reported d).depths = s.depths := by
  rw [← withReportsOf_reported]
  rfl

/-- The fault is that a switch has no body. -/
def Fault.LacksBody (e : Fault) : Prop := ∃ position, e = .missingChild .switchOn 1 position

/-- Functions have not been left, and the loops and switches around each of them are waiting. All of
these that were not there before have been ended, although only the pending switches were
counted. -/
structure Depths.Stranded (before after : Depths) (waiting : List (Nat × Nat)) (pending : Nat) :
    Prop where
  nonempty : waiting ≠ []
  suspended : after.suspended = waiting ++ before.suspended
  loops_le : before.loops ≤ (waiting.map Prod.fst).sum
  switches_le : before.switches ≤ (waiting.map Prod.snd).sum
  loops : after.loops = 0
  switches : after.switches = pending - ((waiting.map Prod.snd).sum - before.switches)
  miscounted : after.miscounted = true ↔ before.miscounted = true ∨
    before.loops < (waiting.map Prod.fst).sum ∨
      before.switches + pending < (waiting.map Prod.snd).sum

/-- What a fault may do to the counts. -/
inductive Depths.LeftBy (e : Fault) (before after : Depths) : Prop
  | restored (h : after = before)
  /-- Functions have not been left. -/
  | inFunction (waiting : List (Nat × Nat)) (pending : Nat)
      (hpending : pending = 0 ∨ pending = 1 ∧ e.LacksBody)
      (h : before.Stranded after waiting pending)
  /-- A switch has been counted, but not its end. -/
  | inSwitch (he : e.LacksBody) (h : after = { before with switches := before.switches + 1 })

/-- The step leaves the counts as they were, apart from what a fault may do to them. -/
def Check.Balanced {α : Type} (x : Check α) : Prop :=
  ∀ s : Checker, match x s with
    | .ok _ s' => s'.depths = s.depths
    | .error e s' => s.depths.LeftBy e s'.depths

namespace Check.Balanced

variable {α β : Type}

/-- A change of the state that changes no counts. -/
theorem change {f : Checker → Checker} (h : ∀ s, (f s).depths = s.depths) :
    Check.Balanced (modify f) :=
  h

/-- A step that only has a result. -/
theorem ret (a : α) : Check.Balanced (pure a) := fun _ => rfl

/-- Adding an event to the log. -/
theorem log (e : Event) : (Check.log e).Balanced := fun _ => rfl

/-- Reading the symbol table. -/
theorem symbols : Check.symbols.Balanced := fun _ => rfl

/-- One step after another, given what the first one yields. -/
theorem seq {x : Check α} {f : α → Check β} {R : α → Prop} (hR : x.Yields R) (hx : x.Balanced)
    (hf : ∀ a, R a → (f a).Balanced) : (x >>= f).Balanced := by
  intro s
  have hfirst := hx s
  cases hrun : x s with
  | error e s₁ =>
    rw [hrun] at hfirst
    rw [Check.bind_error hrun]
    exact hfirst
  | ok a s₁ =>
    rw [hrun] at hfirst
    have hsecond := hf a (hR s a s₁ hrun) s₁
    rw [hfirst] at hsecond
    rw [Check.bind_ok hrun]
    exact hsecond

/-- One step after another. -/
theorem bind {x : Check α} {f : α → Check β} (hx : x.Balanced) (hf : ∀ a, (f a).Balanced) :
    (x >>= f).Balanced :=
  seq (R := fun _ => True) (fun _ _ _ _ => trivial) hx fun a _ => hf a

/-- Binding a name. -/
theorem declare (name : String) (position : Position) (ty : Ty) :
    (Check.declare name position ty).Balanced := by
  refine symbols.bind fun table => ?_
  cases table.insert name ty with
  | ok rest => exact change fun _ => rfl
  | error e => exact change fun s => s.depths_reported _

/-- Letting go of a frame. -/
theorem discard (frame : Option Frame) : (Check.discard frame).Balanced := by
  cases frame with
  | none => exact ret ()
  | some f => exact change fun _ => rfl

/-- Closing a scope. -/
theorem popScope : Check.popScope.Balanced := by
  refine symbols.bind fun table => ?_
  cases table.pop? with
  | none => exact (log _).bind fun _ => ret none
  | some popped =>
    have hclose : Check.Balanced (Check.modifySymbols fun _ => popped.2) := change fun _ => rfl
    exact hclose.bind fun _ => (log _).bind fun _ => ret (some popped.1)

/-- Giving a function the scope of its body. -/
theorem attachScope (b : FunctionBody) (f : FunctionTy) (scope : Option Frame) :
    (b.attachScope f scope).Balanced := by
  unfold FunctionBody.attachScope
  split
  next frame _ =>
    refine symbols.bind fun table => ?_
    cases table.define? f frame with
    | some rest => exact change fun _ => rfl
    | none => exact (discard (some frame)).bind fun _ => log _
  next => exact discard _

/-- A step in a scope of its own. -/
theorem bracket (kind : FrameKind) {x : Check α} (hx : x.Balanced) :
    (Check.bracket kind x).Balanced := by
  have hopen : (Check.pushScope kind).Balanced := fun _ => rfl
  exact hopen.bind fun _ => hx.bind fun a => popScope.bind fun frame => ret (a, frame)

end Check.Balanced

/-! ### What is counted -/

namespace Depths

variable {e : Fault} {before after : Depths} {waiting : List (Nat × Nat)} {pending : Nat}

/-- A function that is not left, while nothing else happens to it. -/
theorem stranded_function (before : Depths) (pending : Nat) :
    before.Stranded ⟨0, pending, (before.loops, before.switches) :: before.suspended,
      before.miscounted⟩ [(before.loops, before.switches)] pending where
  nonempty := List.cons_ne_nil _ _
  suspended := rfl
  loops_le := by simp
  switches_le := by simp
  loops := rfl
  switches := by simp
  miscounted := by simp [Nat.not_lt.mpr (Nat.le_add_right before.switches pending)]

/-- Functions that are not left inside of one that is not left either. -/
theorem Stranded.of_function
    (h : Stranded ⟨0, 0, (before.loops, before.switches) :: before.suspended,
      before.miscounted⟩ after waiting pending) :
    before.Stranded after (waiting ++ [(before.loops, before.switches)]) pending where
  nonempty := by simp
  suspended := by simp [h.suspended]
  loops_le := by simp
  switches_le := by simp
  loops := h.loops
  switches := by simp [h.switches]
  miscounted := by
    rw [h.miscounted]
    simp [Nat.add_comm before.switches]

/-- The ends of loops and switches that are around the functions. -/
theorem Stranded.of_nested {loops switches : Nat}
    (h : (before.nested loops switches).Stranded after waiting pending) :
    before.Stranded (after.unnested loops switches) waiting pending := by
  obtain ⟨hne, hsuspended, hloops_le, hswitches_le, hloops, hswitches, hmiscounted⟩ := h
  dsimp only [nested] at hloops_le hswitches_le hswitches hmiscounted
  refine ⟨hne, hsuspended, by omega, by omega, ?_, ?_, ?_⟩ <;> dsimp only [unnested]
  · omega
  · omega
  · simp only [Bool.or_eq_true, decide_eq_true_eq, hmiscounted, or_assoc]
    refine or_congr_right ?_
    omega

namespace LeftBy

/-- A function that is not left is still counted, whatever else happens in it. -/
theorem of_function (h : LeftBy e
      ⟨0, 0, (before.loops, before.switches) :: before.suspended, before.miscounted⟩ after) :
    LeftBy e before after := by
  cases h with
  | restored h =>
    rw [h]
    exact .inFunction _ 0 (.inl rfl) (before.stranded_function 0)
  | inFunction waiting pending hpending h => exact .inFunction _ pending hpending h.of_function
  | inSwitch he h =>
    rw [h]
    exact .inFunction _ 1 (.inr ⟨rfl, he⟩) (before.stranded_function 1)

/-- The ends of loops and switches are counted even after a fault. -/
theorem of_nested {loops switches : Nat} (h : LeftBy e (before.nested loops switches) after) :
    LeftBy e before (after.unnested loops switches) := by
  cases h with
  | restored h =>
    rw [h, unnested_nested]
    exact .restored rfl
  | inFunction waiting pending hpending h => exact .inFunction waiting pending hpending h.of_nested
  | inSwitch he h =>
    refine .inSwitch he ?_
    rw [h, ← unnested_nested { before with switches := before.switches + 1 } loops switches]
    simp only [nested, Nat.add_right_comm]

end LeftBy

end Depths

namespace Check.Balanced

/-- A step inside of loops and switches. -/
theorem nested (loops switches : Nat) {x : Check Unit} (hx : x.Balanced) :
    (Check.nested loops switches x).Balanced := by
  intro s
  have hbody := hx (s.nested loops switches)
  have henter : (modify (·.nested loops switches) : Check Unit) s =
      .ok () (s.nested loops switches) := rfl
  rw [Check.nested, Check.bind_ok henter, Check.afterwards]
  cases hrun : x (s.nested loops switches) with
  | ok a s' =>
    rw [hrun] at hbody
    change s'.depths.unnested loops switches = s.depths
    rw [hbody]
    exact s.depths.unnested_nested loops switches
  | error e s' =>
    rw [hrun] at hbody
    change Depths.LeftBy e s.depths (s'.depths.unnested loops switches)
    exact .of_nested hbody

/-- A switch without a body is counted. -/
theorem missingBody {c : Clause} (hrule : c.rule = .switchOn) : c.missingBody.Balanced := by
  have hfault : c.node.missing 1 = .missingChild .switchOn 1 c.node.position := by
    rw [← hrule]
    rfl
  exact fun s => .inSwitch ⟨_, hfault⟩ rfl

/-- A step inside of a function, which is left only if the step ends well. -/
theorem inFunction (result : Ty) {x : Check Unit} (hx : x.Balanced) :
    (Check.inFunction result x).Balanced := by
  intro s
  have hbody := hx (s.enterFunction result)
  have henter : (modify (·.enterFunction result) : Check Unit) s =
      .ok () (s.enterFunction result) := rfl
  rw [Check.inFunction, Check.bind_ok henter]
  cases hrun : x (s.enterFunction result) with
  | error e s' =>
    rw [hrun] at hbody
    rw [Check.bind_error hrun]
    exact .of_function hbody
  | ok a s' =>
    rw [hrun] at hbody
    rw [Check.bind_ok hrun]
    have hsuspended : s'.suspended = (s.loops, s.switches) :: s.suspended :=
      congrArg Depths.suspended hbody
    have hmiscounted : s'.miscounted = s.miscounted := congrArg Depths.miscounted hbody
    change s'.leaveFunction.depths = s.depths
    simp [Checker.leaveFunction, Checker.depths, hsuspended, hmiscounted]

end Check.Balanced

/-! ### All statements -/

/-- Every step of a check is balanced. -/
def balanceLogic : BracketLogic where
  holds := Check.Balanced
  ret := .ret
  seq := .seq
  fault _ := fun _ => .restored rfl
  symbols := .symbols
  nesting hk := fun s => hk s.loops s.switches s.returns s
  log := .log
  report _ _ _ := .change fun s => s.depths_reported _
  resolve _ _ _ := .change fun _ => rfl
  newClass _ := fun _ => rfl
  newFunction _ _ _ := fun _ => rfl
  declare := .declare
  markComplete _ := .change fun _ => rfl
  setAccess _ := .change fun _ => rfl
  discard := .discard
  attachScope := .attachScope
  bracket := .bracket
  inFunction := .inFunction
  nested := .nested
  missingBody := .missingBody

instance : Fact balanceLogic.statements := ⟨trivial⟩

/-- Statements are balanced. -/
theorem Node.balanced_checkStatement (n : Node) : n.checkStatement.Balanced :=
  balanceLogic.toStepLogic.sound .statement n (.inl trivial) True

/-- A statement that ends well leaves the numbers of loops and switches around it as they were, so
that a loop or a switch can take back what it has counted. So does one that meets a fault, unless
functions have not been left, or the fault is that a switch has no body: that switch is still
counted then. -/
theorem Node.checkStatement_balanced (n : Node) (s : Checker) :
    match n.checkStatement s with
    | .ok _ s' => s'.loops = s.loops ∧ s'.switches = s.switches
    | .error e s' =>
        (∃ waiting, waiting ≠ [] ∧ s'.suspended = waiting ++ s.suspended) ∨
        s'.loops = s.loops ∧
          (s'.switches = s.switches ∨
            s'.switches = s.switches + 1 ∧ ∃ position, e = .missingChild .switchOn 1 position) := by
  have hrun := n.balanced_checkStatement s
  cases hend : n.checkStatement s with
  | ok a s' =>
    rw [hend] at hrun
    exact ⟨congrArg Depths.loops hrun, congrArg Depths.switches hrun⟩
  | error e s' =>
    rw [hend] at hrun
    cases hrun with
    | restored h => exact .inr ⟨congrArg Depths.loops h, .inl (congrArg Depths.switches h)⟩
    | inFunction waiting pending _ h => exact .inl ⟨waiting, h.nonempty, h.suspended⟩
    | inSwitch he h =>
      exact .inr ⟨congrArg Depths.loops h, .inr ⟨congrArg Depths.switches h, he⟩⟩

/-- A statement that ends well has not miscounted. One that meets a fault has miscounted if more
loops are waiting around functions that have not been left than there were around the statement, or
more switches; in no other case. One switch more may be waiting if the fault is that a switch has no
body. -/
theorem Node.checkStatement_miscounted (n : Node) (s : Checker) :
    match n.checkStatement s with
    | .ok _ s' => s'.miscounted = s.miscounted
    | .error e s' => ∃ (waiting : List (Nat × Nat)) (pending : Nat),
        s'.suspended = waiting ++ s.suspended ∧
        (pending = 0 ∨ pending = 1 ∧ ∃ position, e = .missingChild .switchOn 1 position) ∧
        (s'.miscounted = true ↔ s.miscounted = true ∨ s.loops < (waiting.map Prod.fst).sum ∨
          s.switches + pending < (waiting.map Prod.snd).sum) := by
  have hrun := n.balanced_checkStatement s
  cases hend : n.checkStatement s with
  | ok a s' =>
    rw [hend] at hrun
    exact congrArg Depths.miscounted hrun
  | error e s' =>
    rw [hend] at hrun
    cases hrun with
    | restored h =>
      have hmiscounted : s'.miscounted = s.miscounted := congrArg Depths.miscounted h
      exact ⟨[], 0, congrArg Depths.suspended h, .inl rfl, by simp [hmiscounted]⟩
    | inFunction waiting pending hpending h =>
      exact ⟨waiting, pending, h.suspended, hpending, h.miscounted⟩
    | inSwitch _ h =>
      have hmiscounted : s'.miscounted = s.miscounted := congrArg Depths.miscounted h
      exact ⟨[], 0, congrArg Depths.suspended h, .inl rfl, by simp [hmiscounted]⟩

/-- A switch without a body: `switch (1)`. -/
def bodilessSwitch : Node :=
  { rule := .switchOn, children := [word .intConst "1"] }

/-- A class with a function in which an operand is missing: `struct S { void g() { -; } };`. -/
def brokenClass : Node :=
  { rule := .simpleDecl
    children := [tree .classSpec [
      tree .classHead [word .structKey "struct", word .identifier "S"],
      tree .functionDef [word .voidType "void",
        tree .functionDeclarator [word .identifier "g", none],
        tree .compound [tree .unaryMinus []]]]] }

/-- Both exceptions occur. A switch without a body is counted once and for all. After a fault in
the function of a local class, the loop around the class is not counted any more when the body of
the loop ends, so that there is nothing to take back. -/
theorem counts_after_fault :
    (∃ e s', bodilessSwitch.checkStatement (.start .bare) = .error e s' ∧
      (Checker.start .bare).switches = 0 ∧ s'.switches = 1) ∧
    ∃ e s', brokenClass.checkStatement { Checker.start .bare with loops := 1 } = .error e s' ∧
      s'.loops = 0 :=
  ⟨⟨_, _, rfl, rfl, rfl⟩, _, _, rfl, rfl⟩

/-- So a loop around the class has miscounted, and a declaration of the class by itself has not. -/
example :
    (∃ e s', Node.checkStatement
      { rule := .whileLoop, children := [word .intConst "1", brokenClass] }
      (.start .bare) = .error e s' ∧ s'.miscounted = true) ∧
    ∃ e s', brokenClass.checkStatement (.start .bare) = .error e s' ∧ s'.miscounted = false :=
  ⟨⟨_, _, rfl, rfl⟩, _, _, rfl, rfl⟩

end CWithClasses
