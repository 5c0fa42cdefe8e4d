import CWithClasses.Proofs.Logic.Bracket
import CWithClasses.Proofs.Logic.Tree
import CWithClasses.Proofs.Weight

/-!
# Checks that do what trees weigh

A `Tally` is a property of steps with a weight: it says what a step does, in so far as weights tell.
Weights add up when one step follows another, and they change with what is opened around a step in
the way in which the weight of a tree changes with the slot that it is in. So the check of a tree
does what the tree weighs.

What a tree weighs is not always done at once. The functions of a class are checked after all its
members have been declared, and until then their weight is owed.

Steps of no weight are those of a `BracketLogic`. In a logic that considers no statements, parts
that lead to none are only known to have no weight if they conform to the grammar, and if no class
is specified in them.
-/

namespace CWithClasses

open Check

/-- Nothing is around a jump or a label that it could apply to. -/
def Checker.Forbids (s : Checker) : Rule → Prop
  | .breakJump => s.loops + s.switches = 0
  | .continueJump => s.loops = 0
  | .caseLabel | .defaultLabel => s.switches = 0
  | .returnJump => s.returns.head? = none
  | _ => False

/-- A property of steps and weights that adds up when one step follows another. -/
structure WeightRules (W : Type) [AddCommMonoid W] where
  /-- The step does what a weight tells, apart from what its result still owes. -/
  does : ∀ {α : Type}, W → Check α → (α → W) → Prop
  ret : ∀ {α : Type} (a : α) (owed : α → W), does (owed a) (pure a) owed
  /-- A step after another one, given what the first one yields in any case. -/
  seq : ∀ {α β : Type} {x : Check α} {f : α → Check β} {R : α → Prop} {w v : W} {owed : α → W}
    {owing : β → W}, x.Yields R → does w x owed → (∀ a, R a → does (v + owed a) (f a) owing) →
    does (w + v) (x >>= f) owing

namespace WeightRules

variable {W : Type} [AddCommMonoid W] (R : WeightRules W) {α β : Type} {w v : W} {owing : β → W}

/-- One step after another. -/
theorem bind {x : Check α} {f : α → Check β} (hx : R.does w x fun _ => 0)
    (hf : ∀ a, R.does v (f a) owing) : R.does (w + v) (x >>= f) owing := by
  refine R.seq (R := fun _ => True) (fun _ _ _ _ => trivial) hx fun a _ => ?_
  rw [add_zero]
  exact hf a

/-- A step after one of no weight. -/
theorem next {x : Check α} {f : α → Check β} (hx : R.does 0 x fun _ => 0)
    (hf : ∀ a, R.does w (f a) owing) : R.does w (x >>= f) owing := by
  have hboth := R.bind hx hf
  rwa [zero_add] at hboth

/-- A step before one of no weight. -/
theorem before {x : Check α} {f : α → Check β} (hx : R.does w x fun _ => 0)
    (hf : ∀ a, R.does 0 (f a) fun _ => 0) : R.does w (x >>= f) fun _ => 0 := by
  have hboth := R.bind hx hf
  rwa [add_zero] at hboth

/-- One step for each item of a list. -/
theorem forM {f : α → Check Unit} {items : List α} {weight : α → W}
    (hf : ∀ a ∈ items, R.does (weight a) (f a) fun _ => 0) :
    R.does (items.map weight).sum (items.forM f) fun _ => 0 := by
  induction items with
  | nil => exact R.ret () fun _ => 0
  | cons a rest ih =>
    have hfirst := hf a (by simp)
    have hrest := ih fun b hb => hf b (List.mem_cons_of_mem _ hb)
    rw [List.map_cons, List.sum_cons]
    exact R.bind hfirst fun _ => hrest

/-- A list that is gone through with a value. -/
theorem foldlM {f : β → α → Check β} {items : List α} {weight : α → W}
    (hf : ∀ b, ∀ a ∈ items, R.does (weight a) (f b a) fun _ => 0) (b : β) :
    R.does (items.map weight).sum (items.foldlM f b) fun _ => 0 := by
  induction items generalizing b with
  | nil => exact R.ret b fun _ => 0
  | cons a rest ih =>
    have hfirst := hf b a (by simp)
    have hrest := ih fun b c hc => hf b c (List.mem_cons_of_mem _ hc)
    rw [List.map_cons, List.sum_cons, List.foldlM_cons]
    exact R.bind hfirst hrest

end WeightRules

/-- A property of steps and weights that follows the way in which checks are put together. -/
structure Tally (W : Type) [AddCommMonoid W] extends Weights W, WeightRules W where
  /-- The steps of no weight. -/
  logic : BracketLogic
  zero : ∀ {α : Type} {x : Check α}, logic.holds x → does 0 x fun _ => 0
  /-- A step that only meets faults. -/
  never : ∀ {α : Type} {x : Check α} (w : W) (owed : α → W), x.Yields (fun _ => False) →
    does w x owed
  blockScope : ∀ {w : W} {x : Check Unit}, does w x (fun _ => 0) →
    does (block w) (Check.bracket .block x) fun _ => 0
  classScope : ∀ {α : Type} {w : W} (c : ClassRef) {x : Check α}, does w x (fun _ => 0) →
    does (members w) (Check.bracket (.classBody c) x) fun _ => 0
  /-- What is done in a function comes after a step for its parameters. -/
  functionScope : ∀ {w : W} (result : Ty) {parameters x : Check Unit}, logic.holds parameters →
    does w x (fun _ => 0) →
    does (function w) (Check.bracket .function (do parameters; Check.inFunction result x))
      fun _ => 0
  /-- A function may be inside of a class or not. -/
  members_function : ∀ w : W, members (function w) = function w
  loop_nested : ∀ {w : W} {x : Check Unit}, does w x (fun _ => 0) →
    does (loop w) (Check.nested 1 0 x) fun _ => 0
  switch_nested : ∀ {w : W} {x : Check Unit}, does w x (fun _ => 0) →
    does (switch w) (Check.nested 0 1 x) fun _ => 0
  /-- A jump or a label, and what comes after it. -/
  illegalJump : ∀ {w : W} {n : Node} {c : Checker → Prop} [DecidablePred c] (statement : String)
    (position : Position) {x : Check Unit} {y : Checker → Check Unit}, n.rule.jumps = true →
    (∀ s, c s ↔ s.Forbids n.rule) → does w x (fun _ => 0) → (∀ s, does w (y s) fun _ => 0) →
    does (jump n + w) (do
      let s ← get
      if c s then do
        CWithClasses.illegalJump statement position
        x
      else y s) fun _ => 0
  functionDefinition : ∀ {w : W} {n : Node}, n.rule.defines = true →
    does w n.clause.functionDefinition (fun _ => 0) →
    does (define n w) n.clause.functionDefinition fun _ => 0

namespace Tally

variable {W : Type} [AddCommMonoid W] (T : Tally W) {α β : Type} {w v : W} {owing : β → W}

/-! ### Rules -/

/-- A step after one of the logic. -/
theorem next {x : Check α} {f : α → Check β} (hx : T.logic.holds x)
    (hf : ∀ a, T.does w (f a) owing) : T.does w (x >>= f) owing :=
  T.toWeightRules.next (T.zero hx) hf

/-- A step before one of the logic. -/
theorem before {x : Check α} {f : α → Check β} (hx : T.does w x fun _ => 0)
    (hf : ∀ a, T.logic.holds (f a)) : T.does w (x >>= f) fun _ => 0 :=
  T.toWeightRules.before hx fun a => T.zero (hf a)

/-- A step in a block of its own. -/
theorem inBlock {x : Check Unit} (hx : T.does w x fun _ => 0) :
    T.does (T.block w) (Check.inScope .block x) fun _ => 0 := by
  rw [inScope_eq]
  exact T.before (T.blockScope hx) fun _ => T.logic.bind (T.logic.discard _) fun _ => T.logic.ret _

/-- A step in the body of a class. -/
theorem inClass (cls : ClassRef) (access : Access) {x : Check Unit}
    (hx : T.does w x fun _ => 0) :
    T.does (T.members w) (Check.inClass cls access x) fun _ => 0 := by
  have hbody := T.next (T.logic.setAccess access) fun _ => hx
  rw [inClass_eq]
  refine T.before (T.classScope cls hbody) fun _ => ?_
  exact T.logic.bind (T.logic.discard _) fun _ => T.logic.ret _

/-- The body of a function. -/
theorem functionBody {b : FunctionBody} {f : FunctionTy} (hf : b.ty.asFunction? = some f)
    (hinit : ∀ init, b.ctorInit = some init → T.logic.holds init.ctorInit)
    (hblock : T.does w b.body.functionBlock fun _ => 0) :
    T.does (T.function w) b.check fun _ => 0 := by
  have hrun : T.does w b.run fun _ => 0 := by
    unfold FunctionBody.run
    cases hctor : b.ctorInit with
    | none => exact hblock
    | some init => exact T.next (hinit init hctor) fun _ => hblock
  have hinner : T.does (T.function w) (Check.bracket .function (b.checkStatements f))
      fun _ => 0 := by
    rw [b.checkStatements_eq]
    exact T.functionScope f.result (T.logic.bindParameters _ _) hrun
  have hscope : T.does (T.function w) (b.scope f) fun _ => 0 := by
    unfold FunctionBody.scope
    cases b.cls with
    | none => exact T.before hinner fun _ => T.logic.ret _
    | some c =>
      have houter := T.classScope c hinner
      rw [T.members_function] at houter
      exact T.before houter fun _ => T.logic.ret _
  rw [FunctionBody.check_eq hf]
  refine T.before hscope fun frame => ?_
  exact T.logic.bind (T.logic.attachScope b f frame) fun _ => T.logic.log _

/-- Taking a part of a tree, and going on with it. -/
theorem part {n : Node} {i : Nat} {f : Phrase → Check β}
    (h : ∀ m, n.child? i = some m → T.does w (f m.phrase) owing) :
    T.does w (n.clause.part i >>= f) owing := by
  unfold Clause.part
  rw [n.clause_part?]
  cases hchild : n.child? i with
  | none => exact T.never w owing (Yields.bind (R := fun _ => False) (.fault _) fun _ h => h.elim)
  | some m => exact h m hchild

/-- A tree that has no meaning in its place. -/
theorem unexpected (n : Node) (context : String) (owed : α → W) :
    T.does w (n.clause.unexpected context) owed :=
  T.never w owed (.fault _)

/-- Reading something off a tree, and going on with it. -/
theorem lift {x : Except Fault α} {f : α → Check β} (hf : ∀ a, T.does w (f a) owing) :
    T.does w ((liftM x : Check α) >>= f) owing := by
  cases x with
  | error e =>
    exact T.never w owing (Yields.bind (R := fun _ => False) (.fault _) fun _ h => h.elim)
  | ok a => exact hf a

/-- One step for each tree of a list. -/
theorem forM_phrase {f : Phrase → Check Unit} {nodes : List Node}
    (hf : ∀ m ∈ nodes, T.does (T.weight m) (f m.phrase) fun _ => 0) :
    T.does (nodes.map T.weight).sum ((nodes.map Node.phrase).forM f) fun _ => 0 := by
  have hall : T.does ((nodes.map Node.phrase).map fun q => T.weight q.node).sum
      ((nodes.map Node.phrase).forM f) fun _ => 0 := by
    refine T.forM fun q hq => ?_
    obtain ⟨m, hm, rfl⟩ := List.mem_map.mp hq
    rw [m.phrase_node]
    exact hf m hm
  simpa [Function.comp_def] using hall

/-- The trees of a list that is gone through with a value. -/
theorem foldlM_phrase {f : β → Phrase → Check β} {nodes : List Node}
    (hf : ∀ b, ∀ m ∈ nodes, T.does (T.weight m) (f b m.phrase) fun _ => 0) (b : β) :
    T.does (nodes.map T.weight).sum ((nodes.map Node.phrase).foldlM f b) fun _ => 0 := by
  rw [List.foldlM_map]
  exact T.foldlM hf b

/-! ### Trees that fit -/

/-- The tree conforms to the class, and classes are specified in their places only, unless
statements are considered wherever they stand. -/
def Fits (σ : Nonterminal) (n : Node) : Prop :=
  T.logic.statements ∨ n.conforms σ = true ∧ n.classesPlaced (σ = .specifier) = true

/-- In trees of a class, a production has this slot. Classes may be specified in it if it takes
specifiers, and only then. -/
structure HasSlot (σ : Nonterminal) (rule : Rule) (i : Nat) (slot : Slot) : Prop where
  row : StepLogic.slot? (layout σ rule) i = some slot
  place : (rule.declares && i == 0 || rule.isList && decide (σ = .specifier)) =
    decide (slot.takes = .specifier)

namespace Fits

variable {T} {σ τ : Nonterminal} {m n item : Node} {i : Nat} {slot : Slot}

/-- A tree that fits into a class of inner trees is one. -/
theorem inner (hf : T.Fits τ n) (hτ : τ.isInner = true) (hne : τ ≠ .specifier) :
    T.logic.toStepLogic.Fits τ n := by
  refine ⟨.inl trivial, hf.imp_right fun ⟨hconforms, hplaced⟩ => ⟨hτ, hconforms, ?_⟩⟩
  simpa [hne] using hplaced

/-- What is in a slot fits into the class of the slot, where classes may be specified alike. -/
theorem filled (hf : T.Fits σ n) (hslot : HasSlot σ n.rule i slot) (hm : n.child? i = some m)
    (hitem : item ∈ slot.items m) : T.Fits slot.takes item := by
  rcases hf with hstatements | ⟨hconforms, hplaced⟩
  · exact .inl hstatements
  · obtain ⟨row, hlayout, hrow⟩ := StepLogic.exists_of_slot? hslot.row
    have htakes := (Node.conforms_slots hlayout).mp hconforms i slot hrow
    rw [hm] at htakes
    have hchild := Node.classesPlaced_child hplaced hm
    rw [hslot.place] at hchild
    exact .inr ⟨htakes item hitem, Node.classesPlaced_slotItems hchild hitem⟩

/-- The items of a list fit if the list does. -/
theorem items (hf : T.Fits σ n) (h : layout σ n.rule = some (.items τ))
    (hlist : n.rule.isList = true) (hplace : (σ = .specifier) ↔ (τ = .specifier))
    (hm : m ∈ n.items) : T.Fits τ m := by
  rcases hf with hstatements | ⟨hconforms, hplaced⟩
  · exact .inl hstatements
  · have hitem := (Node.conforms_items h).mp hconforms m hm
    have hclasses := Node.classesPlaced_items hlist hplaced hm
    simp only [hplace] at hclasses
    exact .inr ⟨hitem, hclasses⟩

/-- A tree fits alike into classes that its production builds alike. -/
theorem congr (hf : T.Fits σ n) (h : layout σ n.rule = layout τ n.rule)
    (hplace : (σ = .specifier) ↔ (τ = .specifier)) : T.Fits τ n := by
  refine hf.imp_right fun ⟨hconforms, hplaced⟩ => ⟨?_, ?_⟩
  · rwa [← Node.conforms_congr h]
  · simpa only [hplace] using hplaced

end Fits

/-! ### The parts of statements -/

/-- An optional statement. -/
theorem checkStatement {child : Option Node}
    (h : ∀ m, child = some m → T.does (T.weight m) m.phrase.roles.statement fun _ => 0) :
    T.does (T.inSlot (some .same) child) (checkStatement? (child.map Node.phrase)) fun _ => 0 := by
  cases child with
  | none => exact T.ret () fun _ => 0
  | some m => exact h m rfl

/-- The statements of an optional sequence. -/
theorem checkStatements {child : Option Node}
    (h : ∀ m, child = some m → ∀ item ∈ m.flatten,
      T.does (T.weight item) item.phrase.roles.statement fun _ => 0) :
    T.does (T.inSlot (some .same) child) (CWithClasses.checkStatements (child.map Node.phrase))
      fun _ => 0 := by
  cases child with
  | none => exact T.ret () fun _ => 0
  | some m =>
    have hall := T.forM_phrase (f := fun q => q.roles.statement) (h m rfl)
    rw [← T.weight_flatten, ← m.phrase_flatten] at hall
    exact hall

/-- A jump without anything after it. -/
theorem jumpOnly {n : Node} {c : Checker → Prop} [DecidablePred c] (statement : String)
    (position : Position) (hjump : n.rule.jumps = true) (hc : ∀ s, c s ↔ s.Forbids n.rule) :
    T.does (T.jump n) (do
      let s ← get
      if c s then CWithClasses.illegalJump statement position) fun _ => 0 := by
  have hnone : T.does 0 (pure () : Check Unit) fun _ => 0 := T.ret () fun _ => 0
  have h := T.illegalJump statement position hjump hc hnone fun _ => hnone
  simpa using h

/-- Returning from the function around a statement, if there is one. -/
theorem checkReturned {n : Node} (hrule : n.rule = .returnJump) (value : Option (Ty × Position))
    (position : Position) :
    T.does (T.jump n) (Clause.checkReturned value position) fun _ => 0 := by
  have hnone : T.does 0 (pure () : Check Unit) fun _ => 0 := T.ret () fun _ => 0
  have hreturn : ∀ s : Checker, T.does 0 (Clause.checkReturn (s.returns.headD .void) value position)
      fun _ => 0 := fun s =>
    T.zero (T.logic.toStepLogic.looks (p := True) (.checkReturn _ value position))
  have h := T.illegalJump (n := n) (c := fun s => s.returns.head? = none) "return" position
    (by rw [hrule]; rfl) (fun s => by rw [hrule]; rfl) hnone hreturn
  rw [add_zero] at h
  unfold Clause.checkReturned
  convert h using 2
  funext s
  cases hreturns : s.returns with
  | nil => simp
  | cons expected rest => simp

/-! ### Specifiers -/

/-- The specifiers of a sequence. -/
theorem specifiers {m : Node}
    (h : ∀ item ∈ m.flatten, T.does (T.weight item) item.phrase.roles.specifier fun _ => 0) :
    T.does (T.weight m) m.phrase.specifiers fun _ => 0 := by
  have hafter : ∀ (base : Option Ty) (item : Node), item ∈ m.flatten →
      T.does (T.weight item) (Phrase.specifierAfter base item.phrase) fun _ => 0 := by
    intro base item hitem
    refine T.before (h item hitem) fun chosen => ?_
    cases chosen with
    | none => exact T.logic.ret _
    | some ty =>
      cases base with
      | none => exact T.logic.ret _
      | some previous => exact T.logic.bind (T.logic.report _ _ nofun) fun _ => T.logic.ret _
  unfold Phrase.specifiers
  rw [m.phrase_flatten, T.weight_flatten]
  exact T.before (T.foldlM_phrase hafter none) fun _ => T.logic.ret _

/-- The specifiers of an optional sequence. -/
theorem checkSpecifiers {child : Option Node}
    (h : ∀ m, child = some m → ∀ item ∈ m.flatten,
      T.does (T.weight item) item.phrase.roles.specifier fun _ => 0) :
    T.does (T.inSlot (some .same) child) (checkSpecifiers? (child.map Node.phrase))
      fun _ => 0 := by
  cases child with
  | none => exact T.ret Ty.void fun _ => 0
  | some m => exact T.specifiers (h m rfl)

end Tally

end CWithClasses
