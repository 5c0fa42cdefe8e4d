import CWithClasses.Proofs.Pairs.Expression
import CWithClasses.Proofs.Unknown
import CWithClasses.Proofs.Verdict

/-!
# Annotations of expressions

Checking an expression records the type of every name that is used in it. `Node.references` reads
the uses off the tree, from left to right: the names that stand for a value, and the members that
are taken from an object or through a pointer. The main statement says that a clean check of an
expression records one resolution for each of them, in this order, and nothing else.

What an expression records does not depend on what has been recorded before, which is why the class
of a member can be told in the state before the whole expression. `Check.Adds` says so of a step.
-/

namespace CWithClasses

open Check
open Node (word tree)

/-! ### References -/

/-- A use of a name in an expression. -/
inductive Reference where
  /-- A name that stands for a value. -/
  | name (token : Token)
  /-- A member of an object, or of the object that a pointer leads to. -/
  | member (base : Node) (arrow : Bool) (token : Token)

/-- Whether a slot of the production holds an expression. Of a list, all slots may do. -/
def Rule.holdsExpression (rule : Rule) (i : Nat) : Bool :=
  if rule.isList then true
  else
    match layout .expression rule with
    | some (.slots slots) => slots[i]?.any fun slot => slot.takes == .expression
    | _ => false

/-- The slots of a production that is no list which hold expressions. -/
def Rule.operands (rule : Rule) : List Nat := (List.range 3).filter rule.holdsExpression

/-- Productions other than lists have three slots for expressions at most. -/
theorem Rule.holdsExpression_of_le {rule : Rule} (h : rule.isList = false) {i : Nat} (hi : 3 ≤ i) :
    rule.holdsExpression i = false := by
  obtain ⟨k, rfl⟩ := Nat.exists_eq_add_of_le' hi
  cases rule <;> first | contradiction | rfl

/-- The productions that use a name by themselves, apart from their operands. -/
def Rule.refers : Rule → Bool
  | .token | .dotField | .arrowField => true
  | _ => false

/-- Lists use no name by themselves. -/
theorem Rule.refers_of_isList {rule : Rule} (h : rule.isList = true) : rule.refers = false := by
  cases rule <;> first | rfl | contradiction

/-- A binary operator has two operands. -/
theorem Rule.operands_of_binary {rule : Rule} {kind : BinaryKind}
    (h : rule.category = .binary kind) :
    rule.isList = false ∧ rule.refers = false ∧ rule.operands = [0, 1] := by
  cases rule <;> first | exact ⟨rfl, rfl, rfl⟩ | cases h

namespace Node

/-- The use of a name that a tree makes by itself, apart from its operands. -/
def ownReference (n : Node) : List Reference :=
  match n.rule with
  | .token =>
      match n.token with
      | some t => if t.constantTy?.isNone then [.name t] else []
      | none => []
  | .dotField | .arrowField =>
      match n.child? 0, (n.child? 1).bind (·.token) with
      | some base, some t => [.member base (n.rule == .arrowField) t]
      | _, _ => []
  | _ => []

mutual

/-- The uses of names in an expression, from left to right. -/
def references : Node → List Reference
  | ⟨rule, children, token⟩ =>
    referencesFrom rule 0 children ++ ownReference ⟨rule, children, token⟩

/-- The uses of names in the slots of a production, from slot `i` on. -/
def referencesFrom (rule : Rule) : Nat → List (Option Node) → List Reference
  | _, [] => []
  | i, none :: rest => referencesFrom rule (i + 1) rest
  | i, some child :: rest =>
      (if rule.holdsExpression i then references child else []) ++ referencesFrom rule (i + 1) rest

end

/-- The uses of names in a slot. -/
def referencesAt (n : Node) (i : Nat) : List Reference := ((n.child? i).map references).getD []

variable {n : Node}

/-- The uses of names in the operands come first. -/
theorem references_eq (n : Node) :
    n.references = referencesFrom n.rule 0 n.children ++ n.ownReference := by
  cases n
  simp [references]

/-- Most productions use no name by themselves. -/
theorem ownReference_eq_nil (h : n.rule.refers = false) : n.ownReference = [] := by
  unfold ownReference
  cases hrule : n.rule <;> rw [hrule] at h <;> first | rfl | contradiction

/-- The first slot comes before the others. -/
theorem referencesFrom_eq (rule : Rule) (i : Nat) (children : List (Option Node)) :
    referencesFrom rule i children =
      (if rule.holdsExpression i then (children[0]?.join.map references).getD [] else []) ++
        referencesFrom rule (i + 1) children.tail := by
  cases children with
  | nil => simp [referencesFrom]
  | cons child rest => cases child <;> simp [referencesFrom]

/-- There are no uses of names behind the last slot that holds an expression. -/
theorem referencesFrom_eq_nil {rule : Rule} {i : Nat}
    (h : ∀ j, i ≤ j → rule.holdsExpression j = false) (children : List (Option Node)) :
    referencesFrom rule i children = [] := by
  induction children generalizing i with
  | nil => simp [referencesFrom]
  | cons child rest ih =>
    have hrest : referencesFrom rule (i + 1) rest = [] := ih fun j hj => h j (by omega)
    rw [referencesFrom_eq, h i (Nat.le_refl i)]
    exact hrest

/-- The uses of names in a tree whose production and operands are known. -/
theorem references_of_operands {rule : Rule} (hrule : n.rule = rule) (slots : List Nat)
    (h : rule.isList = false ∧ rule.operands = slots) :
    n.references = slots.flatMap n.referencesAt ++ n.ownReference := by
  subst hrule
  obtain ⟨hlist, rfl⟩ := h
  have hend : ∀ children, referencesFrom n.rule 3 children = [] :=
    referencesFrom_eq_nil fun j hj => Rule.holdsExpression_of_le hlist hj
  rw [references_eq, referencesFrom_eq, referencesFrom_eq, referencesFrom_eq, hend]
  unfold Rule.operands
  cases h₀ : n.rule.holdsExpression 0 <;> cases h₁ : n.rule.holdsExpression 1 <;>
    cases h₂ : n.rule.holdsExpression 2 <;>
    simp [List.range_succ, referencesAt, child?, h₀, h₁, h₂]

/-- The uses of names in a tree that uses none by itself. -/
theorem references_of_slots {rule : Rule} (hrule : n.rule = rule) (slots : List Nat)
    (h : rule.isList = false ∧ rule.refers = false ∧ rule.operands = slots) :
    n.references = slots.flatMap n.referencesAt := by
  rw [references_of_operands hrule slots ⟨h.1, h.2.2⟩, ownReference_eq_nil (hrule ▸ h.2.1),
    List.append_nil]

/-- The uses of names in a row of a list are those in its items. -/
theorem referencesFrom_items : ∀ {list : Rule}, list.isList = true →
    ∀ (i : Nat) (children : List (Option Node)),
      referencesFrom list i children = (itemsOf list children).flatMap references
  | _, _, _, [] => by simp [referencesFrom, itemsOf]
  | list, hlist, i, none :: rest => by
      simp [referencesFrom, itemsOf, referencesFrom_items hlist (i + 1) rest]
  | list, hlist, i, some ⟨rule, children, token⟩ :: rest => by
      have hrest := referencesFrom_items hlist (i + 1) rest
      have hholds : list.holdsExpression i = true := if_pos hlist
      rw [referencesFrom, itemsOf, List.flatMap_append, hrest, hholds, if_pos rfl]
      congr 1
      split
      next hcontinues =>
        have hrule := Rule.isList_of_continues hlist hcontinues
        have hown : ownReference ⟨rule, children, token⟩ = [] :=
          ownReference_eq_nil (Rule.refers_of_isList hrule)
        rw [references_eq, hown, List.append_nil, items]
        exact referencesFrom_items hrule 0 children
      next => simp

/-- The uses of names in a list are those in its items. -/
theorem references_items (h : n.rule.isList = true) :
    n.references = n.items.flatMap references := by
  rw [references_eq, ownReference_eq_nil (Rule.refers_of_isList h), List.append_nil]
  cases n
  exact referencesFrom_items h 0 _

/-- The uses of names in a tree are those in its items, whether it is a list or stands for
itself. -/
theorem references_flatten (n : Node) : n.references = n.flatten.flatMap references := by
  unfold flatten
  split
  next h => exact references_items h
  next => simp

end Node

/-! ### What a step adds -/

namespace Check

variable {α β : Type} {t : SymbolTable} {x : Check α} {f : α → Check β}

/-- In every state with this table and without a limit, the step has the same result and adds the
same diagnostics and resolutions. The table stays as it is. -/
def Adds (t : SymbolTable) (x : Check α) (a : α) (ds : List Diagnostic) (rs : List Resolution) :
    Prop :=
  ∀ s, s.symbols = t → s.limit = none → ∃ s₁, x s = .ok a s₁ ∧ s₁.symbols = t ∧ s₁.limit = none ∧
    s₁.diagnostics = s.diagnostics ++ ds ∧ s₁.resolutions = s.resolutions ++ rs

/-- In every state with this table and without a limit, the step meets a fault. -/
def Faults (t : SymbolTable) (x : Check α) : Prop :=
  ∀ s, s.symbols = t → s.limit = none → ∃ e s₁, x s = .error e s₁

/-- The step either meets a fault, or else it adds what the property allows. -/
inductive Settles (t : SymbolTable) (x : Check α)
    (P : α → List Diagnostic → List Resolution → Prop) : Prop
  | adds {a : α} {ds : List Diagnostic} {rs : List Resolution} (h : x.Adds t a ds rs)
      (hP : P a ds rs)
  | faults (h : x.Faults t)

/-- A result adds nothing. -/
theorem Adds.ret (t : SymbolTable) (a : α) : Adds t (pure a) a [] [] :=
  fun s ht hlimit => ⟨s, rfl, ht, hlimit, (List.append_nil _).symm, (List.append_nil _).symm⟩

/-- What two steps add, one after the other. -/
theorem Adds.bind {a : α} {b : β} {ds ds' : List Diagnostic} {rs rs' : List Resolution}
    (hx : x.Adds t a ds rs) (hf : (f a).Adds t b ds' rs') :
    (x >>= f).Adds t b (ds ++ ds') (rs ++ rs') := by
  intro s ht hlimit
  obtain ⟨s₁, hrun₁, ht₁, hlimit₁, hds₁, hrs₁⟩ := hx s ht hlimit
  obtain ⟨s₂, hrun₂, ht₂, hlimit₂, hds₂, hrs₂⟩ := hf s₁ ht₁ hlimit₁
  refine ⟨s₂, ?_, ht₂, hlimit₂, ?_, ?_⟩
  · rw [bind_ok hrun₁ f]
    exact hrun₂
  · rw [hds₂, hds₁, List.append_assoc]
  · rw [hrs₂, hrs₁, List.append_assoc]

/-- A report. -/
theorem Adds.report (t : SymbolTable) (e : Problem) (position : Position) :
    Adds t (Check.report e position) () [⟨e, position⟩] [] := by
  intro s ht hlimit
  refine ⟨s.reported ⟨e, position⟩, rfl, ?_⟩
  rw [Checker.reported_eq hlimit]
  exact ⟨ht, hlimit, rfl, (List.append_nil _).symm⟩

/-- Recording the use of a name. -/
theorem Adds.resolve (t : SymbolTable) (name : String) (position : Position) (ty : Ty) :
    Adds t (Check.resolve name position ty) () [] [⟨name, position, ty⟩] :=
  fun _ ht hlimit => ⟨_, rfl, ht, hlimit, (List.append_nil _).symm, rfl⟩

namespace Settles

variable {P : α → List Diagnostic → List Resolution → Prop}
  {Q : β → List Diagnostic → List Resolution → Prop}

/-- A fault. -/
theorem fault (e : Fault) : Settles t (throw e) P :=
  .faults fun s _ _ => ⟨e, s, rfl⟩

/-- One step after another. -/
theorem bind (hx : x.Settles t P) (hf : ∀ a ds rs, x.Adds t a ds rs → P a ds rs →
    (f a).Settles t fun b ds' rs' => Q b (ds ++ ds') (rs ++ rs')) : (x >>= f).Settles t Q := by
  cases hx with
  | @adds a ds rs hadds hP =>
    cases hf a ds rs hadds hP with
    | adds hadds' hQ => exact .adds (hadds.bind hadds') hQ
    | faults hfaults =>
      refine .faults fun s ht hlimit => ?_
      obtain ⟨s₁, hrun, ht₁, hlimit₁, -⟩ := hadds s ht hlimit
      rw [bind_ok hrun f]
      exact hfaults s₁ ht₁ hlimit₁
  | faults hfaults =>
    refine .faults fun s ht hlimit => ?_
    obtain ⟨e, s₁, hrun⟩ := hfaults s ht hlimit
    exact ⟨e, s₁, bind_error hrun f⟩

/-- Taking a part of a construct, and going on with it. -/
theorem part {c : Clause} {i : Nat} {f : Phrase → Check β}
    (h : ∀ q, c.part? i = some q → (f q).Settles t Q) : (c.part i >>= f).Settles t Q := by
  unfold Clause.part
  cases hpart : c.part? i with
  | none => exact fault _
  | some q => exact h q hpart

/-- Reading something off the tree, and going on with it. -/
theorem lift {x : Except Fault α} (h : ∀ a, x = .ok a → (f a).Settles t Q) :
    ((liftM x : Check α) >>= f).Settles t Q := by
  cases hx : x with
  | error e => exact fault e
  | ok a => exact h a hx

/-- Reading the token of a leaf, and going on with it. -/
theorem leaf {n : Node} {f : Token → Check β}
    (h : ∀ token, n.token = some token → (f token).Settles t Q) :
    ((liftM n.leafToken : Check Token) >>= f).Settles t Q := by
  refine lift fun token htoken => h token ?_
  unfold Node.leafToken at htoken
  split at htoken <;> cases htoken
  assumption

/-- A step that starts with reading the table. -/
theorem symbols {k : SymbolTable → Check β} (hk : (k t).Settles t Q) :
    (Check.symbols >>= k).Settles t Q := by
  have hrun : ∀ s : Checker, s.symbols = t → (Check.symbols >>= k) s = k t s := by
    rintro s rfl
    rfl
  cases hk with
  | adds hadds hQ =>
    refine .adds (fun s ht hlimit => ?_) hQ
    rw [hrun s ht]
    exact hadds s ht hlimit
  | faults hfaults =>
    refine .faults fun s ht hlimit => ?_
    rw [hrun s ht]
    exact hfaults s ht hlimit

/-- A rejection is never quiet. -/
theorem reject (e : Problem) (position : Position)
    {P : Ty → List Diagnostic → List Resolution → Prop}
    (hP : ∀ ty ds rs, ds ≠ [] → P ty ds rs) : Settles t (Check.reject e position) P :=
  .adds ((Adds.report t e position).bind (.ret t Ty.unknown)) (hP _ _ _ (List.cons_ne_nil _ _))

/-- A use of a name is recorded with the type that was found. -/
theorem recorded (name : String) (position : Position) {x : Check Ty} {P : Ty → Prop}
    (hx : x.Settles t fun ty ds rs => ds = [] → rs = [] ∧ P ty) :
    Settles t (do let ty ← x; Check.resolve name position ty; return ty) fun ty ds rs =>
      ds = [] → P ty ∧ rs = [⟨name, position, ty⟩] := by
  refine hx.bind fun ty ds rs _ hP => ?_
  refine .adds ((Adds.resolve t name position ty).bind (.ret t ty)) fun hquiet => ?_
  obtain ⟨rfl, hty⟩ := hP (List.append_eq_nil_iff.mp hquiet).1
  exact ⟨hty, rfl⟩

/-- Looking up a name. -/
theorem resolveName (name : Token) :
    (CWithClasses.resolveName name).Settles t fun ty ds rs =>
      ds = [] → t.lookup? name.text = some ty ∧ rs = [⟨name.text, name.position, ty⟩] := by
  unfold CWithClasses.resolveName
  refine symbols ?_
  cases hfound : t.lookup? name.text with
  | some ty => exact recorded _ _ (.adds (.ret t ty) fun _ => ⟨rfl, rfl⟩)
  | none => exact recorded _ _ (reject _ _ fun _ _ _ hloud hquiet => absurd hquiet hloud)

/-- Looking up a member. -/
theorem resolveMember (c : ClassRef) (name : Token) :
    (Check.resolveMember c name).Settles t fun ty ds rs =>
      ds = [] → t.memberLookup c name.text (t.insideClass c) = .ok ty ∧
        rs = [⟨c.name ++ "::" ++ name.text, name.position, ty⟩] := by
  unfold Check.resolveMember
  refine symbols ?_
  cases hfound : t.memberLookup c name.text (t.insideClass c) with
  | ok ty => exact recorded _ _ (.adds (.ret t ty) fun _ => ⟨rfl, rfl⟩)
  | error e => exact recorded _ _ (reject _ _ fun _ _ _ hloud hquiet => absurd hquiet hloud)

end Settles

end Check

/-! ### Annotated expressions -/

/-- The type is that of an object of the class, or it leads to one. -/
def Ty.LeadsTo (ty : Ty) (arrow : Bool) (c : ClassRef) : Prop :=
  if arrow then ty.decay = .pointer (.object c) else ty = .object c

/-- A member is taken from a base of a class, unless nothing is known about the base. -/
theorem Clause.memberOf_cases (c : Clause) (base : Ty) (t : Token) :
    base.isUnknown = true ∧ c.memberOf base t = pure base ∨
      (∃ cls, base.LeadsTo (c.rule == .arrowField) cls ∧
        c.memberOf base t = resolveMember cls t) ∨
      ∃ expected received, c.memberOf base t = mismatch expected received c.position := by
  unfold Clause.memberOf Ty.LeadsTo
  split
  next hunknown => exact .inl ⟨hunknown, rfl⟩
  · split
    next harrow =>
      split
      next cls hdecay => exact .inr (.inl ⟨cls, by simpa [harrow] using hdecay, rfl⟩)
      next => exact .inr (.inr ⟨_, _, rfl⟩)
    next hdot =>
      split
      next cls _ => exact .inr (.inl ⟨cls, by simp [hdot], rfl⟩)
      next => exact .inr (.inr ⟨_, _, rfl⟩)

/-- The resolution tells what the state knows about a use of a name. For a member, the type of the
base is the one that it has in this state. -/
def Checker.Annotates (s : Checker) : Reference → Resolution → Prop
  | .name t, r => ∃ ty, s.symbols.lookup? t.text = some ty ∧ r = ⟨t.text, t.position, ty⟩
  | .member base arrow t, r => ∃ baseTy s₁ c ty, base.checkExpression s = .ok baseTy s₁ ∧
      baseTy.LeadsTo arrow c ∧
      s.symbols.memberLookup c t.text (s.symbols.insideClass c) = .ok ty ∧
      r = ⟨c.name ++ "::" ++ t.text, t.position, ty⟩

/-- If nothing is reported, the step records what the state knows about some uses of names. -/
abbrev Check.Refers {α : Type} (s : Checker) (refs : List Reference) (x : Check α) : Prop :=
  x.Settles s.symbols fun _ ds rs => ds = [] → List.Forall₂ s.Annotates refs rs

/-- As an expression, the phrase records the uses of names in it. -/
def Phrase.Refers (s : Checker) (p : Phrase) : Prop :=
  p.roles.expression.Refers s p.node.references

namespace Check.Refers

variable {α β : Type} {s : Checker} {refs refs' : List Reference} {x : Check α} {f : α → Check β}

/-- A result. -/
theorem ret (a : α) : Refers s [] (pure a : Check α) := .adds (.ret _ a) fun _ => .nil

/-- A report, after which nothing is asked any more. -/
theorem report (e : Problem) (position : Position) : Refers s refs (Check.report e position) :=
  .adds (.report _ e position) fun hquiet => by cases hquiet

/-- A verdict. -/
theorem verdict {x : Check Ty} (h : x.IsVerdict) : Refers s [] x := by
  cases h with
  | accept _ => exact ret _
  | reject e position => exact .reject e position fun _ _ _ hloud hquiet => absurd hquiet hloud
  | fault e => exact .fault e

/-- One step after another. -/
theorem seq (hx : x.Refers s refs) (hf : ∀ a, (f a).Refers s refs') :
    (x >>= f).Refers s (refs ++ refs') := by
  refine Settles.bind hx fun a ds rs _ hrefs => ?_
  cases hf a with
  | adds hadds hrefs' =>
    refine .adds hadds fun hquiet => ?_
    obtain ⟨hds, hds'⟩ := List.append_eq_nil_iff.mp hquiet
    exact List.rel_append (hrefs hds) (hrefs' hds')
  | faults hfaults => exact .faults hfaults

/-- A step that makes no use of names, after the others. -/
theorem last (hx : x.Refers s refs) (hf : ∀ a, (f a).Refers s []) : (x >>= f).Refers s refs := by
  have hseq := seq hx hf
  rwa [List.append_nil] at hseq

/-- A step that makes no use of names, before the others. -/
theorem first (hx : x.Refers s []) (hf : ∀ a, (f a).Refers s refs) : (x >>= f).Refers s refs :=
  seq hx hf

/-- A step that only looks. -/
theorem looks (hx : x.Looks False) : x.Refers s [] := by
  induction hx with
  | ret a => exact ret a
  | bind _ _ ihx ihf => exact first ihx ihf
  | symbols => exact Settles.symbols (k := pure) (ret _)
  | report position => exact report _ position
  | fault _ h => exact h.elim
  | resolve _ _ _ h => exact h.elim

/-- A step for each item of a list. -/
theorem mapM {γ : Type} {items : List γ} {uses : γ → List Reference} {f : γ → Check α}
    (hf : ∀ item ∈ items, (f item).Refers s (uses item)) :
    (items.mapM f).Refers s (items.flatMap uses) := by
  induction items with
  | nil =>
    rw [List.mapM_nil]
    exact ret _
  | cons item rest ih =>
    rw [List.mapM_cons, List.flatMap_cons]
    refine seq (hf item List.mem_cons_self) fun a => ?_
    exact last (ih fun other hother => hf other (List.mem_cons_of_mem _ hother)) fun _ => ret _

/-- A step for each item of a list, of which the last one counts. -/
theorem foldlM {γ : Type} {items : List γ} {uses : γ → List Reference} {f : γ → Check α} (a : α)
    (hf : ∀ item ∈ items, (f item).Refers s (uses item)) :
    (items.foldlM (fun _ item => f item) a).Refers s (items.flatMap uses) := by
  induction items generalizing a with
  | nil => exact ret a
  | cons item rest ih =>
    rw [List.foldlM_cons, List.flatMap_cons]
    refine seq (hf item List.mem_cons_self) fun b => ?_
    exact ih b fun other hother => hf other (List.mem_cons_of_mem _ hother)

end Check.Refers

namespace Node

variable {s : Checker} {n : Node}

open Check.Refers

/-- The expression in a slot. -/
theorem refers_part {i : Nat} {q : Phrase} (hparts : n.clause.Throughout (Phrase.Refers s))
    (hq : n.clause.part? i = some q) : q.roles.expression.Refers s (n.referencesAt i) := by
  have hself := (hparts i q hq).self
  obtain ⟨m, hm, rfl⟩ := n.child_of_part? hq
  have hrefs : n.referencesAt i = m.phrase.node.references := by
    rw [m.phrase_node, referencesAt, hm]
    rfl
  rw [hrefs]
  exact hself

/-- An operand is checked before what follows. -/
theorem refers_operand {α : Type} {refs : List Reference} {f : Phrase → Ty → Check α} {i : Nat}
    (hparts : n.clause.Throughout (Phrase.Refers s)) (hf : ∀ q ty, (f q ty).Refers s refs) :
    (do let q ← n.clause.part i; f q (← q.roles.expression)).Refers s
      (n.referencesAt i ++ refs) :=
  .part fun q hq => seq (refers_part hparts hq) (hf q)

/-- The arguments of a call. -/
theorem refers_arguments {i : Nat} (hparts : n.clause.Throughout (Phrase.Refers s)) :
    (checkArguments (n.clause.part? i)).Refers s (n.referencesAt i) := by
  have hitems : n.referencesAt i =
      (Phrase.flatten? (n.clause.part? i)).flatMap fun q => q.node.references := by
    rw [n.clause_part?, referencesAt]
    cases n.child? i with
    | none => rfl
    | some m =>
      change m.references = m.phrase.flatten.flatMap _
      rw [phrase_flatten, List.flatMap_map, references_flatten]
      exact List.flatMap_congr fun k _ => by rw [k.phrase_node]
  rw [hitems]
  refine mapM fun q hq => ?_
  exact last (Phrase.throughout_flatten? (hparts i) q hq).self fun ty => ret _

/-- A leaf that is no constant is a name, and its use is recorded. -/
theorem refers_leaf (hrule : n.rule = .token) : n.clause.leaf.Refers s n.references := by
  rw [references_of_operands hrule [] ⟨rfl, rfl⟩]
  unfold Clause.leaf
  refine .leaf fun t ht => ?_
  change n.token = some t at ht
  have hown : n.ownReference = if t.constantTy?.isNone then [.name t] else [] := by
    unfold ownReference
    rw [hrule, ht]
  rw [hown]
  cases t.constantTy? with
  | some ty => exact ret ty
  | none =>
    change Refers s [.name t] (if t.kind.isName then resolveName t else n.clause.unexpected _)
    split
    · cases Settles.resolveName (t := s.symbols) t with
      | adds hadds hfound =>
        refine .adds hadds fun hquiet => ?_
        obtain ⟨hty, rfl⟩ := hfound hquiet
        exact .cons ⟨_, hty, rfl⟩ .nil
      | faults hfaults => exact .faults hfaults
    · exact .fault _

/-- A type that an expression has without any report is known if all types of the table are. -/
theorem known_of_adds {t : SymbolTable} {ty : Ty} {rs : List Resolution} (ht : t.Known)
    (h : n.checkExpression.Adds t ty [] rs) : ty.Known := by
  obtain ⟨s₁, hrun, -, -, hdiagnostics, -⟩ := h { symbols := t } rfl rfl
  have hexplains : n.checkExpression.Explains Ty.Known :=
    (knownLogic.toStepLogic.sound .expression n (.inl trivial) True).2 trivial
  have hstart : Checker.Known { symbols := t } := ⟨ht, fun r hr => by cases hr⟩
  exact (hexplains _ ty s₁ hrun (by simp) hdiagnostics hstart).2

/-- A member access. -/
theorem refers_memberAccess (hs : s.symbols.Known) (hlimit : s.limit = none)
    (hparts : n.clause.Throughout (Phrase.Refers s))
    (hrule : n.rule = .dotField ∨ n.rule = .arrowField) :
    n.clause.memberAccess.Refers s n.references := by
  have hrefs : n.references = n.referencesAt 0 ++ n.ownReference := by
    rcases hrule with h | h <;> simp [references_of_operands h [0] ⟨rfl, rfl⟩]
  rw [hrefs]
  unfold Clause.memberAccess
  refine .part fun q hq => ?_
  refine Settles.bind (refers_part hparts hq) fun ty ds rs hadds hoperand => ?_
  obtain ⟨base, hbase, rfl⟩ := n.child_of_part? hq
  refine .part fun k hk => ?_
  obtain ⟨member, hmember, rfl⟩ := n.child_of_part? hk
  refine .leaf fun t ht => ?_
  rw [member.phrase_node] at ht
  have hown : n.ownReference = [.member base (n.rule == .arrowField) t] := by
    unfold ownReference
    rcases hrule with h | h <;> rw [h, hbase, hmember, Option.bind_some, ht]
  rw [hown]
  obtain ⟨hunknown, heq⟩ | ⟨cls, hcls, heq⟩ | ⟨_, _, heq⟩ := n.clause.memberOf_cases ty t
  · rw [heq]
    refine .adds (.ret _ ty) fun hquiet => ?_
    rw [List.append_nil] at hquiet
    subst hquiet
    rw [(known_of_adds hs hadds).isUnknown_eq] at hunknown
    cases hunknown
  · rw [heq]
    cases Settles.resolveMember (t := s.symbols) cls t with
    | adds hadds' hfound =>
      refine .adds hadds' fun hquiet => ?_
      obtain ⟨rfl, rfl⟩ := List.append_eq_nil_iff.mp hquiet
      obtain ⟨hty, rfl⟩ := hfound rfl
      obtain ⟨s₁, hrun, -⟩ := hadds s rfl hlimit
      exact List.rel_append (hoperand rfl) (.cons ⟨ty, s₁, cls, _, hrun, hcls, hty, rfl⟩ .nil)
    | faults hfaults => exact .faults hfaults
  · rw [heq]
    refine .reject _ _ fun _ ds' _ hloud hquiet => ?_
    exact absurd (List.append_eq_nil_iff.mp hquiet).2 hloud

section Productions

variable (hparts : n.clause.Throughout (Phrase.Refers s))

include hparts

/-- One operand. -/
theorem refers_one {f : Ty → Check Ty} (hrefs : n.references = [0].flatMap n.referencesAt)
    (hf : ∀ ty, (f ty).IsVerdict) :
    (do f (← (← n.clause.part 0).roles.expression)).Refers s n.references := by
  rw [hrefs]
  exact refers_operand hparts fun _ ty => verdict (hf ty)

/-- Two operands. -/
theorem refers_two {f : Ty → Ty → Check Ty} (hrefs : n.references = [0, 1].flatMap n.referencesAt)
    (hf : ∀ lhs rhs, (f lhs rhs).IsVerdict) :
    (do
      let lhs ← (← n.clause.part 0).roles.expression
      let rhs ← (← n.clause.part 1).roles.expression
      f lhs rhs).Refers s n.references := by
  rw [hrefs]
  exact refers_operand hparts fun _ lhs => refers_operand hparts fun _ rhs => verdict (hf lhs rhs)

/-- An element of an array. -/
theorem refers_index (hrefs : n.references = [0, 1].flatMap n.referencesAt) :
    n.clause.index.Refers s n.references := by
  rw [hrefs]
  unfold Clause.index
  refine refers_operand hparts fun _ base => ?_
  refine refers_operand hparts fun i ty => ?_
  exact last (looks (.checkIntegral ty i.position)) fun _ => verdict (.indexType _ False.elim)

/-- A call. -/
theorem refers_call (hrefs : n.references = [0, 1].flatMap n.referencesAt) :
    n.clause.call.Refers s n.references := by
  rw [hrefs]
  unfold Clause.call
  refine refers_operand hparts fun _ callee => ?_
  exact seq (refers_arguments hparts) fun arguments => looks (.callOf _ callee arguments)

/-- A conditional expression. -/
theorem refers_conditional (hrefs : n.references = [0, 1, 2].flatMap n.referencesAt) :
    n.clause.conditional.Refers s n.references := by
  rw [hrefs]
  unfold Clause.conditional
  refine refers_operand hparts fun test condition => ?_
  refine first (looks (.checkTruth condition test.position)) fun _ => ?_
  refine refers_operand hparts fun _ yes => ?_
  exact refers_operand hparts fun _ no => verdict (.branches False.elim False.elim _)

/-- An assignment. -/
theorem refers_assignment (hrefs : n.references = [0, 2].flatMap n.referencesAt) :
    n.clause.assignment.Refers s n.references := by
  rw [hrefs]
  unfold Clause.assignment
  refine refers_operand hparts fun target lhs => ?_
  refine .part fun q _ => ?_
  refine .leaf fun operator _ => ?_
  exact refers_operand hparts fun value rhs =>
    verdict (.assign _ _ _ rhs False.elim fun _ => trivial)

/-- Two expressions, of which the second one counts. -/
theorem refers_comma (hrefs : n.references = [0, 1].flatMap n.referencesAt) :
    n.clause.comma.Refers s n.references := by
  rw [hrefs]
  unfold Clause.comma
  refine refers_operand hparts fun _ _ => ?_
  rw [List.map_singleton, List.flatten_singleton]
  exact .part fun q hq => refers_part hparts hq

/-- A list of expressions. -/
theorem refers_list (hlist : n.rule.isList = true) :
    (n.clause.items.foldlM (fun _ (item : Phrase) => item.roles.expression) Ty.void).Refers s
      n.references := by
  have hitems : n.references = n.clause.items.flatMap fun q => q.node.references := by
    rw [references_items hlist, n.clause_items, List.flatMap_map]
    exact List.flatMap_congr fun k _ => by rw [k.phrase_node]
  rw [hitems]
  exact foldlM Ty.void fun q hq => (hparts.items q hq).self

/-- An expression that names no type records the uses of names in it, if its parts do. -/
theorem refers_expression (hs : s.symbols.Known) (hlimit : s.limit = none)
    (hplain : n.rule.namesType = false) : n.clause.expression.Refers s n.references := by
  have hnames : ∀ rule : Rule, n.clause.rule = rule → rule.namesType = false :=
    fun rule hrule => hrule ▸ hplain
  have hslots : ∀ {rule : Rule} (slots : List Nat), n.clause.rule = rule →
      rule.isList = false ∧ rule.refers = false ∧ rule.operands = slots →
      n.references = slots.flatMap n.referencesAt := fun slots hrule h =>
    references_of_slots hrule slots h
  unfold Clause.expression
  split
  next hrule =>
    rw [hslots [] hrule ⟨rfl, rfl, rfl⟩]
    unfold Clause.literal
    refine .lift fun t _ => ?_
    split
    · exact ret _
    · exact .fault _
  next hrule => exact refers_leaf hrule
  next hrule => cases hnames _ hrule
  next hrule => exact refers_index hparts (hslots _ hrule ⟨rfl, rfl, rfl⟩)
  next hrule => exact refers_call hparts (hslots _ hrule ⟨rfl, rfl, rfl⟩)
  next hrule => cases hnames _ hrule
  next hrule => exact refers_memberAccess hs hlimit hparts (.inl hrule)
  next hrule => exact refers_memberAccess hs hlimit hparts (.inr hrule)
  iterate 4
    next hrule =>
      exact refers_one hparts (hslots _ hrule ⟨rfl, rfl, rfl⟩) fun _ => .stepType _ False.elim
  next hrule => cases hnames _ hrule
  iterate 7
    next hrule =>
      exact refers_one hparts (hslots _ hrule ⟨rfl, rfl, rfl⟩) fun _ => .unaryType _ _ False.elim
  next hrule => cases hnames _ hrule
  iterate 2
    next hrule =>
      exact refers_one hparts (hslots _ hrule ⟨rfl, rfl, rfl⟩) fun ty => .deleteOf _ ty
  iterate 2
    next hrule =>
      exact refers_two hparts (hslots _ hrule ⟨rfl, rfl, rfl⟩) fun _ _ => .reject _ _ rfl
  next hrule => exact refers_conditional hparts (hslots _ hrule ⟨rfl, rfl, rfl⟩)
  next hrule => exact refers_assignment hparts (hslots _ hrule ⟨rfl, rfl, rfl⟩)
  next hrule => exact refers_comma hparts (hslots _ hrule ⟨rfl, rfl, rfl⟩)
  next hrule =>
    refine refers_list hparts ?_
    change n.clause.rule.isList = true
    rw [hrule]
    rfl
  next =>
    split
    next kind hkind =>
      exact refers_two hparts (hslots _ rfl (Rule.operands_of_binary hkind))
        fun _ _ => .binaryType _ False.elim False.elim kind _
    next => exact .fault _

end Productions

/-- If an expression that names no type is checked without a limit and without a report, in a table
all of whose types are known, the table stays as it is, and what is recorded are the uses of names
in the expression, from left to right and once each. A name is recorded with its own type, and a
member with its class and the type that it has there. -/
theorem checkExpression_annotates {ty : Ty} {s' : Checker} (hs : s.symbols.Known)
    (hlimit : s.limit = none) (hplain : ∀ m ∈ n.subtrees, m.rule.namesType = false)
    (hrun : n.checkExpression s = .ok ty s') (hquiet : s'.diagnostics = s.diagnostics) :
    s'.symbols = s.symbols ∧
      ∃ rs, s'.resolutions = s.resolutions ++ rs ∧ List.Forall₂ s.Annotates n.references rs := by
  have hphrase : n.phrase.Throughout (Phrase.Refers s) := by
    refine throughout_phrase fun m hm hparts => ?_
    unfold Phrase.Refers
    rw [m.phrase_node, m.phrase_roles_eq]
    exact refers_expression hparts hs hlimit (hplain m hm)
  have hself : n.checkExpression.Refers s n.phrase.node.references := hphrase.self
  rw [n.phrase_node] at hself
  cases hself with
  | @adds a ds rs hadds hrefs =>
    obtain ⟨s₁, hrun₁, hsymbols, -, hdiagnostics, hresolutions⟩ := hadds s rfl hlimit
    rw [hrun] at hrun₁
    cases hrun₁
    rw [hquiet] at hdiagnostics
    exact ⟨hsymbols, rs, hresolutions, hrefs (List.self_eq_append_right.mp hdiagnostics)⟩
  | faults hfaults =>
    obtain ⟨e, s₁, hfault⟩ := hfaults s rfl hlimit
    rw [hrun] at hfault
    cases hfault

end Node

/-- The expression `p->next.n = f(n, 1)`. -/
def linkingExpression : Node :=
  let next := tree .arrowField [word .identifier "p", word .identifier "next"]
  let target := tree .dotField [next, word .identifier "n"]
  let arguments := tree .exprList [word .identifier "n", word .intConst "1"]
  let value := tree .call [word .identifier "f", arguments]
  { rule := .assignment, children := [target, word .assign "=", value] }

/-- Two classes, of which the first one has a member of the second one, and three names. -/
def linkingTable : SymbolTable :=
  let link : ClassRef := ⟨0, "Link"⟩
  let cell : ClassRef := ⟨1, "Cell"⟩
  { current :=
      { kind := .global
        bindings := [("p", .pointer (.object link)), ("n", .int),
          ("f", .function 0 .int [.int, .int] 2)] }
    classes := #[{ publicMembers := [("next", .object cell)] },
      { publicMembers := [("n", .int)] }] }

/-- The assignment makes five uses of names, two of which are members. -/
theorem Node.checkExpression_linkingExpression :
    ∃ ty s', linkingExpression.checkExpression { symbols := linkingTable } = .ok ty s' ∧
      s'.diagnostics = [] ∧
      s'.resolutions.map Resolution.name = ["p", "Link::next", "Cell::n", "f", "n"] ∧
      s'.symbols = linkingTable ∧ ∃ rs, s'.resolutions = [] ++ rs ∧
        List.Forall₂ (Checker.Annotates { symbols := linkingTable })
          linkingExpression.references rs := by
  have hknown : linkingTable.Known := by
    refine ⟨fun f hf => ?_, fun b hb => ?_, fun f hf => ?_⟩
    · obtain rfl := List.mem_singleton.mp hf
      simp only [linkingTable, Bindings.Known, List.forall_mem_cons]
      simp
    · have hcases : b = { publicMembers := [("next", .object ⟨1, "Cell"⟩)] } ∨
          b = { publicMembers := [("n", .int)] } := by simpa [linkingTable] using hb
      rcases hcases with rfl | rfl <;> rintro (_ | _) <;> simp [ClassBody.table, Bindings.Known]
    · simp [linkingTable] at hf
  have hplain : ∀ m ∈ linkingExpression.subtrees, m.rule.namesType = false := by decide
  obtain ⟨s', hrun, hquiet, hnames⟩ : ∃ s', linkingExpression.checkExpression
      { symbols := linkingTable } = .ok .int s' ∧ s'.diagnostics = [] ∧
      s'.resolutions.map Resolution.name = ["p", "Link::next", "Cell::n", "f", "n"] :=
    ⟨_, rfl, rfl, rfl⟩
  exact ⟨.int, s', hrun, hquiet, hnames,
    checkExpression_annotates hknown rfl hplain hrun hquiet⟩

end CWithClasses
