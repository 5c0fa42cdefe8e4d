import CWithClasses.Proofs.Logic.Tally

/-!
# Whole trees do what they weigh

In every tally, checking a tree that fits a class does what the tree weighs. The functions of a
class body are declared first, and what they weigh is owed until their bodies are checked.

The proof goes by induction on the size of a tree. Each slot that leads to statements has the place
that the table of slots gives it, and for the parts in all other slots the logic of the steps
without weight is enough.
-/

namespace CWithClasses

open Check

/-! ### Bodies and members -/

/-- The body that a definition leaves is that of a function, and consists of its parts. -/
theorem Clause.declareFunctionDef_parts (c : Clause) :
    c.declareFunctionDef.Yields fun b => b.ty.function?.isSome ∧ c.part? 2 = some b.body ∧
      ∀ init, b.ctorInit = some init → c.rule = .constructorDef ∧ c.part? 1 = some init := by
  have hparts : c.functionParts.Yields fun parts => c.part? 2 = some parts.2.2.2 ∧
      ∀ init, parts.2.2.1 = some init → c.rule = .constructorDef ∧ c.part? 1 = some init := by
    unfold Clause.functionParts
    split
    next =>
      refine Yields.next fun d => ?_
      exact (Yields.part c 2).bind fun b hb => .ret ⟨hb, nofun⟩
    next hrule =>
      refine Yields.next fun d => ?_
      refine (Yields.part c 1).bind fun i hi => ?_
      refine (Yields.part c 2).bind fun b hb => .ret ⟨hb, fun init hinit => ?_⟩
      cases hinit
      exact ⟨hrule, hi⟩
    next => exact .fault _
  refine (StepLogic.yields_declareFunctionDef hparts).mono ?_
  rintro b ⟨hfunction, _, _, hbody, hinit⟩
  exact ⟨hfunction, hbody, hinit⟩

/-- The links of a chain are its first one and those of the chain behind it. -/
theorem Phrase.memberLinks_eq (q : Phrase) :
    q.memberLinks = q :: if q.rule = .memberSpec ∨ q.rule = .accessSpec then
      (match q.part? 1 with
      | some next => next.memberLinks
      | none => []) else [] := by
  obtain ⟨node, parts, roles⟩ := q
  conv_lhs => unfold memberLinks
  split
  next first next rest => rfl
  next hparts =>
    have hempty : (⟨node, parts, roles⟩ : Phrase).part? 1 = none := by
      rcases parts with _ | ⟨first, _ | ⟨_ | next, rest⟩⟩
      · rfl
      · rfl
      · rfl
      · exact (hparts first next rest rfl).elim
    rw [hempty]
    split <;> rfl

/-- Reading a chain of members means to read its first link, and then the others. -/
theorem Phrase.members_some (q : Phrase) :
    Phrase.members (some q) = (do
      let first ← q.memberLink
      let rest ← Phrase.members
        (if q.rule = .memberSpec ∨ q.rule = .accessSpec then q.part? 1 else none)
      return first ++ rest) := by
  rw [Phrase.members, q.memberLinks_eq, List.mapM_cons]
  split
  next =>
    cases q.part? 1 with
    | none => simp [Phrase.members]
    | some next => simp [Phrase.members]
  next => simp [Phrase.members]

namespace Tally

variable {W : Type} [AddCommMonoid W] (T : Tally W) {w v : W}

/-- What is owed until the body of a function has been checked. -/
def owed (b : FunctionBody) : W := T.function (T.bodyWeight b.body.node)

/-- The step leaves bodies to be checked, which owe what they weigh. -/
structure Leaves (w : W) (x : Check (List FunctionBody)) : Prop where
  does : T.does w x fun bodies => (bodies.map T.owed).sum
  bodies : x.Yields fun bodies => ∀ b ∈ bodies, T.does (T.owed b) b.check fun _ => 0

namespace Leaves

variable {T} {x y : Check (List FunctionBody)}

/-- Nothing is left, and nothing is owed. -/
theorem nil : T.Leaves 0 (pure []) where
  does := T.ret [] fun bodies => (bodies.map T.owed).sum
  bodies := .ret fun b hb => by cases hb

/-- A step that leaves no bodies. -/
theorem none {x : Check Unit} (hx : T.does w x fun _ => 0) :
    T.Leaves w (do x; return []) where
  does := by
    have h := T.bind hx fun _ => (nil (T := T)).does
    rwa [add_zero] at h
  bodies := Yields.next fun _ => nil.bodies

/-- A fault leaves nothing. -/
theorem fault (h : x.Yields fun _ => False) : T.Leaves w x where
  does := T.never w _ h
  bodies := h.mono fun _ h => h.elim

/-- Taking a part of a tree, and going on with it. -/
theorem part {n : Node} {i : Nat} {f : Phrase → Check (List FunctionBody)}
    (h : ∀ m, n.child? i = some m → T.Leaves w (f m.phrase)) :
    T.Leaves w (n.clause.part i >>= f) where
  does := T.part fun m hm => (h m hm).does
  bodies := by
    refine (Yields.part n.clause i).bind fun q hq => ?_
    obtain ⟨m, hm, rfl⟩ := n.child_of_part? hq
    exact (h m hm).bodies

/-- Reading something off a tree, and going on with it. -/
theorem lift {α : Type} {e : Except Fault α} {f : α → Check (List FunctionBody)}
    (h : ∀ a, T.Leaves w (f a)) : T.Leaves w ((liftM e : Check α) >>= f) where
  does := T.lift fun a => (h a).does
  bodies := Yields.next fun a => (h a).bodies

/-- Two steps leave what each of them leaves. -/
theorem append (hx : T.Leaves w x) (hy : T.Leaves v y) :
    T.Leaves (w + v) (do
      let first ← x
      let rest ← y
      return first ++ rest) where
  does := by
    refine T.seq hx.bodies hx.does fun first _ => ?_
    refine T.seq hy.bodies hy.does fun rest _ => ?_
    have hboth : (first.map T.owed).sum + (rest.map T.owed).sum =
        ((first ++ rest).map T.owed).sum := by
      rw [List.map_append, List.sum_append]
    rw [hboth]
    exact T.ret (first ++ rest) fun bodies => (bodies.map T.owed).sum
  bodies := by
    refine hx.bodies.bind fun first hfirst => ?_
    refine hy.bodies.bind fun rest hrest => .ret fun b hb => ?_
    rcases List.mem_append.mp hb with h | h
    · exact hfirst b h
    · exact hrest b h

end Leaves

/-! ### The roles of trees -/

/-- What checking a tree does in the role of its class. -/
def Means : Nonterminal → Node → Prop
  | .declaration, n => T.does (T.weight n) n.phrase.roles.declaration fun _ => 0
  | .statement, n => T.does (T.weight n) n.phrase.roles.statement fun _ => 0
  | .functionBody, n => T.does (T.bodyWeight n) n.phrase.functionBlock fun _ => 0
  | .expression, n => T.does (T.weight n) n.phrase.roles.expression fun _ => 0
  | .specifier, n => T.does (T.weight n) n.phrase.roles.specifier fun _ => 0
  | .memberSpec, n => T.Leaves (T.parts n) (Phrase.members (some n.phrase))
  | .memberDeclaration, n => T.Leaves (T.parts n) n.phrase.memberDeclaration
  | _, _ => True

/-- All smaller trees do what they weigh. -/
def Below (n : Node) : Prop := ∀ m, sizeOf m < sizeOf n → ∀ τ, T.Fits τ m → T.Means τ m

namespace Fits

variable {T} {σ τ : Nonterminal} {m n item : Node} {rule : Rule} {i : Nat} {optional : Bool}

/-- What is in a slot for a single tree. -/
theorem child (hf : T.Fits σ n) (hrule : n.rule = rule) (hm : n.child? i = some m)
    (τ : Nonterminal) (hslot : HasSlot σ rule i ⟨τ, false, optional⟩) : T.Fits τ m := by
  subst hrule
  exact hf.filled hslot hm (List.mem_singleton.mpr rfl)

/-- What is in a slot for a list. -/
theorem listed (hf : T.Fits σ n) (hrule : n.rule = rule) (hm : n.child? i = some m)
    (τ : Nonterminal) (hslot : HasSlot σ rule i ⟨τ, true, optional⟩) :
    ∀ item ∈ m.flatten, T.Fits τ item := by
  subst hrule
  exact fun _ hitem => hf.filled hslot hm hitem

/-- Trees of inner classes are sound in the logic of steps without weight. -/
theorem sound (hf : T.Fits τ n) (hτ : τ.isInner = true ∧ τ ≠ .specifier) :
    T.logic.toStepLogic.Means τ n.phrase :=
  T.logic.toStepLogic.sound_of_fits τ n (hf.inner hτ.1 hτ.2)

/-- The phrases in a slot for a list of an inner class. -/
theorem each (hf : T.Fits σ n) (hrule : n.rule = rule) (τ : Nonterminal)
    (hslot : HasSlot σ rule i ⟨τ, true, optional⟩) (hτ : τ.isInner = true ∧ τ ≠ .specifier) :
    ∀ q, n.clause.part? i = some q → q.Each (T.logic.toStepLogic.Means τ) := by
  intro q hq r hr
  obtain ⟨m, hm, rfl⟩ := n.child_of_part? hq
  rw [m.phrase_flatten, List.mem_map] at hr
  obtain ⟨item, hitem, rfl⟩ := hr
  exact (hf.listed hrule hm τ hslot item hitem).sound hτ

/-- A condition has no weight. -/
theorem condition (hf : T.Fits .statement n) (hrule : n.rule = rule) (hm : n.child? i = some m)
    (kind : ConditionKind)
    (hslot : HasSlot .statement rule i ⟨.condition, false, optional⟩) :
    T.logic.holds (m.phrase.condition kind) := by
  have hsound : T.logic.toStepLogic.Condition m.phrase :=
    (hf.child hrule hm .condition hslot).sound (by decide)
  exact hsound True kind

end Fits

namespace Below

variable {T} {σ : Nonterminal} {m n : Node} {rule : Rule} {i : Nat} {optional : Bool}
  (ih : T.Below n)

include ih

/-! ### Slots -/

/-- What is in a slot for a single tree. -/
theorem child (hf : T.Fits σ n) (hrule : n.rule = rule) (hm : n.child? i = some m)
    (τ : Nonterminal) (hslot : HasSlot σ rule i ⟨τ, false, optional⟩) : T.Means τ m :=
  ih m (Node.sizeOf_child hm) τ (hf.child hrule hm τ hslot)

/-- What is in a slot for a list. -/
theorem listed (hf : T.Fits σ n) (hrule : n.rule = rule) (hm : n.child? i = some m)
    (τ : Nonterminal) (hslot : HasSlot σ rule i ⟨τ, true, optional⟩) :
    ∀ item ∈ m.flatten, T.Means τ item := by
  intro item hitem
  have hslotItem : item ∈ Slot.items ⟨τ, true, optional⟩ m := hitem
  have hlt : sizeOf item < sizeOf n :=
    Nat.lt_of_le_of_lt (Node.sizeOf_slotItems hslotItem) (Node.sizeOf_child hm)
  exact ih item hlt τ (hf.listed hrule hm τ hslot item hitem)

/-- The specifiers in a slot that may be empty. -/
theorem checkSpecifiers (hf : T.Fits σ n) (hrule : n.rule = rule)
    (hslot : HasSlot σ rule i ⟨.specifier, true, optional⟩) :
    T.does (T.inSlot (some .same) (n.child? i)) (checkSpecifiers? (n.clause.part? i))
      fun _ => 0 := by
  rw [n.clause_part?]
  exact T.checkSpecifiers fun m hm => ih.listed hf hrule hm .specifier hslot

/-- A statement in a slot that may be empty. -/
theorem checkStatement (hf : T.Fits .statement n) (hrule : n.rule = rule)
    (hslot : HasSlot .statement rule i ⟨.statement, false, optional⟩) :
    T.does (T.inSlot (some .same) (n.child? i)) (checkStatement? (n.clause.part? i))
      fun _ => 0 := by
  rw [n.clause_part?]
  exact T.checkStatement fun m hm => ih.child hf hrule hm .statement hslot

/-! ### Expressions and specifiers -/

/-- An expression. Only a list of expressions could have a weight. -/
theorem expression (hf : T.Fits .expression n) : T.Means .expression n := by
  have hsound : T.logic.toStepLogic.Expression n.phrase := hf.sound (by decide)
  have hplain : n.rule.isPlain = true →
      T.does (T.weight n) n.clause.expression fun _ => 0 := by
    intro hrule
    rw [T.weight_eq_zero hrule]
    have hstep := hsound True
    rw [n.phrase_roles_eq] at hstep
    exact T.zero hstep
  change T.does (T.weight n) n.phrase.roles.expression fun _ => 0
  rw [n.phrase_roles_eq]
  obtain ⟨rule, children, token⟩ := n
  cases rule with
  | exprList =>
    rw [T.weight_items rfl]
    change T.does _ ((Node.clause _).items.foldlM (fun _ item => item.roles.expression) Ty.void) _
    rw [Node.clause_items]
    refine T.foldlM_phrase (fun _ m hm => ?_) Ty.void
    exact ih m (Node.sizeOf_items hm) .expression (hf.items rfl rfl (by simp) hm)
  | _ => first | exact hplain rfl | exact T.unexpected _ _ _

/-- The members of a class, and then the bodies of its functions. -/
theorem classBody (hf : T.Fits .specifier n) (hrule : n.rule = .classSpec) (cls : ClassRef)
    (access : Access) :
    T.does (T.weight n) (Check.inClass cls access do
      let bodies ← Phrase.members (n.clause.part? 1)
      modifySymbols (·.markComplete cls)
      bodies.forM FunctionBody.check) fun _ => 0 := by
  have hweight : T.weight n = T.inSlot (some .members) (n.child? 1) := by
    rw [T.weight_eq_parts (by rw [hrule]; rfl), T.parts_of_place hrule 1 .members ⟨rfl, rfl⟩]
  rw [hweight, n.clause_part?]
  cases hchild : n.child? 1 with
  | none =>
    have hcomplete := T.logic.bind (T.logic.markComplete cls) fun _ => T.logic.ret ()
    exact T.zero (T.logic.inClass cls access hcomplete)
  | some m =>
    have hmembers : T.Means .memberSpec m :=
      ih.child hf hrule hchild .memberSpec ⟨rfl, rfl⟩
    refine T.inClass cls access ?_
    rw [← add_zero (T.parts m)]
    refine T.seq hmembers.bodies hmembers.does fun bodies hbodies => ?_
    rw [zero_add]
    exact T.next (T.logic.markComplete cls) fun _ => T.forM hbodies

/-- A class specification. -/
theorem classSpec (hf : T.Fits .specifier n) (hrule : n.rule = .classSpec) :
    T.does (T.weight n) n.clause.classSpec fun _ => 0 := by
  unfold Clause.classSpec
  refine T.part fun head hhead => ?_
  have hsound : T.logic.toStepLogic.ClassHead head.phrase :=
    (hf.child hrule hhead .classHead ⟨rfl, rfl⟩).sound (by decide)
  unfold Phrase.part
  rw [head.phrase_clause]
  refine T.part fun r _ => T.lift fun key => ?_
  split
  next => exact T.never _ _ (.fault _)
  next =>
    have hopen : T.logic.holds head.phrase.classHead :=
      T.logic.toStepLogic.classHead (p := True) hsound.named hsound.other
    refine T.next hopen fun cls => ?_
    have hrest : ∀ _ : Unit, T.logic.holds (do
        let body := (← Check.symbols).classBody cls
        Check.log (.definedClass (.object cls) body.publicMembers.length
          body.privateMembers.length)
        return Ty.object cls) := fun _ =>
      T.logic.bind T.logic.symbols fun _ => T.logic.bind (T.logic.log _) fun _ => T.logic.ret _
    have h := T.before (ih.classBody hf hrule cls key.kind.defaultAccess) hrest
    simp only [Check.inClass, bind_assoc, pure_bind] at h
    exact h

/-- A single specifier. Only class specifications have a weight. -/
theorem specifier (hf : T.Fits .specifier n) : T.Means .specifier n := by
  have hplain : n.rule.isPlain = true → n.rule ≠ .classSpec → n.rule.isList = false →
      T.does (T.weight n) n.clause.specifier fun _ => 0 := by
    intro hplain hrule hlist
    have hfits : T.logic.toStepLogic.Fits .specifier n := by
      refine ⟨.inl trivial, hf.imp_right fun ⟨hconforms, hplaced⟩ => ⟨rfl, hconforms, ?_⟩⟩
      exact Node.classesPlaced_of_specifier (by simpa using hplaced) hrule hlist
    have hstep := T.logic.toStepLogic.sound_of_fits .specifier n hfits True
    rw [n.phrase_roles_eq] at hstep
    rw [T.weight_eq_zero hplain]
    exact T.zero hstep
  have hclass : n.rule = .classSpec → T.does (T.weight n) (do
      let ty ← n.clause.classSpec
      return some ty) fun _ => 0 := fun hrule =>
    T.before (ih.classSpec hf hrule) fun _ => T.logic.ret _
  change T.does (T.weight n) n.phrase.roles.specifier fun _ => 0
  rw [n.phrase_roles_eq]
  obtain ⟨rule, children, token⟩ := n
  cases rule with
  | classSpec => exact hclass rfl
  | _ => first | exact hplain rfl nofun rfl | exact T.unexpected _ _ _

/-! ### Declarations -/

/-- A declaration. Its declarators have no weight. -/
theorem simpleDeclaration (hf : T.Fits .declaration n) (hrule : n.rule = .simpleDecl) :
    T.does (T.parts n) n.clause.simpleDeclaration fun _ => 0 := by
  have hparts := T.parts_of_place hrule 0 .same ⟨rfl, rfl⟩
  have hitems := hf.each (i := 1) hrule .initDeclarator ⟨rfl, rfl⟩ (by decide)
  rw [hparts]
  unfold Clause.simpleDeclaration
  refine T.part fun m hm => ?_
  rw [hm]
  have hspecifiers := ih.listed hf hrule hm .specifier ⟨rfl, rfl⟩
  refine T.before (T.specifiers hspecifiers) fun base => ?_
  exact T.logic.rules.forM (p := False) fun item hitem =>
    Phrase.Each.of_mem hitems hitem False base False.elim

/-- The slots of a function definition: its specifiers may have a weight, and so may its body. -/
theorem functionParts (hf : T.Fits .declaration n)
    (hrule : n.rule = .functionDef ∨ n.rule = .constructorDef) :
    ∃ w, T.parts n = w + T.inSlot (some .function) (n.child? 2) ∧
      n.clause.functionParts.Yields fun parts =>
        T.does w (checkSpecifiers? parts.1) (fun _ => 0) ∧
          (∀ base, T.logic.holds (parts.2.1.roles.declarator base)) ∧
          n.clause.part? 2 = some parts.2.2.2 := by
  have hdeclarator : ∀ (q : Phrase) (base : Ty), T.logic.toStepLogic.FunctionDeclarator q →
      T.logic.holds (q.roles.declarator base) := fun q base h => h.1 False base False.elim
  rcases hrule with hrule | hrule
  · refine ⟨T.inSlot (some .same) (n.child? 0), ?_, ?_⟩
    · rw [T.parts_of_places hrule [(0, .same), (2, .function)] ⟨rfl, rfl⟩]
      simp
    · have hspecifiers := ih.checkSpecifiers (i := 0) hf hrule ⟨rfl, rfl⟩
      unfold Clause.functionParts Clause.rule
      simp only [Node.clause, hrule]
      refine (Yields.part n.clause 1).bind fun d hd => ?_
      refine (Yields.part n.clause 2).bind fun b hb => .ret ⟨hspecifiers, fun base => ?_, hb⟩
      obtain ⟨m, hm, rfl⟩ := n.child_of_part? hd
      exact hdeclarator _ base
        ((hf.child hrule hm .functionDeclarator ⟨rfl, rfl⟩).sound (by decide))
  · refine ⟨0, ?_, ?_⟩
    · rw [T.parts_of_place hrule 2 .function ⟨rfl, rfl⟩, zero_add]
    · unfold Clause.functionParts Clause.rule
      simp only [Node.clause, hrule]
      refine (Yields.part n.clause 0).bind fun d hd => ?_
      refine Yields.next fun i => ?_
      refine (Yields.part n.clause 2).bind fun b hb => .ret ⟨?_, fun base => ?_, hb⟩
      · exact T.ret Ty.void fun _ => 0
      · obtain ⟨m, hm, rfl⟩ := n.child_of_part? hd
        exact hdeclarator _ base
          ((hf.child hrule hm .functionDeclarator ⟨rfl, rfl⟩).sound (by decide))

/-- Declaring the function of a definition: what its body weighs is owed. -/
theorem declareFunctionDef (hf : T.Fits .declaration n)
    (hrule : n.rule = .functionDef ∨ n.rule = .constructorDef) :
    T.does (T.parts n) n.clause.declareFunctionDef T.owed := by
  obtain ⟨w, hweight, hparts⟩ := ih.functionParts hf hrule
  have hread : T.logic.holds n.clause.functionParts := by
    unfold Clause.functionParts
    split
    · exact T.logic.bind (T.logic.part _ _) fun _ =>
        T.logic.bind (T.logic.part _ _) fun _ => T.logic.ret _
    · exact T.logic.bind (T.logic.part _ _) fun _ => T.logic.bind (T.logic.part _ _) fun _ =>
        T.logic.bind (T.logic.part _ _) fun _ => T.logic.ret _
    · exact T.logic.fault _
  rw [hweight, ← zero_add (w + _)]
  unfold Clause.declareFunctionDef
  refine T.seq hparts (T.zero hread) ?_
  rintro ⟨specifiers, declarator, ctorInit, body⟩ ⟨hspecifiers, hdeclarator, hbody⟩
  obtain ⟨m, hm, rfl⟩ := n.child_of_part? hbody
  have howed : ∀ (name : String) (parameters : List Parameter) (d : Definition),
      T.does (T.inSlot (some .function) (some m)) (pure (⟨name, d.ty, parameters, d.cls, ctorInit,
        m.phrase, d.attach⟩ : FunctionBody)) T.owed := by
    intro name parameters d
    have hret := T.ret (⟨name, d.ty, parameters, d.cls, ctorInit, m.phrase, d.attach⟩ :
      FunctionBody) T.owed
    unfold owed at hret
    rwa [m.phrase_node] at hret
  rw [hm, add_zero]
  refine T.bind hspecifiers fun base => ?_
  refine T.next (hdeclarator base) fun declared => ?_
  dsimp only
  split
  next name parameters f _ _ _ =>
    split
    next cls _ =>
      have hdefine : T.logic.holds (defineMember cls name declared.ty) :=
        T.logic.toStepLogic.defineMember (p := False) cls name False.elim
      exact T.next hdefine fun d => howed _ _ d
    next =>
      have hdefine : T.logic.holds (defineLocal name declared.ty) :=
        T.logic.toStepLogic.defineLocal (p := False) name False.elim
      exact T.next hdefine fun d => howed _ _ d
  next => exact T.never _ _ (.fault _)

/-- The bodies that definitions leave do what they weigh. -/
theorem checkBody (hf : T.Fits .declaration n)
    (hrule : n.rule = .functionDef ∨ n.rule = .constructorDef) :
    n.clause.declareFunctionDef.Yields fun b => T.does (T.owed b) b.check fun _ => 0 := by
  refine n.clause.declareFunctionDef_parts.mono ?_
  rintro b ⟨hfunction, hbody, hinit⟩
  obtain ⟨f, hty⟩ := StepLogic.exists_asFunction hfunction
  obtain ⟨m, hm, hphrase⟩ := n.child_of_part? hbody
  have hblock : T.Means .functionBody m := by
    rcases hrule with hrule | hrule
    · exact ih.child hf hrule hm .functionBody ⟨rfl, rfl⟩
    · exact ih.child hf hrule hm .functionBody ⟨rfl, rfl⟩
  have howed : T.owed b = T.function (T.bodyWeight m) := by
    rw [owed, ← hphrase, m.phrase_node]
  rw [howed]
  refine T.functionBody hty (fun init h => ?_) (hphrase ▸ hblock)
  obtain ⟨hconstructor, hinit⟩ := hinit init h
  obtain ⟨i, hi, rfl⟩ := n.child_of_part? hinit
  replace hconstructor : n.rule = .constructorDef := hconstructor
  have hsound := (hf.child hconstructor hi .ctorInit ⟨rfl, rfl⟩).sound (by decide)
  exact hsound True

/-- A function definition. -/
theorem functionDefinition (hf : T.Fits .declaration n)
    (hrule : n.rule = .functionDef ∨ n.rule = .constructorDef) :
    T.does (T.weight n) n.clause.functionDefinition fun _ => 0 := by
  have hdefines : n.rule.defines = true := by rcases hrule with h | h <;> rw [h] <;> rfl
  have hbody : T.does (T.parts n + 0) n.clause.functionDefinition fun _ => 0 := by
    unfold Clause.functionDefinition
    refine T.seq (ih.checkBody hf hrule) (ih.declareFunctionDef hf hrule) fun b hb => ?_
    rwa [zero_add]
  rw [add_zero] at hbody
  rw [T.weight_of_defines hdefines]
  exact T.functionDefinition hdefines hbody

/-- A declaration. -/
theorem declaration (hf : T.Fits .declaration n) : T.Means .declaration n := by
  have hsimple := ih.simpleDeclaration hf
  have hdefinition := ih.functionDefinition hf
  change T.does (T.weight n) n.phrase.roles.declaration fun _ => 0
  rw [n.phrase_roles_eq]
  obtain ⟨rule, children, token⟩ := n
  cases rule with
  | declSeq =>
    rw [T.weight_items rfl]
    change T.does _ ((Node.clause _).items.forM fun item => item.roles.declaration) _
    rw [Node.clause_items]
    refine T.forM_phrase fun m hm => ?_
    exact ih m (Node.sizeOf_items hm) .declaration (hf.items rfl rfl (by simp) hm)
  | simpleDecl =>
    rw [T.weight_eq_parts rfl]
    exact hsimple rfl
  | functionDef => exact hdefinition (.inl rfl)
  | constructorDef => exact hdefinition (.inr rfl)
  | _ => exact T.unexpected _ _ _

/-! ### Members -/

/-- The declarators of a member have no weight. -/
theorem memberDecl (hf : T.Fits .memberDeclaration n) (hrule : n.rule = .memberDecl) :
    T.does (T.parts n) (do
      let base ← checkSpecifiers? (n.clause.part? 0)
      (Phrase.flatten? (n.clause.part? 1)).forM fun item => item.memberDeclarator base)
      fun _ => 0 := by
  have hparts := T.parts_of_place hrule 0 .same ⟨rfl, rfl⟩
  have hitems := hf.each (i := 1) hrule .memberDeclarator ⟨rfl, rfl⟩ (by decide)
  have hspecifiers := ih.checkSpecifiers (i := 0) hf hrule ⟨rfl, rfl⟩
  rw [hparts]
  refine T.before hspecifiers fun base => ?_
  exact T.logic.rules.forM (p := False) fun item hitem =>
    Phrase.Each.of_mem hitems hitem False base False.elim

/-- The declaration of a member. A function leaves its body. -/
theorem memberDeclaration (hf : T.Fits .memberDeclaration n) : T.Means .memberDeclaration n := by
  have hdefinition : n.rule = .functionDef ∨ n.rule = .constructorDef →
      T.Leaves (T.parts n) (do let b ← n.clause.declareFunctionDef; return [b]) := by
    intro hrule
    have hfits : T.Fits .declaration n := by
      refine hf.congr ?_ (by simp)
      rcases hrule with h | h <;> rw [h] <;> rfl
    have hbody := ih.checkBody hfits hrule
    constructor
    · rw [← add_zero (T.parts n)]
      refine T.seq hbody (ih.declareFunctionDef hfits hrule) fun b _ => ?_
      have hret := T.ret [b] fun bodies => (bodies.map T.owed).sum
      rw [zero_add]
      rwa [List.map_singleton, List.sum_singleton] at hret
    · refine hbody.bind fun b hb => .ret fun b' hb' => ?_
      rwa [List.mem_singleton.mp hb']
  have hsimple : n.rule = .simpleDecl → T.Leaves (T.parts n) (do
      n.clause.simpleDeclaration
      return []) := by
    intro hrule
    have hfits : T.Fits .declaration n := hf.congr (by rw [hrule]; rfl) (by simp)
    exact Leaves.none (ih.simpleDeclaration hfits hrule)
  have hmember : n.rule = .memberDecl → T.Leaves (T.parts n) (do
      let base ← checkSpecifiers? (n.clause.part? 0)
      (Phrase.flatten? (n.clause.part? 1)).forM fun item => item.memberDeclarator base
      return []) := by
    intro hrule
    have h := Leaves.none (ih.memberDecl hf hrule)
    rwa [bind_assoc] at h
  change T.Leaves (T.parts n) n.phrase.memberDeclaration
  unfold Phrase.memberDeclaration Phrase.part?
  rw [n.phrase_rule, n.phrase_clause]
  split
  next hrule => exact hdefinition (.inl hrule)
  next hrule => exact hdefinition (.inr hrule)
  next hrule => exact hmember hrule
  next hrule => exact hsimple hrule
  next => exact Leaves.fault (.fault _)

omit ih in
/-- An access specifier has no weight, and leaves no bodies. -/
theorem accessLink (hrule : n.rule = .accessSpec) : T.Leaves 0 n.phrase.memberLink := by
  unfold Phrase.memberLink Phrase.part
  simp only [n.phrase_rule, hrule, n.phrase_clause]
  refine Leaves.part fun m _ => Leaves.lift fun t => ?_
  split
  · exact Leaves.none (T.zero (T.logic.setAccess _))
  · exact Leaves.fault (.fault _)

/-- A link with a member leaves what the member leaves. -/
theorem memberLink (hf : T.Fits .memberSpec n) (hrule : n.rule = .memberSpec) :
    T.Leaves (T.inSlot (some .member) (n.child? 0)) n.phrase.memberLink := by
  unfold Phrase.memberLink Phrase.part
  simp only [n.phrase_rule, hrule, n.phrase_clause]
  refine Leaves.part fun m hm => ?_
  rw [hm]
  exact ih.child hf hrule hm .memberDeclaration ⟨rfl, rfl⟩

/-- The links behind the first one. -/
theorem memberLinks (hf : T.Fits .memberSpec n) (hrule : n.rule = rule)
    (hslot : HasSlot .memberSpec rule 1 (.opt .memberSpec)) :
    T.Leaves (T.inSlot (some .member) (n.child? 1)) (Phrase.members (n.phrase.part? 1)) := by
  rw [n.phrase_part?]
  cases hchild : n.child? 1 with
  | none => exact Leaves.nil
  | some m => exact ih.child hf hrule hchild .memberSpec hslot

/-- A member specification: its first link, and the others behind it. -/
theorem memberSpec (hf : T.Fits .memberSpec n) : T.Means .memberSpec n := by
  change T.Leaves (T.parts n) (Phrase.members (some n.phrase))
  rw [Phrase.members_some, n.phrase_rule]
  by_cases hspec : n.rule = .memberSpec
  · have hrest := ih.memberLinks hf hspec ⟨rfl, rfl⟩
    rw [if_pos (.inl hspec)]
    convert (ih.memberLink hf hspec).append hrest using 1
    rw [T.parts_of_places hspec [(0, .member), (1, .member)] ⟨rfl, rfl⟩]
    simp
  by_cases haccess : n.rule = .accessSpec
  · have hrest := ih.memberLinks hf haccess ⟨rfl, rfl⟩
    rw [if_pos (.inr haccess)]
    convert (accessLink haccess).append hrest using 1
    rw [T.parts_of_place haccess 1 .member ⟨rfl, rfl⟩, zero_add]
  · have hlayout : layout .memberSpec n.rule = layout .memberDeclaration n.rule := by
      cases hrule : n.rule <;> first | rfl | contradiction
    have hmember : T.Leaves (T.parts n) n.phrase.memberLink := by
      unfold Phrase.memberLink
      rw [n.phrase_rule]
      split
      · contradiction
      · contradiction
      · exact ih.memberDeclaration (hf.congr hlayout (by simp))
    have hrest : T.Leaves 0 (Phrase.members none) := Leaves.nil
    have hboth := hmember.append hrest
    rw [if_neg (not_or.mpr ⟨hspec, haccess⟩)]
    rwa [add_zero] at hboth

/-! ### Statements -/

/-- A block. -/
theorem block (hf : T.Fits .statement n) (hrule : n.rule = .compound) :
    T.does (T.parts n) (CWithClasses.checkStatements (n.clause.part? 0)) fun _ => 0 := by
  have hparts := T.parts_of_place hrule 0 .same ⟨rfl, rfl⟩
  rw [hparts, n.clause_part?]
  exact T.checkStatements fun m hm => ih.listed hf hrule hm .statement ⟨rfl, rfl⟩

/-- A conditional statement, with one branch or two. -/
theorem ifStatement (hf : T.Fits .statement n) (hrule : n.rule = .ifThen ∨ n.rule = .ifElse) :
    T.does (T.block (T.parts n)) n.clause.ifStatement fun _ => 0 := by
  have hparts : T.parts n = T.inSlot (some .same) (n.child? 1) +
      if n.rule = .ifElse then T.inSlot (some .same) (n.child? 2) else 0 := by
    rcases hrule with h | h
    · simp [T.parts_of_place h 1 .same ⟨rfl, rfl⟩, h]
    · simp [T.parts_of_places h [(1, .same), (2, .same)] ⟨rfl, rfl⟩, h]
  have hcondition : ∀ test, n.child? 0 = some test →
      T.logic.holds (test.phrase.condition .truth) := by
    intro test htest
    rcases hrule with h | h
    · exact hf.condition h htest _ ⟨rfl, rfl⟩
    · exact hf.condition h htest _ ⟨rfl, rfl⟩
  have hthen : ∀ yes, n.child? 1 = some yes → T.Means .statement yes := by
    intro yes hyes
    rcases hrule with h | h
    · exact ih.child hf h hyes .statement ⟨rfl, rfl⟩
    · exact ih.child hf h hyes .statement ⟨rfl, rfl⟩
  rw [hparts]
  unfold Clause.ifStatement
  refine T.inBlock (T.part fun test htest => ?_)
  refine T.next (hcondition test htest) fun _ => T.part fun yes hyes => ?_
  rw [hyes]
  refine T.bind (hthen yes hyes) fun _ => ?_
  by_cases helse : n.rule = .ifElse
  · rw [if_pos helse, if_pos (show n.clause.rule = .ifElse from helse)]
    refine T.part fun no hno => ?_
    rw [hno]
    exact ih.child hf helse hno .statement ⟨rfl, rfl⟩
  · rw [if_neg helse, if_neg (show n.clause.rule ≠ .ifElse from helse)]
    exact T.ret () fun _ => 0

/-- A switch. -/
theorem switchStatement (hf : T.Fits .statement n) (hrule : n.rule = .switchOn) :
    T.does (T.block (T.parts n)) n.clause.switchStatement fun _ => 0 := by
  have hparts := T.parts_of_place hrule 1 .switch ⟨rfl, rfl⟩
  have hbody : T.does (T.inSlot (some .switch) (n.child? 1)) n.clause.switchBody fun _ => 0 := by
    unfold Clause.switchBody
    rw [n.clause_part?]
    cases hchild : n.child? 1 with
    | none => exact T.never _ _ fun _ _ _ h => by cases h
    | some m => exact T.switch_nested (ih.child hf hrule hchild .statement ⟨rfl, rfl⟩)
  rw [hparts]
  unfold Clause.switchStatement
  refine T.inBlock (T.part fun test htest => ?_)
  exact T.next (hf.condition hrule htest _ ⟨rfl, rfl⟩) fun _ => hbody

/-- The body of a loop. -/
theorem loopBody (hf : T.Fits .statement n) (hrule : n.rule = rule)
    (hslot : HasSlot .statement rule i (.one .statement)) :
    T.does (T.inSlot (some .loop) (n.child? i)) (do (← n.clause.part i).loopBody) fun _ => 0 := by
  refine T.part fun m hm => ?_
  rw [hm]
  exact T.loop_nested (ih.child hf hrule hm .statement hslot)

/-- A loop with its condition in front. -/
theorem whileStatement (hf : T.Fits .statement n) (hrule : n.rule = .whileLoop) :
    T.does (T.block (T.parts n)) n.clause.whileStatement fun _ => 0 := by
  have hparts := T.parts_of_place hrule 1 .loop ⟨rfl, rfl⟩
  rw [hparts]
  unfold Clause.whileStatement
  refine T.inBlock (T.part fun test htest => ?_)
  refine T.next (hf.condition hrule htest _ ⟨rfl, rfl⟩) fun _ => ?_
  exact ih.loopBody hf hrule ⟨rfl, rfl⟩

/-- A loop with its condition at the end. -/
theorem doWhileStatement (hf : T.Fits .statement n) (hrule : n.rule = .doWhileLoop) :
    T.does (T.parts n) n.clause.doWhileStatement fun _ => 0 := by
  have hparts := T.parts_of_place hrule 0 .loop ⟨rfl, rfl⟩
  have hloop := ih.loopBody (i := 0) hf hrule ⟨rfl, rfl⟩
  have htest : T.does 0 (do (← n.clause.part 1).condition .truth) fun _ => 0 := by
    refine T.part fun test htest => T.zero ?_
    exact hf.condition hrule htest _ ⟨rfl, rfl⟩
  have hboth := T.bind hloop fun _ => htest
  rw [hparts]
  rw [add_zero, bind_assoc] at hboth
  exact hboth

/-- A loop with all its controls in front, of which each may be left out. -/
theorem forStatement (hf : T.Fits .statement n) (hrule : n.rule = .forLoop) :
    T.does (T.block (T.parts n)) n.clause.forStatement fun _ => 0 := by
  have hparts : T.parts n =
      T.inSlot (some .same) (n.child? 0) + T.inSlot (some .loop) (n.child? 3) := by
    rw [T.parts_of_places hrule [(0, .same), (3, .loop)] ⟨rfl, rfl⟩]
    simp
  have hcondition : T.logic.holds (checkCondition? (n.clause.part? 1)) := by
    refine T.logic.toStepLogic.checkCondition (p := True) fun q hq p kind => ?_
    obtain ⟨m, hchild, rfl⟩ := n.child_of_part? hq
    exact hf.condition hrule hchild _ ⟨rfl, rfl⟩
  have hstep : T.logic.holds (checkExpression? (n.clause.part? 2)) := by
    refine T.logic.toStepLogic.checkExpression (p := True) fun q hq => ?_
    obtain ⟨m, hchild, rfl⟩ := n.child_of_part? hq
    exact (hf.child hrule hchild .expression ⟨rfl, rfl⟩).sound (by decide)
  rw [hparts]
  unfold Clause.forStatement
  refine T.inBlock (T.bind (ih.checkStatement (i := 0) hf hrule ⟨rfl, rfl⟩) fun _ => ?_)
  refine T.next hcondition fun _ => T.next hstep fun _ => ?_
  exact ih.loopBody (i := 3) hf hrule ⟨rfl, rfl⟩

/-- A case label, and the statement behind it. -/
theorem caseLabel (hf : T.Fits .statement n) (hrule : n.rule = .caseLabel) :
    T.does (T.weight n) n.clause.caseLabel fun _ => 0 := by
  have hweight : T.weight n = T.jump n + T.inSlot (some .same) (n.child? 1) := by
    rw [T.weight_of_jumps (by rw [hrule]; rfl), T.parts_of_place hrule 1 .same ⟨rfl, rfl⟩]
  have hstatement := ih.checkStatement (i := 1) hf hrule ⟨rfl, rfl⟩
  have hrest : T.does (T.inSlot (some .same) (n.child? 1)) (do
      let label ← n.clause.part 0
      checkIntegral (← label.roles.expression) label.position
      checkStatement? (n.clause.part? 1)) fun _ => 0 := by
    refine T.part fun label hlabel => ?_
    have hsound : T.logic.toStepLogic.Expression label.phrase :=
      (hf.child hrule hlabel .expression ⟨rfl, rfl⟩).sound (by decide)
    refine T.next (hsound True) fun ty => ?_
    exact T.next (T.logic.toStepLogic.looks (p := True) (.checkIntegral ty _)) fun _ => hstatement
  rw [hweight]
  exact T.illegalJump "case" n.clause.position (by rw [hrule]; rfl)
    (fun s => by rw [hrule]; rfl) hrest fun _ => hrest

/-- A default label, and the statement behind it. -/
theorem defaultLabel (hf : T.Fits .statement n) (hrule : n.rule = .defaultLabel) :
    T.does (T.weight n) n.clause.defaultLabel fun _ => 0 := by
  have hweight : T.weight n = T.jump n + T.inSlot (some .same) (n.child? 0) := by
    rw [T.weight_of_jumps (by rw [hrule]; rfl), T.parts_of_place hrule 0 .same ⟨rfl, rfl⟩]
  have hstatement := ih.checkStatement (i := 0) hf hrule ⟨rfl, rfl⟩
  rw [hweight]
  exact T.illegalJump "default" n.clause.position (by rw [hrule]; rfl) (fun s => by rw [hrule]; rfl)
    hstatement fun _ => hstatement

omit ih in
/-- A return, with a value or without one. -/
theorem returnStatement (hf : T.Fits .statement n) (hrule : n.rule = .returnJump) :
    T.does (T.weight n) n.clause.returnStatement fun _ => 0 := by
  have hweight : T.weight n = T.jump n := by
    rw [T.weight_of_jumps (by rw [hrule]; rfl), T.parts_of_places hrule [] ⟨rfl, rfl⟩]
    exact add_zero _
  rw [hweight]
  unfold Clause.returnStatement
  rw [n.clause_part?]
  cases hchild : n.child? 0 with
  | none => exact T.checkReturned hrule none _
  | some m =>
    have hsound : T.logic.toStepLogic.Expression m.phrase :=
      (hf.child hrule hchild .expression ⟨rfl, rfl⟩).sound (by decide)
    exact T.next (hsound True) fun ty => T.checkReturned hrule (some (ty, m.phrase.position)) _

/-- A statement. -/
theorem statement (hf : T.Fits .statement n) : T.Means .statement n := by
  have hexpression : layout .statement n.rule = layout .expression n.rule →
      T.does (T.weight n) (do let _ ← n.clause.expression) fun _ => 0 := by
    intro hlayout
    have h : T.does (T.weight n) n.phrase.roles.expression fun _ => 0 :=
      ih.expression (hf.congr hlayout (by simp))
    rw [n.phrase_roles_eq] at h
    exact T.before h fun _ => T.logic.ret ()
  have hdeclaration : layout .statement n.rule = layout .declaration n.rule →
      T.does (T.weight n) n.clause.declaration fun _ => 0 := by
    intro hlayout
    have h : T.does (T.weight n) n.phrase.roles.declaration fun _ => 0 :=
      ih.declaration (hf.congr hlayout (by simp))
    rwa [n.phrase_roles_eq] at h
  have hscoped := fun h => T.weight_of_opensScope (n := n) h
  have hjump : T.parts n = 0 → n.rule.jumps = true → T.weight n = T.jump n := by
    intro hparts hrule
    rw [T.weight_of_jumps hrule, hparts, add_zero]
  have hblock := ih.block hf
  have hif := ih.ifStatement hf
  have hswitch := ih.switchStatement hf
  have hwhile := ih.whileStatement hf
  have hdo := ih.doWhileStatement hf
  have hfor := ih.forStatement hf
  have hcase := ih.caseLabel hf
  have hdefault := ih.defaultLabel hf
  have hreturn := returnStatement hf
  change T.does (T.weight n) n.phrase.roles.statement fun _ => 0
  rw [n.phrase_roles_eq]
  obtain ⟨rule, children, token⟩ := n
  cases rule with
  | compound => exact hscoped rfl ▸ T.inBlock (hblock rfl)
  | ifThen => exact hscoped rfl ▸ hif (.inl rfl)
  | ifElse => exact hscoped rfl ▸ hif (.inr rfl)
  | switchOn => exact hscoped rfl ▸ hswitch rfl
  | whileLoop => exact hscoped rfl ▸ hwhile rfl
  | forLoop => exact hscoped rfl ▸ hfor rfl
  | statementSeqStart | statementSeq =>
    rw [T.weight_items rfl]
    change T.does _ ((Node.clause _).items.forM fun item => item.roles.statement) _
    rw [Node.clause_items]
    refine T.forM_phrase fun m hm => ?_
    exact ih m (Node.sizeOf_items hm) .statement (hf.items rfl rfl (by simp) hm)
  | doWhileLoop =>
    rw [T.weight_eq_parts rfl]
    exact hdo rfl
  | caseLabel => exact hcase rfl
  | defaultLabel => exact hdefault rfl
  | breakJump =>
    rw [hjump (T.parts_of_places rfl [] ⟨rfl, rfl⟩) rfl]
    exact T.jumpOnly "break" _ rfl fun s => Iff.rfl
  | continueJump =>
    rw [hjump (T.parts_of_places rfl [] ⟨rfl, rfl⟩) rfl]
    exact T.jumpOnly "continue" _ rfl fun s => Iff.rfl
  | returnJump => exact hreturn rfl
  | declSeq | simpleDecl => exact hdeclaration rfl
  | _ => first | exact T.unexpected _ _ _ | exact hexpression rfl

/-- The body of a function, whose outermost block opens no scope. -/
theorem functionBody (hf : T.Fits .functionBody n) : T.Means .functionBody n := by
  have hfits : T.Fits .statement n := hf.congr rfl (by simp)
  change T.does (T.bodyWeight n) n.phrase.functionBlock fun _ => 0
  unfold Weights.bodyWeight Phrase.functionBlock Phrase.part?
  rw [n.phrase_rule, n.phrase_clause]
  split
  next hrule => exact ih.block hfits hrule
  next => exact ih.statement hfits

end Below

/-! ### All classes at once -/

/-- Every tree does what it weighs, in the role of each class that it fits. -/
theorem does_of_fits (σ : Nonterminal) (n : Node) (hf : T.Fits σ n) : T.Means σ n := by
  have ih : T.Below n := fun m _ τ hτ => does_of_fits τ m hτ
  cases σ with
  | declaration => exact ih.declaration hf
  | statement => exact ih.statement hf
  | functionBody => exact ih.functionBody hf
  | expression => exact ih.expression hf
  | specifier => exact ih.specifier hf
  | memberSpec => exact ih.memberSpec hf
  | memberDeclaration => exact ih.memberDeclaration hf
  | _ => trivial
termination_by sizeOf n

/-- If statements are considered wherever they stand, checking any tree does what it weighs. -/
theorem check (h : T.logic.statements) (n : Node) : T.does (T.weight n) n.check fun _ => 0 := by
  have hmeans : ∀ σ m, T.Means σ m := fun σ m => T.does_of_fits σ m (.inl h)
  have hvoid : ∀ {w : W} {x : Check Unit}, T.does w x (fun _ => 0) →
      T.does w (do x; return Ty.void) fun _ => 0 := fun hx => T.before hx fun _ => T.logic.ret _
  have hexpression : T.does (T.weight n) n.checkExpression fun _ => 0 := hmeans .expression n
  have hdeclaration : T.does (T.weight n) n.checkDeclaration fun _ => 0 := hmeans .declaration n
  have hstatement : T.does (T.weight n) n.checkStatement fun _ => 0 := hmeans .statement n
  unfold Node.check
  split <;> rename_i hcategory
  · have hrule : n.rule = .program := by
      cases hrule : n.rule <;> rw [hrule] at hcategory <;> first | rfl | cases hcategory
    rw [T.weight_eq_parts (by rw [hrule]; rfl), T.parts_of_place hrule 0 .same ⟨rfl, rfl⟩]
    cases n.child? 0 with
    | none => exact T.ret Ty.void fun _ => 0
    | some m => exact hvoid (hmeans .declaration m)
  · exact hvoid hdeclaration
  · exact hvoid hdeclaration
  · exact hvoid hstatement
  · split
    next hrule =>
      have hbelow : T.Below n := fun m _ τ _ => hmeans τ m
      unfold Node.checkClassSpec
      rw [n.phrase_clause]
      exact hbelow.classSpec (.inl h) hrule
    next => exact hexpression
  · exact hexpression

end Tally

end CWithClasses
