import CWithClasses.Proofs.Redefinition
import CWithClasses.Proofs.Upkeep.Tree

/-!
# Names that declarators give to objects

A declarator makes an object of a class only of a base type that is the class itself, and only if it
is a mere name, up to references, parentheses and qualification. So the names of all objects of
classes that a tree may declare can be read off the tree.
-/

namespace CWithClasses

open Check

/-! ### Names that declarators give to objects -/

namespace Node

mutual

/-- The name that a declarator gives to its base type as it stands. There is none if the declarator
makes a pointer, an array or a function of it. -/
def directName? : Node → Option String
  | ⟨rule, children, token⟩ =>
      match rule with
      | .token => token.map (·.text)
      | .pointerDeclarator | .abstractPointer =>
          if (children[0]?.join.bind (·.token)).any fun t => t.kind == .ampersand then
            directNameIn 1 children
          else none
      | .qualifiedDeclarator => directNameIn 1 children
      | .abstractParens => directNameIn 0 children
      | _ => none

/-- The name that the declarator in a slot gives to its base type as it stands. -/
def directNameIn : Nat → List (Option Node) → Option String
  | _, [] => none
  | 0, none :: _ => none
  | 0, some child :: _ => child.directName?
  | i + 1, _ :: rest => directNameIn i rest

end

/-- The name in a slot is that of the tree in it. -/
theorem directNameIn_eq (i : Nat) (children : List (Option Node)) :
    directNameIn i children = children[i]?.join.bind directName? := by
  induction children generalizing i with
  | nil => rfl
  | cons child rest ih =>
    cases i with
    | zero => cases child <;> rfl
    | succ i => simpa [directNameIn] using ih i

/-- A specifier that is a keyword. -/
def isKeyword (n : Node) : Bool := n.rule == .token && n.token.any fun t => !t.kind.isName

/-- Whether the specifiers of a construct are not only keywords. -/
def namesClass (n : Node) : Bool := (n.child? 0).any fun r => r.flatten.any fun m => !m.isKeyword

/-- The names that constructs inside of the tree give to objects of classes. -/
def objectNames (n : Node) : List String :=
  n.subtrees.flatMap fun m =>
    if m.namesClass then m.phrase.declarators.filterMap (·.node.directName?) else []

end Node

/-- What is declared is an object of a class only if the base type is one, and then it has the given
name, if it has a name. -/
def Declared.GivenBy (d : Declared) (base : Ty) (given : Option String) : Prop :=
  ∀ c, d.ty = .object c → base = .object c ∧ ∀ name, d.name = some name → given = some name.name

/-- Of a type that is no class, no object of a class is made. -/
theorem Declared.GivenBy.of_ne {d : Declared} {ty base : Ty} {given : Option String}
    (h : d.GivenBy ty given) (hne : ∀ c, ty ≠ .object c) (given' : Option String) :
    d.GivenBy base given' :=
  fun c hc => absurd (h c hc).1 (hne c)

/-- A pointer operator leaves a class as it is only if it makes a reference. -/
theorem Phrase.yields_pointerOperator (q : Phrase) (ty : Ty) :
    (q.pointerOperator ty).Yields fun target => ∀ c, target = .object c →
      ty = .object c ∧ ∃ t, q.node.token = some t ∧ t.kind = .ampersand := by
  unfold pointerOperator
  split
  · exact .ret fun c hc => by cases hc
  · exact Yields.next fun _ => .ret fun c hc => by cases hc
  · refine (Yields.leafToken q.node).bind fun t ht => ?_
    split
    · exact .ret fun c hc => by cases hc
    next hkind => exact .ret fun c hc => ⟨hc, t, ht, hkind⟩
    · exact .fault _
  · exact .fault _

/-- A declarator makes an object of a class only of the class itself, and then it gives its name to
the class as it stands. -/
theorem Node.yields_directName (n : Node) (base : Ty) :
    (n.phrase.roles.declarator base).Yields fun d => d.GivenBy base n.directName? := by
  have hslot : ∀ i q, n.clause.part? i = some q → ∀ ty,
      (q.roles.declarator ty).Yields fun d => d.GivenBy ty (directNameIn i n.children) := by
    intro i q hq ty
    obtain ⟨m, hm, rfl⟩ := n.child_of_part? hq
    have hsize := sizeOf_child hm
    have hname : directNameIn i n.children = m.directName? := by
      rw [directNameIn_eq, ← child?, hm, Option.bind_some]
    rw [hname]
    exact yields_directName m ty
  have hinner : ∀ i ty, (declareInner (n.clause.part? i) ty).Yields fun d =>
      d.GivenBy ty (directNameIn i n.children) := by
    intro i ty
    unfold declareInner
    cases hpart : n.clause.part? i with
    | some q => exact hslot i q hpart ty
    | none => exact .ret fun c hc => ⟨hc, fun _ hname => by cases hname⟩
  have hfunction : ∀ t : Ty, t.function?.isSome → ∀ c, t ≠ .object c := by
    rintro _ ht c rfl
    cases ht
  rw [n.phrase_roles_eq]
  change (n.clause.declarator base).Yields fun d => d.GivenBy base n.directName?
  obtain ⟨rule, children, token⟩ := n
  -- A reference hands the base type on to the declarator behind it.
  have hpointer : ∀ {d : Declared} {operator : Phrase} {target : Ty},
      (Node.mk rule children token).clause.part? 0 = some operator →
      (∀ c, target = .object c →
        base = .object c ∧ ∃ t, operator.node.token = some t ∧ t.kind = .ampersand) →
      d.GivenBy target (directNameIn 1 children) →
      d.GivenBy base (if (children[0]?.join.bind (·.token)).any fun t => t.kind == .ampersand then
        directNameIn 1 children else none) := by
    intro d operator target hoperator htarget hd c hc
    obtain ⟨hobject, hname⟩ := hd c hc
    obtain ⟨hbase, t, ht, hkind⟩ := htarget c hobject
    have htoken : children[0]?.join.bind (·.token) = some t := token_of_part hoperator ht
    refine ⟨hbase, fun name hd => ?_⟩
    rw [htoken, Option.any_some, hkind, if_pos (beq_self_eq_true _)]
    exact hname name hd
  cases rule with
  | token =>
    refine (Yields.leafToken _).bind fun t ht => ?_
    split
    · refine .ret fun c hc => ⟨hc, fun name hname => ?_⟩
      cases hname
      replace ht : token = some t := ht
      simp [directName?, ht]
    · exact .fault _
  | pointerDeclarator =>
    refine (Yields.part _ 0).bind fun operator hoperator => ?_
    refine (operator.yields_pointerOperator base).bind fun target htarget => ?_
    refine (Yields.part _ 1).bind fun q hq => ?_
    exact (hslot 1 q hq target).mono fun d hd => hpointer hoperator htarget hd
  | abstractPointer =>
    refine (Yields.part _ 0).bind fun operator hoperator => ?_
    refine (operator.yields_pointerOperator base).bind fun target htarget => ?_
    exact (hinner 1 target).mono fun d hd => hpointer hoperator htarget hd
  | functionDeclarator =>
    refine .declarator_function (P := fun d => d.GivenBy base none) (.inl rfl) ?_ fun d _ hd => hd
    exact fun q hq t ht => (hslot 0 q hq t).mono fun d hd => hd.of_ne (hfunction t ht) _
  | constFunctionDeclarator =>
    refine .declarator_function (P := fun d => d.GivenBy base none) (.inr rfl) ?_ fun d _ hd => hd
    exact fun q hq t ht => (hslot 0 q hq t).mono fun d hd => hd.of_ne (hfunction t ht) _
  | abstractFunction =>
    refine Yields.next fun params => ?_
    refine (Yields.newFunctionType base params).bind fun t ht => ?_
    exact (hinner 0 t).bind fun d hd => .ret (hd.of_ne (hfunction t ht) _)
  | arrayDeclarator =>
    refine Yields.next fun size => ?_
    refine (Yields.part _ 0).bind fun q hq => ?_
    exact (hslot 0 q hq _).mono fun d hd => hd.of_ne (fun c hc => by cases hc) _
  | abstractArray =>
    refine Yields.next fun size => ?_
    exact (hinner 0 _).mono fun d hd => hd.of_ne (fun c hc => by cases hc) _
  | abstractParens => exact hinner 0 base
  | constructorDeclarator =>
    exact (Yields.declarator_special (.inl rfl)).mono fun d hd c hc =>
      absurd hc (hfunction _ hd.2.2 c)
  | destructorDeclarator =>
    exact (Yields.declarator_special (.inr rfl)).mono fun d hd c hc =>
      absurd hc (hfunction _ hd.2.2 c)
  | qualifiedDeclarator =>
    refine .declarator_qualified rfl (fun q hq => hslot 1 q hq base) fun d cls hd c hc => ?_
    obtain ⟨hbase, hname⟩ := hd c hc
    refine ⟨hbase, fun name hclass => ?_⟩
    obtain ⟨plain, hplain, rfl⟩ := Option.map_eq_some_iff.mp hclass
    exact hname plain hplain
  | _ => exact .fault _
termination_by sizeOf n

/-- A declarator that is a tree gives given names to objects, if its own name is a given one. -/
theorem Node.names_phrase {D : String → Prop} {n : Node}
    (h : ∀ name, n.directName? = some name → D name) (base : Ty) : n.phrase.Names D base :=
  (n.yields_directName base).mono fun _ hd c name hc hname => h name.name ((hd c hc).2 name hname)

/-- Of a type that is no class, no objects of classes are made. -/
theorem Node.names_of_ne {D : String → Prop} {base : Ty} (h : ∀ c, base ≠ .object c) (n : Node) :
    n.phrase.Names D base :=
  (n.yields_directName base).mono fun _ hd c _ hc => absurd (hd c hc).1 (h c)

namespace Node

variable {n : Node}

/-- The items of a list are trees. -/
theorem exists_of_mem_flatten {i : Nat} {q : Phrase} (h : q ∈ Phrase.flatten? (n.phrase.part? i)) :
    ∃ m : Node, q = m.phrase := by
  rw [n.phrase_part?] at h
  cases hchild : n.child? i with
  | none =>
    rw [hchild] at h
    cases h
  | some r =>
    rw [hchild] at h
    replace h : q ∈ r.phrase.flatten := h
    rw [r.phrase_flatten] at h
    obtain ⟨m, -, rfl⟩ := List.mem_map.mp h
    exact ⟨m, rfl⟩

/-- The part in a slot is a tree. -/
theorem exists_of_mem_part {i : Nat} {q : Phrase} (h : q ∈ (n.phrase.part? i).toList) :
    ∃ m : Node, q = m.phrase := by
  rw [n.phrase_part?, Option.mem_toList, Option.map_eq_some_iff] at h
  obtain ⟨m, -, rfl⟩ := h
  exact ⟨m, rfl⟩

/-- The declarators of an item are trees. -/
theorem exists_of_mem_itemDeclarators {q : Phrase} (h : q ∈ n.phrase.itemDeclarators) :
    ∃ m : Node, q = m.phrase := by
  unfold Phrase.itemDeclarators at h
  split at h
  all_goals
    rcases List.mem_cons.mp h with rfl | h
    · exact ⟨n, rfl⟩
  any_goals exact exists_of_mem_part h
  cases h

/-- The declarators of a construct are trees. -/
theorem exists_of_mem_declarators {q : Phrase} (h : q ∈ n.phrase.declarators) :
    ∃ m : Node, q = m.phrase := by
  unfold Phrase.declarators at h
  split at h
  any_goals exact exists_of_mem_part h
  any_goals
    obtain ⟨item, hitem, hq⟩ := List.mem_flatMap.mp h
    obtain ⟨m, rfl⟩ := exists_of_mem_flatten hitem
    exact exists_of_mem_itemDeclarators hq
  cases h

/-- A keyword names no class. -/
theorem yields_keyword (h : n.isKeyword = true) :
    n.phrase.roles.specifier.Yields fun ty => ∀ t, ty = some t → ∀ c, t ≠ .object c := by
  have hnone : ∀ t : Ty, none = some t → ∀ c, t ≠ .object c := by
    intro t ht
    cases ht
  unfold isKeyword at h
  rw [Bool.and_eq_true, beq_iff_eq] at h
  obtain ⟨hrule, htoken⟩ := h
  rw [n.phrase_roles_eq]
  change n.clause.specifier.Yields _
  unfold Clause.specifier
  rw [show n.clause.rule = .token from hrule]
  refine (Yields.leafToken n).bind fun t ht => ?_
  rw [ht, Option.any_some, Bool.not_eq_true'] at htoken
  rw [htoken, if_neg Bool.false_ne_true]
  split
  · exact Yields.next fun _ => .ret hnone
  · split
    · exact .ret hnone
    · split
      next ty hty =>
        refine .ret fun t ht c hc => ?_
        cases ht
        subst hc
        unfold TokenKind.primitive? at hty
        split at hty <;> cases hty
      next => exact .fault _

/-- Keywords alone name no class. -/
theorem yields_keywords (h : n.namesClass = false) :
    (checkSpecifiers? (n.phrase.part? 0)).Yields fun base => ∀ c, base ≠ .object c := by
  unfold namesClass at h
  rw [n.phrase_part?]
  cases hchild : n.child? 0 with
  | none => exact .ret fun c hc => by cases hc
  | some r =>
    rw [hchild, Option.any_some] at h
    have hitems : ∀ item ∈ r.phrase.flatten,
        item.roles.specifier.Yields fun ty => ∀ t, ty = some t → ∀ c, t ≠ .object c := by
      intro item hitem
      rw [r.phrase_flatten] at hitem
      obtain ⟨m, hm, rfl⟩ := List.mem_map.mp hitem
      refine yields_keyword ?_
      simpa using List.any_eq_false.mp h m hm
    have hstep : ∀ base, ∀ item ∈ r.phrase.flatten, StepRules.yields.triple
        (True ∧ ∀ t, base = some t → ∀ c, t ≠ .object c) (Phrase.specifierAfter base item)
        fun ty => ∀ t, ty = some t → ∀ c, t ≠ .object c := by
      intro base item hitem hbase
      unfold Phrase.specifierAfter
      refine (hitems item hitem).bind fun ty hty => ?_
      split
      · exact .ret hbase.2
      · exact .ret hty
      · exact Yields.next fun _ => .ret hbase.2
    have hfold := StepRules.yields.foldlM (b := none) (fun _ t ht => by cases ht) hstep
    refine (hfold trivial).bind fun ty hty => .ret fun c hc => ?_
    cases ty with
    | none => cases hc
    | some t => exact hty t rfl c hc

/-- If the tree gives given names to objects of classes, then so do all constructs inside of it. -/
theorem namesObjects {D : String → Prop} (h : ∀ name ∈ n.objectNames, D name) :
    ∀ m ∈ n.subtrees, m.phrase.NamesObjects D := by
  intro m hm
  cases hclass : m.namesClass with
  | false =>
    refine (yields_keywords hclass).mono fun base hbase d hd => ?_
    obtain ⟨k, rfl⟩ := exists_of_mem_declarators hd
    exact names_of_ne hbase k
  | true =>
    intro _ base _ _ d hd
    obtain ⟨k, rfl⟩ := exists_of_mem_declarators hd
    refine names_phrase (fun name hname => h name ?_) base
    refine List.mem_flatMap.mpr ⟨m, hm, ?_⟩
    rw [if_pos hclass]
    exact List.mem_filterMap.mpr ⟨k.phrase, hd, by rwa [k.phrase_node]⟩

end Node

end CWithClasses
