import CWithClasses.Proofs.Members.Order
import CWithClasses.Proofs.Prototypes

/-!
# The members that a class declares

The member specification of a class is a chain of declarations and access specifiers. `Node.Regions`
tells the access regions of the declarations. `Composes` and `Fills` tell the members that they
introduce, each with its type: a declarator is read in the body of the class, behind the members
that are declared before it.
-/

namespace CWithClasses

open Check

/-! ### Declarations of members -/

namespace Node

/-- The declarations of a member specification, each with its access region. The specification
starts in the given one, and access specifiers change it. -/
inductive Regions : Access → Option Node → List (Access × Node) → Prop
  | none (access : Access) : Regions access none []
  | member {access : Access} {n d : Node} {rest : List (Access × Node)} :
      n.rule = .memberSpec → n.child? 0 = some d → Regions access (n.child? 1) rest →
      Regions access (some n) ((access, d) :: rest)
  | publicAccess {access : Access} {n word : Node} {key : Token} {rest : List (Access × Node)} :
      n.rule = .accessSpec → n.child? 0 = some word → word.token = some key →
      key.kind = .publicAccess → Regions .pub (n.child? 1) rest → Regions access (some n) rest
  | privateAccess {access : Access} {n word : Node} {key : Token} {rest : List (Access × Node)} :
      n.rule = .accessSpec → n.child? 0 = some word → word.token = some key →
      key.kind = .privateAccess ∨ key.kind = .protectedAccess → Regions .priv (n.child? 1) rest →
      Regions access (some n) rest
  | last {access : Access} {d : Node} : d.rule ≠ .memberSpec → d.rule ≠ .accessSpec →
      Regions access (some d) [(access, d)]

/-- The regions of a member specification, told from its links. -/
theorem Regions.placedFrom? {access : Access} {spec : Option Node} {L : List (Access × Node)}
    (h : Regions access spec L) :
    Node.placedFrom? access ((spec.map memberLinks).getD []) = some L := by
  have hlinks : ∀ n : Node, n.rule = .memberSpec ∨ n.rule = .accessSpec →
      n.memberLinks = n :: ((n.child? 1).map memberLinks).getD [] := by
    intro n hrule
    rw [n.memberLinks_eq, if_pos hrule]
  induction h with
  | none => rfl
  | @member access n d rest hrule hd _ ih =>
    rw [Option.map_some, Option.getD_some, hlinks n (.inl hrule), Node.placedFrom?, hrule, hd, ih]
    rfl
  | @publicAccess access n word key rest hrule hword hkey hkind _ ih =>
    rw [Option.map_some, Option.getD_some, hlinks n (.inr hrule), Node.placedFrom?, hrule, hword]
    simp only [Option.bind_eq_bind, Option.bind_some, hkey, hkind, TokenKind.access?, ih]
  | @privateAccess access n word key rest hrule hword hkey hkind _ ih =>
    rw [Option.map_some, Option.getD_some, hlinks n (.inr hrule), Node.placedFrom?, hrule, hword]
    rcases hkind with hkind | hkind <;>
      simp only [Option.bind_eq_bind, Option.bind_some, hkey, hkind, TokenKind.access?, ih]
  | @last access d hspec haccess =>
    rw [Option.map_some, Option.getD_some, d.memberLinks_eq, if_neg (not_or.mpr ⟨hspec, haccess⟩),
      Node.placedFrom?]
    split
    · contradiction
    · contradiction
    · rfl

/-- The declarator of an item of a declaration. A bit field may be without one. -/
def itemDeclarator? (n : Node) : Option Node :=
  match n.rule with
  | .pureMember | .bitField | .initDecl => n.child? 0
  | _ => some n

/-- The specifiers of a member declaration. Constructors with member initializers have none. -/
def memberSpecifiers? (n : Node) : Option Node :=
  match n.rule with
  | .constructorDef => none
  | _ => n.child? 0

/-- The declarators of a member declaration, in source order. -/
def memberDeclarators (n : Node) : List Node :=
  match n.rule with
  | .functionDef => (n.child? 1).toList
  | .constructorDef => (n.child? 0).toList
  | _ => n.declaredItems.filterMap itemDeclarator?

/-- An item that is not initialized. -/
def isUninitialized (n : Node) : Bool :=
  n.rule != .initializedMember && (n.rule != .initDecl || (n.child? 1).isNone)

/-- A declaration of members with plain names and without initializers. Only the bodies of functions
may contain classes. -/
def declaresMembers (n : Node) : Bool :=
  n.memberDeclarators.all (fun q => q.declaredName?.isSome) &&
    match n.rule with
    | .functionDef | .constructorDef => n.isPlainDefinition
    | _ => n.isClassFree && n.declaredItems.all isUninitialized

/-- Taking a part of the phrase of a tree. -/
theorem exists_of_part {α : Type} {n : Node} {i : Nat} {f : Phrase → Check α}
    {s s' : Checker} {a : α} (h : (n.phrase.part i >>= f) s = .ok a s') :
    ∃ m, n.child? i = some m ∧ f m.phrase s = .ok a s' := by
  unfold Phrase.part at h
  rw [n.phrase_clause] at h
  unfold Clause.part at h
  rw [n.clause_part?] at h
  cases hm : n.child? i with
  | none =>
    rw [hm] at h
    cases h
  | some m =>
    rw [hm] at h
    exact ⟨m, rfl, h⟩

/-- What a member declarator does depends on its rule. -/
theorem memberDeclarator_cases (q : Node) (base : Ty) :
    (q.rule = .pureMember ∧ q.phrase.memberDeclarator base = (do
      let _ ← (← q.phrase.part 0).initDeclarator base none)) ∨
    q.rule = .initializedMember ∨
    (q.rule = .bitField ∧ q.phrase.memberDeclarator base = q.phrase.bitField base) ∨
    q.phrase.memberDeclarator base = (do let _ ← q.phrase.initDeclarator base none) := by
  unfold Phrase.memberDeclarator
  rw [q.phrase_rule]
  split
  next hrule => exact .inl ⟨hrule, rfl⟩
  next hrule => exact .inr (.inl hrule)
  next hrule => exact .inr (.inr (.inl ⟨hrule, rfl⟩))
  next => exact .inr (.inr (.inr rfl))

/-- An item that can be read as a declarator is one. -/
theorem itemDeclarator?_of_initDeclarator {q : Node} {base ty : Ty} {init : Option Phrase}
    {s s' : Checker} (h : q.phrase.initDeclarator base init s = .ok ty s') :
    q.itemDeclarator? = some q := by
  obtain ⟨declared, s₁, hread, -⟩ := exists_of_bind h
  rw [q.phrase_roles_eq] at hread
  replace hread : q.clause.declarator base s = .ok declared s₁ := hread
  obtain ⟨rule, children, token⟩ := q
  unfold itemDeclarator?
  cases rule <;> first | rfl | cases hread

/-- An item with a plain name and without an initializer, which is read without declaring
anything. -/
structure IsItem (q : Node) : Prop where
  obeys : (perusalLogic fun _ => True).Obeys q.phrase
  uninitialized : q.rule ≠ .initializedMember ∧ (q.rule = .initDecl → q.child? 1 = none)
  plain : ∀ r, q.itemDeclarator? = some r → r.declaredName?.isSome

/-- What an item is made of is read without declaring anything. -/
theorem IsItem.child {q r : Node} {i : Nat} (h : q.IsItem) (hr : q.child? i = some r) :
    (perusalLogic fun _ => True).Obeys r.phrase :=
  h.obeys.child hr

/-- What a member declaration does depends on its rule. -/
theorem memberDeclaration_cases (d : Node) :
    ((d.rule = .functionDef ∨ d.rule = .constructorDef) ∧ d.phrase.memberDeclaration = (do
      return [← d.phrase.clause.declareFunctionDef])) ∨
    (d.rule = .memberDecl ∧ d.phrase.memberDeclaration = (do
      let base ← checkSpecifiers? (d.phrase.part? 0)
      (Phrase.flatten? (d.phrase.part? 1)).forM fun item => item.memberDeclarator base
      return [])) ∨
    (d.rule = .simpleDecl ∧ d.phrase.memberDeclaration = (do
      d.phrase.clause.simpleDeclaration
      return [])) ∨
    d.phrase.memberDeclaration = d.phrase.unexpected "member declaration" := by
  unfold Phrase.memberDeclaration
  rw [d.phrase_rule]
  split
  next hrule => exact .inl ⟨.inl hrule, rfl⟩
  next hrule => exact .inl ⟨.inr hrule, rfl⟩
  next hrule => exact .inr (.inl ⟨hrule, rfl⟩)
  next hrule => exact .inr (.inr (.inl ⟨hrule, rfl⟩))
  next => exact .inr (.inr (.inr rfl))

/-- The items of a declaration of members. -/
theorem isItem_of_declaresMembers {d : Node} (h : d.declaresMembers = true)
    (hfunction : d.rule ≠ .functionDef) (hconstructor : d.rule ≠ .constructorDef) :
    (perusalLogic fun _ => True).Obeys d.phrase ∧ ∀ q ∈ d.declaredItems, q.IsItem := by
  unfold declaresMembers memberDeclarators at h
  split at h
  · contradiction
  · contradiction
  next =>
    simp only [Bool.and_eq_true, List.all_eq_true, List.mem_filterMap, forall_exists_index,
      and_imp] at h
    obtain ⟨hplain, hfree, hitems⟩ := h
    have hobeys := d.perused hfree (F := fun _ => True)
    refine ⟨hobeys, fun q hq => ⟨?_, ?_, fun r hr => hplain r q hq hr⟩⟩
    · refine Phrase.throughout_flatten? (fun r hr => hobeys.part hr) q.phrase ?_
        (p := d.phrase.part? 1)
      rw [Region.flatten_items]
      exact List.mem_map_of_mem hq
    · have hitem := hitems q hq
      unfold isUninitialized at hitem
      simp only [Bool.and_eq_true, Bool.or_eq_true, bne_iff_ne, Option.isNone_iff_eq_none] at hitem
      exact ⟨hitem.1, fun hrule => hitem.2.resolve_left fun hne => hne hrule⟩

/-- The parts of a function definition are its specifiers and its declarator. -/
theorem yields_functionParts (n : Node) : n.clause.functionParts.Yields fun parts =>
    parts.1 = n.memberSpecifiers?.map phrase ∧ ∃ q, n.memberDeclarators = [q] ∧
      parts.2.1 = q.phrase ∧ n.definedName? = q.declaredName? := by
  have hpart : ∀ {i : Nat} {d : Phrase}, n.clause.part? i = some d →
      ∃ q, n.child? i = some q ∧ d = q.phrase := by
    intro i d hd
    obtain ⟨q, hq, rfl⟩ := n.child_of_part? hd
    exact ⟨q, hq, rfl⟩
  unfold Clause.functionParts memberSpecifiers? memberDeclarators definedName?
  split
  next hrule =>
    replace hrule : n.rule = .functionDef := hrule
    rw [hrule]
    refine (Yields.part _ 1).bind fun d hd => Yields.next fun body => ?_
    obtain ⟨q, hq, rfl⟩ := hpart hd
    exact .ret ⟨n.clause_part? 0, q, by rw [hq]; rfl, rfl, by rw [hq]; rfl⟩
  next hrule =>
    replace hrule : n.rule = .constructorDef := hrule
    rw [hrule]
    refine (Yields.part _ 0).bind fun d hd => Yields.next fun init => Yields.next fun body => ?_
    obtain ⟨q, hq, rfl⟩ := hpart hd
    exact .ret ⟨rfl, q, by rw [hq]; rfl, rfl, by rw [hq]; rfl⟩
  next => exact .fault _

/-- The name that an item introduces is that of its declarator. -/
theorem itemName?_eq (n : Node) : n.itemName? = n.itemDeclarator?.bind declaredName? := by
  unfold itemName? itemDeclarator?
  cases n.rule <;> rfl

/-- The names that a member declaration introduces are those of its declarators. -/
theorem memberNames_eq (n : Node) :
    n.memberNames = n.memberDeclarators.filterMap declaredName? := by
  have htoList : ∀ q : Option Node, q.toList.filterMap declaredName? =
      (q.bind declaredName?).toList := by
    intro q
    cases q with
    | none => rfl
    | some m => cases hm : m.declaredName? <;> simp [hm]
  unfold memberNames memberDeclarators definedName?
  rw [funext itemName?_eq]
  cases hrule : n.rule <;> simp [htoList, List.filterMap_filterMap]

end Node

/-! ### The body of a class -/

/-- The table of an access region. The newest member is the first one. -/
def Member.tableOf (members : List Member) (access : Access) : Bindings :=
  ((members.filter fun m => m.access = access).map fun m => (m.name, m.ty)).reverse

/-- A class with the given members, in the order of their declarations. -/
def ClassBody.ofMembers (members : List Member) : ClassBody where
  publicMembers := Member.tableOf members .pub
  privateMembers := Member.tableOf members .priv

/-- The table in the body of a class that has got some members, after some functions were made. -/
def SymbolTable.inBody (t : SymbolTable) (c : ClassRef) (access : Access) (members : List Member)
    (count : Nat) : SymbolTable where
  current := { kind := .classBody c, access }
  outer := t.frames
  classes := (t.modifyClass c fun _ => .ofMembers members).classes
  bodies := t.bodies ++ Array.replicate count none

/-- The type of a member with a given declarator. No object is `void`. -/
def memberTy (ty : Ty) : Ty := if ty.isVoid then .unknown else ty

/-- Functions are no objects. -/
theorem memberTy_of_function {ty : Ty} (h : ty.function?.isSome) : memberTy ty = ty := by
  cases ty <;> first | rfl | cases h

/-- In the body of a class that has got some members, the declarators introduce further ones. Each
declarator is applied to the base type where the members before it are declared already. -/
inductive Composes (t : SymbolTable) (c : ClassRef) (access : Access) (base : Ty) :
    List Member → List Node → List Member → Prop
  | nil (old : List Member) : Composes t c access base old [] []
  | cons {old new : List Member} {q : Node} {rest : List Node} {name : String} {declared : Declared}
      {count : Nat} {s s' : Checker} : s.symbols = t.inBody c access old count →
      q.checkDeclarator base s = .ok declared s' → q.declaredName? = some name →
      Composes t c access base (old ++ [⟨access, name, memberTy declared.ty⟩]) rest new →
      Composes t c access base old (q :: rest) (⟨access, name, memberTy declared.ty⟩ :: new)

/-- In the body of a class that has got some members, the declarations introduce further ones. -/
inductive Fills (t : SymbolTable) (c : ClassRef) :
    List Member → List (Access × Node) → List Member → Prop
  | nil (old : List Member) : Fills t c old [] []
  | cons {old new more : List Member} {access : Access} {d : Node} {rest : List (Access × Node)}
      {base : Ty} {count : Nat} {s s' : Checker} : s.symbols = t.inBody c access old count →
      checkSpecifiers? (d.memberSpecifiers?.map Node.phrase) s = .ok base s' →
      Composes t c access base old d.memberDeclarators new → Fills t c (old ++ new) rest more →
      Fills t c old ((access, d) :: rest) (new ++ more)

namespace Composes

variable {t : SymbolTable} {c : ClassRef} {access : Access} {base : Ty} {old new : List Member}
  {qs : List Node}

/-- Some declarators and then others. -/
theorem append {new' : List Member} {qs' : List Node} (h : Composes t c access base old qs new)
    (h' : Composes t c access base (old ++ new) qs' new') :
    Composes t c access base old (qs ++ qs') (new ++ new') := by
  induction h with
  | nil old => rwa [List.append_nil] at h'
  | cons hs hread hname _ ih =>
    refine .cons hs hread hname (ih ?_)
    rwa [List.append_assoc, List.singleton_append]

/-- The members have the names that the declarators spell, and are in the access region. -/
theorem names (h : Composes t c access base old qs new) :
    new.map (fun m => (m.access, m.name)) = (qs.filterMap Node.declaredName?).map (access, ·) := by
  induction h with
  | nil => rfl
  | cons _ _ hname _ ih => rw [List.map_cons, ih, List.filterMap_cons_some hname, List.map_cons]

/-- The names of the members. -/
theorem map_name (h : Composes t c access base old qs new) :
    new.map Member.name = qs.filterMap Node.declaredName? := by
  have hnames := congrArg (List.map Prod.snd) h.names
  rw [List.map_map, List.map_map] at hnames
  exact hnames.trans (List.map_id _)

end Composes

/-- The members have the names that are declared, each in its region. -/
theorem Fills.names {t : SymbolTable} {c : ClassRef} {old new : List Member}
    {L : List (Access × Node)} (h : Fills t c old L new) :
    new.map (fun m => (m.access, m.name)) = L.flatMap fun d => d.2.memberNames.map (d.1, ·) := by
  induction h with
  | nil => rfl
  | cons _ _ hcomposes _ ih =>
    rw [List.map_append, ih, hcomposes.names, ← Node.memberNames_eq, List.flatMap_cons]

end CWithClasses
