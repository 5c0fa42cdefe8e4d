import CWithClasses.Proofs.Members.Effect
import CWithClasses.Proofs.Members.Plain

/-!
# Plain member declarations

Two runs of a plain member declaration have the same effect, up to the numbers of functions. The
bodies that are left to be checked are those of functions that have become members.
-/

namespace CWithClasses

open Check

/-! ### Bodies of methods -/

/-- The parameter with new numbers in its type. -/
def Parameter.rename (σ : Renaming) (p : Parameter) : Parameter := { p with ty := p.ty.rename σ }

/-- The function body with new numbers. -/
def FunctionBody.rename (σ : Renaming) (b : FunctionBody) : FunctionBody :=
  { b with
    ty := b.ty.rename σ
    parameters := b.parameters.map (Parameter.rename σ)
    cls := b.cls.map (ClassRef.rename σ) }

/-- Parameters that are alike are equal up to numbers. -/
theorem Parameter.Alike.eq_map {σ : Renaming} {params params' : List Parameter}
    (h : List.Forall₂ (Parameter.Alike σ.view) params params') :
    params' = params.map (Parameter.rename σ) := by
  induction h with
  | nil => rfl
  | @cons p q rest rest' hpq _ ih =>
    have hq : q = p.rename σ := by
      obtain ⟨name, ty, hasDefault⟩ := q
      obtain ⟨rfl, rfl, rfl, -⟩ := hpq
      rfl
    rw [List.map_cons, ih, hq]

/-- The body of a function that an effect adds to a class. Nothing is defined inside of it. -/
structure FunctionBody.Inline (E : Effect) (b : FunctionBody) : Prop where
  cls : b.cls = none
  attach : b.attach = true
  function : b.ty.function?.isSome = true
  member : ∃ m ∈ E.members, m.ty = b.ty
  ctorInit : ∀ p, b.ctorInit = some p → ∃ n : Node, n.definesNothing = true ∧ p = n.phrase
  body : ∃ n : Node, n.definesNothing = true ∧ b.body = n.phrase

/-- New numbers in the body of a method. -/
theorem FunctionBody.Inline.rename {E : Effect} {b : FunctionBody} (h : b.Inline E) (σ : Renaming) :
    (b.rename σ).Inline (E.rename σ) where
  cls := by
    change b.cls.map _ = none
    rw [h.cls]
    rfl
  attach := h.attach
  function := by
    change (b.ty.rename σ).function?.isSome = true
    rw [Ty.function?_rename, Option.isSome_map]
    exact h.function
  member := by
    obtain ⟨m, hm, hty⟩ := h.member
    exact ⟨m.rename σ, List.mem_map_of_mem hm, congrArg (Ty.rename σ) hty⟩
  ctorInit := h.ctorInit
  body := h.body

namespace Region

/-- The classes that type names mean keep their numbers. -/
def Fixes (P : Region) (σ : Renaming) : Prop :=
  ∀ name ∈ P.types, ∀ c, P.meaning name = .ok c → σ.cls c.id = c.id

variable {P : Region} {σ : Renaming} {bound : Nat} {n : Node} {s : Checker}

/-! ### Steps at a place -/

/-- Reading the table. -/
theorem Declares.symbols {α β : Type} {N : List String} {k : SymbolTable → Check α}
    {k' : SymbolTable → Check β} {R : Effect → α → β → Prop}
    (hk : ∀ s s', P.Facing σ bound N s s' →
      P.Declares σ bound N (k s.symbols) (k' s'.symbols) R) :
    P.Declares σ bound N (Check.symbols >>= k) (Check.symbols >>= k') R :=
  fun s s' h => hk s s' h s s' h

/-- The innermost scope is the body of the class. -/
theorem Holds.cls?_eq (h : P.Holds s) : s.symbols.current.cls? = some P.cls := by
  unfold Frame.cls?
  rw [h.kind]

/-- A fresh name means nothing in the class. -/
theorem Fresh.lookupLocal?_eq {name : String} (h : P.Fresh [name] s) (hs : P.Holds s) :
    s.symbols.lookupLocal? name = none := by
  unfold SymbolTable.lookupLocal? SymbolTable.findIn
  rw [hs.cls?_eq]
  change (s.symbols.member? P.cls name).map (·.2) = none
  rw [h.free name List.mem_cons_self]
  rfl

/-- Adding a member of a fresh name. -/
theorem Fresh.declare_eq {name : String} (h : P.Fresh [name] s) (hs : P.Holds s)
    (position : Position) (ty : Ty) :
    ∃ s₁, Check.declare name position ty s = .ok () s₁ ∧
      Checker.Takes P.cls s { members := [⟨P.access, name, ty⟩] } s₁ := by
  have hnone : (s.symbols.classBody P.cls).member? name = none := h.free name List.mem_cons_self
  have hadd : (s.symbols.classBody P.cls).add name ty P.access =
      .ok ((s.symbols.classBody P.cls).gain { members := [⟨P.access, name, ty⟩] }) := by
    unfold ClassBody.add
    rw [hnone]
    cases P.access <;> rfl
  have hinsert : s.symbols.insert name ty = .ok (s.symbols.modifyClass P.cls fun _ =>
      (s.symbols.classBody P.cls).gain { members := [⟨P.access, name, ty⟩] }) := by
    unfold SymbolTable.insert SymbolTable.addMember
    rw [hs.cls?_eq, hs.access]
    dsimp only
    rw [hadd]
  have hclasses : s.symbols.classes.modify P.cls.id (fun _ =>
      (s.symbols.classBody P.cls).gain { members := [⟨P.access, name, ty⟩] }) =
      s.symbols.classes.modify P.cls.id fun b => b.gain { members := [⟨P.access, name, ty⟩] } := by
    refine Array.ext_getElem? fun i => ?_
    rw [Array.getElem?_modify, Array.getElem?_modify]
    split
    next heq =>
      subst heq
      unfold SymbolTable.classBody
      rw [Array.getElem?_eq_getElem hs.made]
      rfl
    next => rfl
  refine ⟨_, Check.declare_eq position hinsert, s.log, ?_⟩
  unfold SymbolTable.modifyClass Checker.taking SymbolTable.modifyClass
  rw [hclasses, s.withFunctions_zero, List.append_nil]

/-- Adding a member of a fresh name, in both runs. -/
theorem declare (name : String) (position : Position) (ty : Ty) :
    P.Declares σ bound [name] (Check.declare name position ty)
      (Check.declare name position (ty.rename σ)) fun E _ _ => ∃ m ∈ E.members, m.ty = ty := by
  intro s s' h a s₁ hrun
  obtain ⟨s₂, hrun₂, hE⟩ := h.freshLeft.declare_eq h.left position ty
  obtain ⟨s₂', hrun₂', hE'⟩ := h.freshRight.declare_eq h.right position (ty.rename σ)
  rw [hrun₂] at hrun
  cases hrun
  have hmember : ∃ m ∈ [(⟨P.access, name, ty⟩ : Member)], m.ty = ty :=
    ⟨_, List.mem_cons_self, rfl⟩
  have hwithin : Effect.Within { members := [⟨P.access, name, ty⟩] } P.access [name] := by
    refine ⟨fun m hm => ?_, List.Sublist.refl _⟩
    rw [List.mem_singleton.mp hm]
  exact ⟨_, hE, hwithin, ⟨(), hmember⟩, fun _ => ⟨(), s₂', hrun₂', hE', hmember⟩⟩

/-- Declaring a function of a fresh name. -/
theorem declareFunction (name : DeclaredName) (ty : Ty) :
    P.Declares σ bound [name.name] (CWithClasses.declareFunction name ty)
      (CWithClasses.declareFunction name (ty.rename σ))
      fun E a b => a = ty ∧ b = ty.rename σ ∧ ∃ m ∈ E.members, m.ty = ty := by
  unfold CWithClasses.declareFunction
  refine .symbols fun s s' h => ?_
  rw [h.freshLeft.lookupLocal?_eq h.left, h.freshRight.lookupLocal?_eq h.right]
  dsimp only
  refine .seq (declare name.name name.position ty) fun E _ _ hE => ?_
  exact .ret ⟨rfl, rfl, by simpa [Effect.append] using hE⟩

/-- In the body of a class, no object is constructed. -/
theorem checkDefaultConstruction (ty : Ty) (position : Position) :
    P.Declares σ bound [] (CWithClasses.checkDefaultConstruction ty position)
      (CWithClasses.checkDefaultConstruction (ty.rename σ) position) fun _ _ _ => True := by
  unfold CWithClasses.checkDefaultConstruction
  refine .symbols fun s s' h => ?_
  have hbody : ∀ {s : Checker}, P.Holds s → s.symbols.current.isClassBody = true := by
    intro s hs
    unfold Frame.isClassBody
    rw [hs.cls?_eq]
    rfl
  rw [Ty.objectClass?_rename, hbody h.left, hbody h.right]
  cases ty.objectClass? with
  | none => exact .ret trivial
  | some c => exact .ret trivial

/-- A member without an initializer has the type that it is declared with. -/
theorem checkInit (ty : Ty) (position : Position) :
    (P.declarators σ bound).pair (CWithClasses.checkInit ty position none)
      (CWithClasses.checkInit (ty.rename σ) position none) (P.declarators σ bound).ty :=
  PairRules.seq _ (checkDefaultConstruction ty position) fun _ _ _ => PairRules.ret _ rfl

/-- Declaring an object of a fresh name. -/
theorem declareObject (name : DeclaredName) (hname : name.cls = none) (ty : Ty) :
    P.Declares σ bound [name.name] (CWithClasses.declareObject name ty none)
      (CWithClasses.declareObject name (ty.rename σ) none) fun _ _ _ => True := by
  unfold CWithClasses.declareObject
  have hobject := DeclaratorPairs.checkObjectType (L := P.declarators σ bound) ty name.position
  refine .seq (N := []) hobject ?_
  rintro - ty _ rfl
  refine .seq (N := []) (checkInit ty name.position) ?_
  rintro - ty _ rfl
  rw [hname]
  exact .seq (M := []) (declare name.name name.position ty) fun _ _ _ _ => .ret trivial

/-! ### Specifiers and declarators -/

/-- The meaning of a known type name. -/
theorem resolveTypeName (hσ : P.Fixes σ) {t : Token} (ht : t.text ∈ P.types) :
    (P.declarators σ bound).pair (Check.resolveTypeName t) (Check.resolveTypeName t)
      (P.declarators σ bound).ty := by
  refine Declares.symbols fun s s' h => ?_
  rw [h.left.meaning t.text ht, h.right.meaning t.text ht]
  cases hmeaning : P.meaning t.text with
  | ok c =>
    refine (P.declarators σ bound).ret ?_
    change Ty.object c = .object ⟨σ.cls c.id, c.name⟩
    rw [hσ t.text ht c hmeaning]
  | error e => cases e <;> exact DeclaratorPairs.reject (L := P.declarators σ bound) _ _

/-- Plain specifiers. -/
theorem specifiers (hσ : P.Fixes σ) (hn : n.hasPlainSpecifiers P.types = true) :
    (P.declarators σ bound).pair n.phrase.specifiers n.phrase.specifiers
      (P.declarators σ bound).ty := by
  refine DeclaratorPairs.specifiers fun item hitem => ?_
  rw [n.phrase_flatten] at hitem
  obtain ⟨m, hm, rfl⟩ := List.mem_map.mp hitem
  have hplain := List.all_eq_true.mp hn m hm
  rw [Bool.and_eq_true, beq_iff_eq] at hplain
  have htoken : m.clause.specifier = m.clause.specifierToken := by
    unfold Clause.specifier
    rw [show m.clause.rule = .token from hplain.1]
  rw [m.phrase_roles_eq]
  change (P.declarators σ bound).pair m.clause.specifier m.clause.specifier _
  rw [htoken]
  refine DeclaratorPairs.specifierToken fun t ht hname => resolveTypeName hσ ?_
  have hknown := hplain.2
  replace ht : m.token = some t := ht
  rw [ht, Option.all_some, hname] at hknown
  simpa using hknown

/-- Plain specifiers that may be left out. -/
theorem checkSpecifiers (hσ : P.Fixes σ) {child : Option Node}
    (hn : child.all (Node.hasPlainSpecifiers P.types) = true) :
    (P.declarators σ bound).pair (checkSpecifiers? (child.map Node.phrase))
      (checkSpecifiers? (child.map Node.phrase)) (P.declarators σ bound).ty := by
  cases child with
  | none => exact (P.declarators σ bound).ret rfl
  | some m => exact specifiers hσ hn

/-- The type of a constant. -/
theorem constant (hn : n.isConstant = true) :
    (P.declarators σ bound).pair n.phrase.roles.expression n.phrase.roles.expression
      (P.declarators σ bound).ty := by
  rw [n.phrase_roles_eq]
  change (P.declarators σ bound).pair n.clause.expression n.clause.expression _
  unfold Node.isConstant at hn
  rw [Bool.or_eq_true, beq_iff_eq, Bool.and_eq_true, beq_iff_eq] at hn
  unfold Clause.expression
  rcases hn with hrule | ⟨hrule, hconstant⟩
  · rw [show n.clause.rule = .literal from hrule]
    refine PairRules.lift _ fun t _ => ?_
    split
    next ty hty => exact (P.declarators σ bound).ret (DeclaratorPairs.constant hty)
    next => exact PairRules.unexpected _ _ _
  · rw [show n.clause.rule = .token from hrule]
    refine PairRules.leaf _ fun t ht => ?_
    replace ht : n.token = some t := ht
    rw [ht, Option.any_some] at hconstant
    split
    next ty hty => exact (P.declarators σ bound).ret (DeclaratorPairs.constant hty)
    next hnone =>
      rw [hnone] at hconstant
      cases hconstant

/-- A dimension that is a literal. -/
theorem checkArraySize {child : Option Node} (hn : child.all Node.isLiteralSize = true) :
    (P.declarators σ bound).pair (CWithClasses.checkArraySize (child.map Node.phrase))
      (CWithClasses.checkArraySize (child.map Node.phrase)) Eq := by
  refine DeclaratorPairs.checkArraySize fun r hr hvalue hinvalid => ?_
  obtain ⟨m, rfl, rfl⟩ := Option.map_eq_some_iff.mp hr
  rw [m.phrase_node] at hvalue hinvalid
  rw [Option.all_some] at hn
  unfold Node.isLiteralSize at hn
  rw [hvalue, hinvalid] at hn
  exact constant hn

/-- All declarators and parameters in a plain declarator. -/
theorem plainLayers (hσ : P.Fixes σ) (hn : n.isPlainDeclarator P.types = true) :
    n.phrase.Throughout fun p => (P.declarators σ bound).Declarator p ∧
      (P.declarators σ bound).pair p.parameter p.parameter
        (Parameter.Alike (P.declarators σ bound).toView) := by
  unfold Node.isPlainDeclarator at hn
  rw [Bool.and_eq_true, List.all_eq_true] at hn
  refine Node.throughout_phrase fun m hm hparts => ?_
  have hplain := hn.1 m hm
  unfold Node.isPlainLayer at hplain
  have hnothing : ∀ k : Node, k.Avoids (P.declarators σ bound).hidden :=
    fun _ _ _ _ _ => List.not_mem_nil
  constructor
  · intro ty
    rw [m.phrase_roles_eq]
    refine DeclaratorPairs.declarator (hnothing _) (fun _ _ _ => hnothing _)
      (fun i r hr => (hparts i r hr).self.1) ?_ ?_ ty
    · intro hrule
      rw [m.clause_part?]
      refine checkArraySize ?_
      rcases hrule with hrule | hrule
      · rwa [show m.rule = .arrayDeclarator from hrule] at hplain
      · rwa [show m.rule = .abstractArray from hrule] at hplain
    · exact DeclaratorPairs.checkParameters fun r hr item hitem =>
        ((hparts 1 r hr).flatten item hitem).self.2
  · refine DeclaratorPairs.parameter ?_ (fun r hr => ?_) ?_
    · intro hrule r hr
      rw [m.phrase_part?, Option.map_eq_some_iff] at hr
      obtain ⟨k, hk, rfl⟩ := hr
      refine specifiers hσ ?_
      rw [m.phrase_rule] at hrule
      unfold Rule.isParameter at hrule
      split at hrule
      next h => simpa [h, hk] using hplain
      next h => simp [h] at hplain
      next h => simpa [h, hk] using hplain
      next h => simp [h] at hplain
      next => cases hrule
    · rw [← m.phrase_clause] at hparts
      exact (hparts 1 r hr).self.1
    · intro hrule
      rw [m.phrase_rule] at hrule
      unfold Rule.givesDefault at hrule
      split at hrule
      next h => simp [h] at hplain
      next h => simp [h] at hplain
      next => cases hrule

/-- A plain declarator, which introduces the name that it spells. -/
theorem declarator (hσ : P.Fixes σ) (hn : n.isPlainDeclarator P.types = true) (base : Ty) :
    P.Declares σ bound [] (n.phrase.roles.declarator base)
      (n.phrase.roles.declarator (base.rename σ))
      fun _ d e => Declared.Alike σ.view d e ∧ d.NamedBy n :=
  Declares.yields ((plainLayers hσ hn).self.1 base) (n.yields_declaredName base)

/-- What a plain declarator declares. -/
theorem initDeclarator (hσ : P.Fixes σ) (hn : n.isPlainDeclarator P.types = true) (base : Ty) :
    P.Declares σ bound n.declaredName?.toList
      (do let _ ← n.phrase.initDeclarator base none)
      (do let _ ← n.phrase.initDeclarator (base.rename σ) none) fun _ _ _ => True := by
  have hsome : n.declaredName?.isSome = true := (Bool.and_eq_true_iff.mp hn).2
  obtain ⟨f, hf⟩ := Option.isSome_iff_exists.mp hsome
  rw [hf]
  refine .seq (N := [f]) (M := []) (R := fun _ _ _ => True) ?_
    fun _ _ _ _ => .ret trivial
  unfold Phrase.initDeclarator
  refine .seq (N := []) (declarator hσ hn base) ?_
  rintro - d e ⟨hde, hnamed⟩
  obtain ⟨position, hname⟩ := hnamed f hf
  rw [hde.name, hde.ty, Ty.function?_rename, Option.isSome_map, hname]
  dsimp only
  split
  · exact (declareFunction { name := f, position } d.ty).mono fun _ _ _ _ => trivial
  · exact declareObject { name := f, position } rfl d.ty

/-! ### Member declarations -/

/-- A plain bit field. -/
theorem bitField (hσ : P.Fixes σ) {m : Option Node}
    (hm : m.all (Node.isPlainDeclarator P.types) = true)
    (hn : (n.child? 1).any Node.isConstant = true)
    (hchild : n.child? 0 = m) (base : Ty) :
    P.Declares σ bound (m.bind Node.declaredName?).toList (n.phrase.bitField base)
      (n.phrase.bitField (base.rename σ)) fun _ _ _ => True := by
  unfold Phrase.bitField
  refine .part fun q hq => ?_
  have hconstant : (P.declarators σ bound).pair q.roles.expression q.roles.expression
      (P.declarators σ bound).ty := by
    rw [n.phrase_clause] at hq
    obtain ⟨width, hwidth, rfl⟩ := n.child_of_part? hq
    rw [hwidth] at hn
    exact constant hn
  have hintegral := DeclaratorPairs.checkIntegral (L := P.declarators σ bound)
  refine .seq (N := []) hconstant ?_
  rintro - ty _ rfl
  refine .seq (N := []) (hintegral base _) fun _ _ _ _ => ?_
  refine .seq (N := []) (hintegral ty _) fun _ _ _ _ => ?_
  rw [n.phrase_part?, hchild]
  cases m with
  | none => exact .ret trivial
  | some m => exact initDeclarator hσ hm base

/-- One plain member of a member declaration. -/
theorem memberDeclarator (hσ : P.Fixes σ) (hn : n.isPlainMember P.types = true) (base : Ty) :
    P.Declares σ bound n.itemName?.toList (n.phrase.memberDeclarator base)
      (n.phrase.memberDeclarator (base.rename σ)) fun _ _ _ => True := by
  unfold Node.isPlainMember at hn
  unfold Phrase.memberDeclarator Node.itemName?
  rw [n.phrase_rule]
  split at hn
  next hrule =>
    rw [hrule]
    refine .part fun q hq => ?_
    rw [n.phrase_clause] at hq
    obtain ⟨m, hm, rfl⟩ := n.child_of_part? hq
    rw [hm] at hn ⊢
    exact initDeclarator hσ hn base
  next hrule =>
    rw [hrule]
    rw [Bool.and_eq_true] at hn
    exact bitField hσ hn.1 hn.2 rfl base
  next => cases hn
  next => cases hn
  next =>
    split
    any_goals contradiction
    split
    any_goals contradiction
    exact initDeclarator hσ hn base

/-- One plain item of any other declaration. -/
theorem initDeclItem (hσ : P.Fixes σ) (hn : n.isPlainItem P.types = true) (base : Ty) :
    P.Declares σ bound n.itemName?.toList (n.phrase.initDeclItem base)
      (n.phrase.initDeclItem (base.rename σ)) fun _ _ _ => True := by
  unfold Node.isPlainItem at hn
  unfold Phrase.initDeclItem Node.itemName?
  rw [n.phrase_rule]
  split at hn
  next hrule =>
    rw [if_pos hrule, hrule]
    rw [Bool.and_eq_true, Option.isNone_iff_eq_none] at hn
    refine .part fun q hq => ?_
    rw [n.phrase_part?, hn.2]
    rw [n.phrase_clause] at hq
    obtain ⟨m, hm, rfl⟩ := n.child_of_part? hq
    rw [hm] at hn ⊢
    exact initDeclarator hσ hn.1 base
  next => cases hn
  next => cases hn
  next hinit _ _ =>
    rw [if_neg hinit, if_neg hinit]
    split
    any_goals contradiction
    exact initDeclarator hσ hn base

/-- The items of a declaration, as phrases. -/
theorem flatten_items (n : Node) :
    Phrase.flatten? (n.phrase.part? 1) = n.declaredItems.map Node.phrase := by
  unfold Node.declaredItems
  rw [n.phrase_part?]
  cases n.child? 1 with
  | none => rfl
  | some m => exact m.phrase_flatten

/-- All items of a declaration. -/
theorem declaredItems (declare : Phrase → Ty → Check Unit) (base : Ty)
    (hitems : ∀ m ∈ n.declaredItems, P.Declares σ bound m.itemName?.toList (declare m.phrase base)
      (declare m.phrase (base.rename σ)) fun _ _ _ => True) :
    P.Declares σ bound (n.declaredItems.filterMap Node.itemName?)
      ((Phrase.flatten? (n.phrase.part? 1)).forM fun item => declare item base)
      ((Phrase.flatten? (n.phrase.part? 1)).forM fun item => declare item (base.rename σ))
      fun _ _ _ => True := by
  have hnames : n.declaredItems.filterMap Node.itemName? =
      n.declaredItems.flatMap fun m => m.itemName?.toList := by
    induction n.declaredItems with
    | nil => rfl
    | cons m rest ih => cases hname : m.itemName? <;> simp [hname, ih]
  have hmap : ∀ f : Phrase → Check Unit, (n.declaredItems.map Node.phrase).forM f =
      n.declaredItems.forM fun m => f m.phrase := fun f => List.forM_map ..
  rw [flatten_items, hnames, hmap, hmap]
  exact .forM hitems

/-- A definition of a fresh name. -/
theorem defineLocal (name : DeclaredName) (ty : Ty) :
    P.Declares σ bound [name.name] (CWithClasses.defineLocal name ty)
      (CWithClasses.defineLocal name (ty.rename σ))
      fun E a b => a = { ty, attach := true } ∧ b = { ty := ty.rename σ, attach := true } ∧
        ∃ m ∈ E.members, m.ty = ty := by
  unfold CWithClasses.defineLocal
  refine .symbols fun s s' h => ?_
  rw [h.freshLeft.lookupLocal?_eq h.left, h.freshRight.lookupLocal?_eq h.right]
  refine .seq (M := []) (declareFunction name ty) ?_
  rintro E _ _ ⟨rfl, rfl, hmember⟩
  exact .ret ⟨rfl, rfl, by simpa [Effect.append] using hmember⟩

/-- The parts of a plain function definition. -/
theorem functionParts (hn : n.isPlain P.types = true)
    (hrule : n.rule = .functionDef ∨ n.rule = .constructorDef) :
    n.clause.functionParts.Yields fun a =>
      (∃ specifiers : Option Node, specifiers.all (Node.hasPlainSpecifiers P.types) = true ∧
        a.1 = specifiers.map Node.phrase) ∧
      (∃ m : Node, m.isPlainDeclarator P.types = true ∧ m.declaredName? = n.definedName? ∧
        a.2.1 = m.phrase) ∧
      (∀ p, a.2.2.1 = some p → ∃ m : Node, m.definesNothing = true ∧ p = m.phrase) ∧
      ∃ m : Node, m.definesNothing = true ∧ a.2.2.2 = m.phrase := by
  have hslot : ∀ {i : Nat} {q : Phrase}, n.clause.part? i = some q →
      ∃ m : Node, n.child? i = some m ∧ q = m.phrase := by
    intro i q hq
    obtain ⟨m, hm, rfl⟩ := n.child_of_part? hq
    exact ⟨m, hm, rfl⟩
  unfold Node.isPlain at hn
  unfold Clause.functionParts Node.definedName?
  rcases hrule with hrule | hrule
  · rw [show n.clause.rule = .functionDef from hrule, hrule]
    rw [hrule, Bool.and_eq_true, Bool.and_eq_true] at hn
    refine (Check.Yields.part n.clause 1).bind fun q hq => ?_
    refine (Check.Yields.part n.clause 2).bind fun r hr => .ret ?_
    obtain ⟨m, hm, rfl⟩ := hslot hq
    obtain ⟨k, hk, rfl⟩ := hslot hr
    rw [hm, hk] at hn
    rw [hm]
    refine ⟨⟨_, hn.1.1, n.clause_part? 0⟩, ⟨m, hn.1.2, rfl, rfl⟩, ?_, ⟨k, hn.2, rfl⟩⟩
    rintro p hp
    cases hp
  · rw [show n.clause.rule = .constructorDef from hrule, hrule]
    rw [hrule, Bool.and_eq_true, Bool.and_eq_true] at hn
    refine (Check.Yields.part n.clause 0).bind fun q hq => ?_
    refine (Check.Yields.part n.clause 1).bind fun init hinit => ?_
    refine (Check.Yields.part n.clause 2).bind fun r hr => .ret ?_
    obtain ⟨m, hm, rfl⟩ := hslot hq
    obtain ⟨j, hj, rfl⟩ := hslot hinit
    obtain ⟨k, hk, rfl⟩ := hslot hr
    rw [hm, hj, hk] at hn
    rw [hm]
    refine ⟨⟨none, rfl, rfl⟩, ⟨m, hn.1.1, rfl, rfl⟩, ?_, ⟨k, hn.2, rfl⟩⟩
    rintro p hp
    exact ⟨j, hn.1.2, (Option.some.inj hp).symm⟩

/-- Declaring the function of a plain definition. -/
theorem declareFunctionDef (hσ : P.Fixes σ) (hn : n.isPlain P.types = true)
    (hrule : n.rule = .functionDef ∨ n.rule = .constructorDef) :
    P.Declares σ bound n.definedName?.toList n.clause.declareFunctionDef n.clause.declareFunctionDef
      fun E a b => b = a.rename σ ∧ a.Inline E := by
  unfold Clause.declareFunctionDef
  have hparts : P.Declares σ bound [] n.clause.functionParts n.clause.functionParts
      fun _ a b => a = b := by
    unfold Clause.functionParts
    split
    · exact .part fun _ _ => .part fun _ _ => .ret rfl
    · exact .part fun _ _ => .part fun _ _ => .part fun _ _ => .ret rfl
    · exact .fault _
  refine .seq (N := []) (hparts.yields (functionParts hn hrule)) ?_
  rintro - ⟨specifiers, declarator, init, body⟩ _ ⟨rfl, ⟨base, hbase, rfl⟩, ⟨m, hm, hname, rfl⟩,
    hinit, hbody⟩
  have hsome : m.declaredName?.isSome = true := (Bool.and_eq_true_iff.mp hm).2
  obtain ⟨f, hf⟩ := Option.isSome_iff_exists.mp hsome
  rw [← hname, hf]
  refine .seq (N := []) (checkSpecifiers hσ hbase) ?_
  rintro - base _ rfl
  refine .seq (N := []) (Region.declarator hσ hm base) ?_
  rintro - d e ⟨hde, hnamed⟩
  obtain ⟨position, hdname⟩ := hnamed f hf
  have hparameters := hde.parameters
  rw [hde.name, hde.ty, Ty.function?_rename, hdname]
  generalize d.parameters = params at hparameters
  generalize e.parameters = params' at hparameters
  cases hparameters with
  | none => exact .fault _
  | @some params params' hparams =>
    cases hfunction : d.ty.function? with
    | none => exact .fault _
    | some function =>
      refine .seq (M := []) (defineLocal { name := f, position } d.ty) ?_
      rintro E _ _ ⟨rfl, rfl, hmember⟩
      refine .ret ⟨?_, rfl, rfl, ?_, ?_, hinit, hbody⟩
      · rw [Parameter.Alike.eq_map hparams]
        rfl
      · rw [hfunction]
        rfl
      · obtain ⟨member, hmem, hty⟩ := hmember
        exact ⟨member, by simp [Effect.append, hmem], hty⟩

/-- A plain definition of a method. -/
theorem methodDefinition (hσ : P.Fixes σ) (hn : n.isPlain P.types = true)
    (hrule : n.rule = .functionDef ∨ n.rule = .constructorDef) :
    P.Declares σ bound n.definedName?.toList (do return [← n.clause.declareFunctionDef])
      (do return [← n.clause.declareFunctionDef])
      fun E a b => b = a.map (FunctionBody.rename σ) ∧ ∀ body ∈ a, body.Inline E := by
  rw [← List.append_nil n.definedName?.toList]
  refine .seq (declareFunctionDef hσ hn hrule) ?_
  rintro E b _ ⟨rfl, hinline⟩
  refine .ret ⟨rfl, fun body hbody => ?_⟩
  rw [List.mem_singleton.mp hbody]
  exact ⟨hinline.cls, hinline.attach, hinline.function, hinline.member, hinline.ctorInit,
    hinline.body⟩

/-- Declarations that leave no body to be checked. -/
theorem withoutBodies {N : List String} {x y : Check Unit}
    (h : P.Declares σ bound N x y fun _ _ _ => True) :
    P.Declares σ bound N (do x; return ([] : List FunctionBody))
      (do y; return ([] : List FunctionBody)) fun _ a b => a = [] ∧ b = [] := by
  rw [← List.append_nil N]
  exact .seq h fun _ _ _ _ => .ret ⟨rfl, rfl⟩

/-- A plain member declaration. -/
theorem memberDeclaration (hσ : P.Fixes σ) (hn : n.isPlain P.types = true) :
    P.Declares σ bound n.memberNames n.phrase.memberDeclaration n.phrase.memberDeclaration
      fun E a b => b = a.map (FunctionBody.rename σ) ∧ ∀ body ∈ a, body.Inline E := by
  have hnone : ∀ (E : Effect) (a b : List FunctionBody), a = [] ∧ b = [] →
      b = a.map (FunctionBody.rename σ) ∧ ∀ body ∈ a, body.Inline E := by
    rintro E _ _ ⟨rfl, rfl⟩
    exact ⟨rfl, fun _ hbody => by cases hbody⟩
  have hplain := hn
  unfold Node.isPlain at hn
  unfold Phrase.memberDeclaration Node.memberNames
  rw [n.phrase_rule, n.phrase_clause]
  split at hn
  next hrule =>
    rw [hrule]
    exact methodDefinition hσ hplain (.inl hrule)
  next hrule =>
    rw [hrule]
    exact methodDefinition hσ hplain (.inr hrule)
  next hrule =>
    rw [hrule, n.phrase_part? 0]
    rw [Bool.and_eq_true, List.all_eq_true] at hn
    refine .mono (.seq (N := []) (checkSpecifiers hσ hn.1) ?_) hnone
    rintro - base _ rfl
    refine withoutBodies (declaredItems Phrase.memberDeclarator base fun m hm => ?_)
    exact memberDeclarator hσ (hn.2 m hm) base
  next hrule =>
    rw [hrule]
    rw [Bool.and_eq_true, List.all_eq_true] at hn
    refine .mono (withoutBodies ?_) hnone
    unfold Clause.simpleDeclaration
    refine .part fun q hq => ?_
    obtain ⟨m, hm, rfl⟩ := n.child_of_part? hq
    rw [hm] at hn
    refine .seq (N := []) (specifiers hσ hn.1) ?_
    rintro - base _ rfl
    rw [← n.phrase_clause]
    exact declaredItems Phrase.initDeclItem base fun m hm => initDeclItem hσ (hn.2 m hm) base
  next => cases hn

end Region

end CWithClasses
