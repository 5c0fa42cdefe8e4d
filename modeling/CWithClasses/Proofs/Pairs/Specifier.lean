import CWithClasses.Proofs.Pairs.Reading

/-!
# Two runs of type names and declarators

A phrase reads alike if its two runs give the same types up to their numbers: as an expression, as a
specifier and as a declarator. If all parts of a construct read alike, then so does the construct,
as long as it does not spell a hidden name.

A class specification is the one specifier that does not only read. What is needed about it stays a
hypothesis here.
-/

namespace CWithClasses

open Check

variable {L : ReadingPairs}

/-- The two runs of the phrase give types that differ in their numbers only. -/
structure Phrase.Reads (L : ReadingPairs) (p : Phrase) : Prop where
  avoids : p.node.Avoids L.hidden
  expression : L.pair p.roles.expression p.roles.expression L.ty
  specifier : L.pair p.roles.specifier p.roles.specifier L.choice
  declarator : L.Declarator p
  newDeclarator : ∀ ty, L.pair (p.roles.newDeclarator ty)
    (p.roles.newDeclarator (ty.rename L.toRenaming)) L.ty

namespace ReadingPairs

open DeclaratorPairs

/-- The phrase reads alike, and so does all that it is made of. -/
abbrev Reads (L : ReadingPairs) (p : Phrase) : Prop := p.Throughout (Phrase.Reads L)

variable {p : Phrase} {c : Clause} {q : Option Phrase}

/-! ### Specifiers -/

/-- A sequence of specifiers. -/
theorem specifiers (hp : L.Reads p) : L.pair p.specifiers p.specifiers L.ty :=
  DeclaratorPairs.specifiers fun item hitem => (hp.flatten item hitem).self.specifier

/-- A type name with an optional declarator. -/
theorem clauseTypeName (hparts : c.Throughout (Phrase.Reads L)) :
    L.pair c.typeName c.typeName L.ty := by
  unfold Clause.typeName
  refine L.part fun q hq => ?_
  refine L.seq (specifiers (hparts 0 q hq)) ?_
  rintro base _ rfl
  cases hpart : c.part? 1 with
  | none => exact L.ret rfl
  | some d =>
    refine L.seq ((hparts 1 d hpart).self.declarator base) fun _ _ hdeclared => ?_
    exact L.ret hdeclared.ty

/-- A type name, which may be a mere sequence of specifiers. -/
theorem typeName (hp : L.Reads p) : L.pair p.typeName p.typeName L.ty := by
  unfold Phrase.typeName
  split
  · exact clauseTypeName hp.clause
  · exact specifiers hp

/-! ### Declarators -/

/-- The size of an array dimension. -/
theorem checkArraySize (hq : ∀ r, q = some r → L.Reads r) :
    L.pair (CWithClasses.checkArraySize q) (CWithClasses.checkArraySize q) Eq :=
  DeclaratorPairs.checkArraySize fun r hr _ _ => (hq r hr).self.expression

/-- A single parameter. -/
theorem parameter (hp : L.Reads p) : L.pair p.parameter p.parameter (Parameter.Alike L.toView) :=
  DeclaratorPairs.parameter (fun _ _ hr => specifiers (hp.part hr))
    (fun _ hr => (hp.part hr).self.declarator) fun _ _ hr => (hp.part hr).self.expression

/-- A declarator whose parts read alike. -/
theorem declarator (hparts : c.Throughout (Phrase.Reads L))
    (hc : c.node.Avoids L.hidden) (ty : Ty) :
    L.pair (c.declarator ty) (c.declarator (ty.rename L.toRenaming)) (Declared.Alike L.toView) := by
  have hparams := DeclaratorPairs.checkParameters (L := L.toDeclaratorPairs) fun r hr item hitem =>
    parameter ((hparts 1 r hr).flatten item hitem)
  exact DeclaratorPairs.declarator hc (fun i r hr => (hparts i r hr).self.avoids)
    (fun i r hr => (hparts i r hr).self.declarator) (fun _ => checkArraySize (hparts 1)) hparams ty

/-- A declarator of a new-expression whose parts read alike. -/
theorem newDeclarator (hparts : c.Throughout (Phrase.Reads L)) (ty : Ty) :
    L.pair (c.newDeclarator ty) (c.newDeclarator (ty.rename L.toRenaming)) L.ty := by
  unfold Clause.newDeclarator
  split
  next =>
    cases hpart : c.part? 1 with
    | none => exact L.ret rfl
    | some inner => exact (hparts 1 inner hpart).self.newDeclarator (.pointer ty)
  next =>
    refine L.part fun q hq => ?_
    exact L.seq (checkArraySize (hparts 0 q hq).of_some) fun _ _ _ => L.ret rfl
  next =>
    refine L.part fun q hq => ?_
    refine L.seq (checkArraySize (hparts 1 q hq).of_some) ?_
    rintro size _ rfl
    exact L.part fun inner hinner => (hparts 0 inner hinner).self.newDeclarator (.array ty size)
  next => exact L.unexpected c _

/-! ### Single specifiers -/

/-- A class that is named with its key. -/
theorem elaborate {name : Token} (hname : name.text ∉ L.hidden) :
    L.pair (CWithClasses.elaborate name) (CWithClasses.elaborate name) L.ty := by
  unfold CWithClasses.elaborate
  refine L.symbols fun t u h => ?_
  rw [h.lookupTypeName hname]
  cases t.lookupTypeName name.text with
  | ok ty => exact L.ret rfl
  | error e =>
    cases e with
    | notFound text =>
      refine L.seq (declareClass hname name.position) ?_
      rintro cls _ rfl
      exact L.seq (L.log _ _) fun _ _ _ => L.ret rfl
    | _ => exact reject _ _

/-- A class that is a member of another class. -/
theorem nestedClass {outer inner : Phrase} (houter : outer.node.Avoids L.hidden) :
    L.pair (CWithClasses.nestedClass outer inner) (CWithClasses.nestedClass outer inner)
      L.ty := by
  unfold CWithClasses.nestedClass
  refine L.lift fun cls hcls => ?_
  refine L.seq (resolveClass (houter.nameToken hcls)) ?_
  rintro cls? _ rfl
  refine L.leaf fun name _ => ?_
  cases cls? with
  | none => exact L.ret rfl
  | some cls =>
    dsimp only [Option.map_some]
    refine L.symbols fun t u h => ?_
    rw [h.memberLookup]
    cases t.memberLookup cls name.text (t.insideClass cls) with
    | error e => exact reject _ _
    | ok ty =>
      cases ty with
      | object d => exact L.ret rfl
      | _ => exact mismatch _ _ _

/-- A specifier whose parts read alike. -/
theorem specifier (hparts : c.Throughout (Phrase.Reads L)) (hc : c.node.Avoids L.hidden)
    (hclass : c.rule = .classSpec → L.pair c.classSpec c.classSpec L.ty) :
    L.pair c.specifier c.specifier L.choice := by
  have hsome : ∀ a b : Ty, L.ty a b → L.pair (pure (some a)) (pure (some b)) L.choice := by
    rintro a _ rfl
    exact L.ret rfl
  unfold Clause.specifier
  split
  next => exact DeclaratorPairs.specifierToken fun t ht _ => resolveTypeName (hc.token ht)
  next hrule => exact L.seq (hclass hrule) hsome
  next =>
    refine L.part fun q hq => ?_
    refine L.leaf fun name hname => ?_
    exact L.seq (elaborate ((hparts 1 q hq).self.avoids.token hname)) hsome
  next =>
    refine L.part fun outer houter => ?_
    refine L.part fun inner _ => ?_
    exact L.seq (nestedClass (hparts 1 outer houter).self.avoids) hsome
  next =>
    refine L.part fun outer houter => ?_
    refine L.part fun inner _ => ?_
    exact L.seq (nestedClass (hparts 0 outer houter).self.avoids) hsome
  next => exact L.seq (clauseTypeName hparts) hsome
  next => exact L.unexpected c _

/-! ### Expressions that name types -/

/-- The arguments of a call. -/
theorem checkArguments (hq : ∀ r, q = some r → L.Reads r) :
    L.pair (CWithClasses.checkArguments q) (CWithClasses.checkArguments q) L.Arguments :=
  L.expressions.checkArguments fun r hr => (hq r hr).mono fun _ h => h.expression

/-- A member that is named through its class. -/
theorem qualifiedId (hparts : c.Throughout (Phrase.Reads L)) :
    L.pair c.qualifiedId c.qualifiedId L.ty := by
  unfold Clause.qualifiedId
  refine L.part fun q hq => ?_
  refine L.lift fun cls hcls => ?_
  refine L.seq (resolveClass ((hparts 0 q hq).self.avoids.nameToken hcls)) ?_
  rintro cls? _ rfl
  refine L.part fun r _ => ?_
  refine L.leaf fun member _ => ?_
  cases cls? with
  | some cls => exact resolveMember cls member
  | none => exact L.ret rfl

/-- The conversion of at most one value. -/
theorem convert (c : Clause) {arguments arguments' : List Argument}
    (hargs : L.Arguments arguments arguments') :
    L.pair (c.convert arguments) (c.convert arguments') fun _ _ => True := by
  cases hargs with
  | nil => exact L.ret trivial
  | cons hxy hrest =>
    cases hrest with
    | nil =>
      unfold Clause.convert
      dsimp only
      rw [hxy.1, hxy.2]
      simp only [Ty.isArithmetic_rename, Ty.isUnknown_rename, Ty.render_rename]
      split
      · exact L.ret trivial
      · exact L.report _ _
    | cons _ hrest =>
      unfold Clause.convert
      simp only [List.length_cons, hrest.length_eq]
      exact L.report _ _

/-- A cast that is written like a call. -/
theorem cast (hparts : c.Throughout (Phrase.Reads L)) : L.pair c.cast c.cast L.ty := by
  unfold Clause.cast
  refine L.part fun q hq => ?_
  refine L.seq (specifiers (hparts 0 q hq)) ?_
  rintro ty _ rfl
  refine L.seq (checkArguments (hparts 1)) fun arguments arguments' hargs => ?_
  rw [Ty.isUnknown_rename, Ty.asClass?_rename]
  split
  · exact L.ret rfl
  · cases ty.asClass? with
    | some cls =>
      exact L.seq (checkConstructor cls hargs c.position) fun _ _ _ => L.ret rfl
    | none => exact L.seq (convert c hargs) fun _ _ _ => L.ret rfl

/-- The type that a new-expression allocates. -/
theorem allocated (hp : L.Reads p) :
    L.pair (Clause.allocated p) (Clause.allocated p) L.ty := by
  unfold Clause.allocated
  split
  · refine L.part fun q hq => ?_
    refine L.seq (specifiers (hp.part hq)) ?_
    rintro base _ rfl
    cases hpart : p.part? 1 with
    | none => exact L.ret rfl
    | some d => exact (hp.part hpart).self.newDeclarator base
  · exact typeName hp

/-- A new-expression. -/
theorem newExpr (hparts : c.Throughout (Phrase.Reads L)) :
    L.pair c.newExpr c.newExpr L.ty := by
  unfold Clause.newExpr
  refine L.part fun q hq => ?_
  refine L.seq (allocated (hparts 0 q hq)) ?_
  rintro ty _ rfl
  refine L.seq (checkArguments (hparts 1)) fun arguments arguments' hargs => ?_
  rw [Ty.objectClass?_rename]
  split
  · exact L.seq (checkConstruction ty hargs c.position) fun _ _ _ => L.ret rfl
  · cases ty.objectClass? with
    | some cls => exact L.seq (checkConstructor cls .nil c.position) fun _ _ _ => L.ret rfl
    | none => exact L.ret rfl

/-- An expression whose parts read alike. -/
theorem expression (hparts : c.Throughout (Phrase.Reads L)) (hc : c.node.Avoids L.hidden) :
    L.pair c.expression c.expression L.ty := by
  have hexpressions : c.Throughout L.expressions.Expression :=
    fun i q hq => (hparts i q hq).mono fun _ h => h.expression
  refine L.expressions.expression hexpressions (fun _ ht => hc.token ht) fun hrule => ?_
  unfold Rule.namesType at hrule
  unfold Clause.expression
  split at hrule
  next h =>
    rw [h]
    exact qualifiedId hparts
  next h =>
    rw [h]
    exact cast hparts
  next h =>
    rw [h]
    refine L.part fun q hq => ?_
    exact L.seq (typeName (hparts 0 q hq)) fun _ _ _ => L.ret rfl
  next h =>
    rw [h]
    exact newExpr hparts
  next => cases hrule

end ReadingPairs

/-- A tree reads alike if all that it is made of does. -/
theorem Node.reads {n : Node} (hparts : n.clause.Throughout (Phrase.Reads L))
    (hn : n.Avoids L.hidden)
    (hclass : n.rule = .classSpec → L.pair n.clause.classSpec n.clause.classSpec L.ty) :
    n.phrase.Reads L := by
  refine ⟨?_, ?_, ?_, fun ty => ?_, ?_⟩
  · rw [n.phrase_node]
    exact hn
  all_goals rw [n.phrase_roles_eq]
  · exact ReadingPairs.expression hparts hn
  · exact ReadingPairs.specifier hparts hn hclass
  · exact ReadingPairs.declarator hparts hn ty
  · exact ReadingPairs.newDeclarator hparts

end CWithClasses
