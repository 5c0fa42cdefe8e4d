import CWithClasses.Check.Declaration
import CWithClasses.Proofs.Logic.Expression

/-!
# Initializers and declarations in a step logic

A declaration binds the types that its declarators compose, once they have been checked against
their initializers. So what comes to be bound is known unless something has been reported.
-/

namespace CWithClasses.StepLogic

open Check

variable (L : StepLogic) {p : Prop} {c : Clause}

/-! ### Initializers -/

/-- The items of a list are all checked against one type. -/
theorem initializeAll (ty : Ty) {items : List Phrase} (h : ∀ item ∈ items, L.Initializer item) :
    L.triple p (CWithClasses.initializeAll ty items) fun _ => True := by
  unfold CWithClasses.initializeAll
  refine L.forM fun item hitem => ?_
  exact L.next (h item hitem p ty) fun _ => L.ret _ fun _ => trivial

/-- A list in braces. Of the declared type it changes only the size. -/
theorem checkBraces (declared : Ty) {items : List Phrase} (position : Position)
    (h : ∀ item ∈ items, L.Initializer item) :
    L.triple p (CWithClasses.checkBraces declared items position) fun t =>
      declared.Known → t.Known := by
  have hdeclared : ∀ t : Ty, t.Known → t.Known := fun _ ht => ht
  unfold CWithClasses.checkBraces
  split
  next element size =>
    refine L.next (L.initializeAll element h) fun _ => ?_
    split
    · refine L.ret _ fun _ ht => ?_
      exact Ty.known_array.mpr (Ty.known_array.mp ht)
    · exact L.doIf (L.report _ _ nofun) (L.ret _ fun _ => hdeclared _)
  next => exact L.next (L.initializeAll _ h) fun _ => L.ret _ fun _ => hdeclared _
  next =>
    refine L.next (L.initializeAll _ h) fun _ => ?_
    exact L.doIf (L.report _ _ nofun) (L.ret _ fun _ => hdeclared _)

section

variable {expression : Check Ty} {declared : Ty}

/-- An initializer that only introduces another one. -/
theorem initializer_nested (hrule : c.rule = .initializer ∨ c.rule = .constantInit)
    (hinner : L.Has c 0 L.Initializer) :
    L.triple p (c.initializer expression declared) fun t => declared.Known → t.Known := by
  unfold Clause.initializer
  rcases hrule with hrule | hrule <;> rw [hrule] <;> exact L.part hinner fun q hq => hq p declared

/-- A list in braces. -/
theorem initializer_braces (hrule : c.rule = .braceInit)
    (hitems : ∀ q, c.part? 0 = some q → q.Each L.Initializer) :
    L.triple p (c.initializer expression declared) fun t => declared.Known → t.Known := by
  unfold Clause.initializer
  rw [hrule]
  exact L.checkBraces declared _ fun item hitem => Phrase.Each.of_mem hitems hitem

/-- Arguments in parentheses. -/
theorem initializer_parens (hrule : c.rule = .parenInit)
    (harguments : ∀ q, c.part? 0 = some q → q.Each L.Expression) :
    L.triple p (c.initializer expression declared) fun t => declared.Known → t.Known := by
  unfold Clause.initializer
  rw [hrule]
  refine L.next (L.checkArguments harguments) fun arguments => ?_
  exact L.next (L.looks (.checkConstruction _ _ _)) fun _ => L.ret _ fun _ ht => ht

/-- An expression. -/
theorem initializer_expression (hrules : c.rule ≠ .initializer ∧ c.rule ≠ .constantInit ∧
      c.rule ≠ .braceInit ∧ c.rule ≠ .parenInit)
    (hexpression : L.triple p expression Ty.Known) :
    L.triple p (c.initializer expression declared) fun t => declared.Known → t.Known := by
  unfold Clause.initializer
  split
  next hrule => exact absurd hrule hrules.1
  next hrule => exact absurd hrule hrules.2.1
  next hrule => exact absurd hrule hrules.2.2.1
  next hrule => exact absurd hrule hrules.2.2.2
  next =>
    refine L.next hexpression fun value => ?_
    exact L.skipIf (L.report _ _ nofun) (L.ret _ fun _ ht => ht)

end

/-! ### Declarations -/

/-- Declaring a function. -/
theorem declareFunction (name : DeclaredName) {ty : Ty} (hty : p → ty.Known) :
    L.triple p (CWithClasses.declareFunction name ty) Ty.Known := by
  unfold CWithClasses.declareFunction
  refine L.bind L.symbols fun table => ?_
  have hnew : L.triple (p ∧ table.Known)
      (do Check.declare name.name name.position ty; return ty) Ty.Known := by
    refine L.next (L.declare _ _ fun hp => hty hp.1) fun _ => ?_
    exact L.ret _ fun hp => hty hp.1
  split
  next existing hexisting =>
    split
    · exact L.ret _ fun hp => hp.2.lookupLocal hexisting
    · exact hnew
  next => exact hnew

/-- Looking up what a qualified name refers to. -/
theorem resolveQualified (cls : Token) (name : DeclaredName) :
    L.triple p (CWithClasses.resolveQualified cls name) fun found =>
      ∀ c member, found = some (c, some member) → member.Known := by
  unfold CWithClasses.resolveQualified
  refine L.next (L.resolveTypeName cls) fun ty => ?_
  split
  · exact L.ret _ fun _ c member h => by cases h
  next c _ =>
    refine L.bind L.symbols fun table => ?_
    split
    next access member hmember =>
      refine L.ret _ ?_
      rintro ⟨_, htable⟩ c' member' h
      cases h
      exact htable.member hmember
    next =>
      refine L.next (L.report _ _ nofun) fun _ => ?_
      exact L.ret _ fun _ c member h => by cases h

/-- An object of type `void` is reported. -/
theorem checkObjectType {ty : Ty} (position : Position) (hty : p → ty.Known) :
    L.triple p (CWithClasses.checkObjectType ty position) Ty.Known := by
  unfold CWithClasses.checkObjectType
  split
  · exact L.reject _ _ nofun
  · exact L.ret _ hty

/-- Initializing an object. -/
theorem checkInit {ty : Ty} (position : Position) {init : Option Phrase}
    (hinit : ∀ q, init = some q → L.Initializer q) (hty : p → ty.Known) :
    L.triple p (CWithClasses.checkInit ty position init) Ty.Known := by
  unfold CWithClasses.checkInit
  split
  next q => exact L.post (hinit q rfl p ty) fun t hp ht => ht (hty hp)
  next => exact L.next (L.looks (.checkDefaultConstruction _ _)) fun _ => L.ret _ hty

/-- Declaring an object. -/
theorem declareObject (name : DeclaredName) {ty : Ty} {init : Option Phrase}
    (hinit : ∀ q, init = some q → L.Initializer q) (hty : p → ty.Known) :
    L.triple p (CWithClasses.declareObject name ty init) Ty.Known := by
  unfold CWithClasses.declareObject
  refine L.bind (L.checkObjectType _ hty) fun ty => ?_
  refine L.bind (L.checkInit _ hinit And.right) fun ty => ?_
  split
  · exact L.next (L.looks (.checkAgainstMember _ _ _ _)) fun _ => L.ret _ And.right
  · exact L.next (L.declare _ _ And.right) fun _ => L.ret _ And.right

/-- The phrase is sound as a declarator, and introduces a name. -/
def NamedDeclarator (q : Phrase) : Prop :=
  L.Declarator q ∧ ∀ ty, (q.roles.declarator ty).Yields fun d => d.name = none → L.faults

/-- Declaring what a declarator introduces. -/
theorem initDeclarator {q : Phrase} {base : Ty} {init : Option Phrase}
    (hdeclarator : L.NamedDeclarator q) (hinit : ∀ i, init = some i → L.Initializer i)
    (hbase : p → base.Known) : L.triple p (q.initDeclarator base init) Ty.Known := by
  unfold Phrase.initDeclarator
  refine L.seq (hdeclarator.2 base) (hdeclarator.1 p base hbase) fun declared hnamed => ?_
  split
  next hname => exact L.fault _ (hnamed hname)
  next name _ =>
    split
    · split
      · exact L.next (L.looks (.checkAgainstMember _ _ _ _)) fun _ => L.ret _ And.right
      · exact L.declareFunction name And.right
    · exact L.declareObject name hinit And.right

/-- The phrase is sound as an item of a declaration. -/
def InitDeclItem (q : Phrase) : Prop :=
  ∀ (p : Prop) (base : Ty), (p → base.Known) → L.triple p (q.initDeclItem base) fun _ => True

/-- An item of a declaration has an initializer, or is a mere declarator. -/
theorem initDeclItem {q : Phrase}
    (hinit : q.rule = .initDecl → L.Has q.clause 0 L.NamedDeclarator ∧
      ∀ i, q.part? 1 = some i → L.Initializer i)
    (hother : q.rule ≠ .initDecl → L.NamedDeclarator q) : L.InitDeclItem q := by
  intro p base hbase
  unfold Phrase.initDeclItem
  split
  next hrule =>
    refine L.part (hinit hrule).1 fun d hd => ?_
    refine L.next (L.initDeclarator hd (hinit hrule).2 hbase) fun _ => ?_
    exact L.ret _ fun _ => trivial
  next hrule =>
    refine L.next (L.initDeclarator (hother hrule) (fun i hi => by cases hi) hbase) fun _ => ?_
    exact L.ret _ fun _ => trivial

/-- A declaration. -/
theorem simpleDeclaration (hspecifiers : L.Has c 0 (Phrase.Each L.Specifier))
    (hitems : ∀ q, c.part? 1 = some q → q.Each L.InitDeclItem) :
    L.triple p c.simpleDeclaration fun _ => True := by
  unfold Clause.simpleDeclaration
  refine L.part hspecifiers fun q hq => ?_
  refine L.bind (L.specifiers hq) fun base => ?_
  refine L.forM fun item hitem => ?_
  exact Phrase.Each.of_mem hitems hitem _ base And.right

end CWithClasses.StepLogic
