import CWithClasses.Check.TypeSpecifier
import CWithClasses.Proofs.Logic.Function

/-!
# Classes and single specifiers in a step logic

The members of a class are declared by steps that may also change the access region of its
frame. So they are checked in the inner triples of a logic, and only the class as a whole is a
step like the others.
-/

namespace CWithClasses.StepLogic

open Check

variable (L : StepLogic) {p : Prop} {c : Clause} {q : Phrase}

/-! ### Class heads -/

/-- Opening a class. -/
theorem openClass (name : Token) :
    L.triple p (CWithClasses.openClass name) fun _ => True := by
  unfold CWithClasses.openClass
  refine L.next L.symbols fun table => ?_
  split
  · exact L.declareClass _ _
  · split
    · exact L.ret _ fun _ => trivial
    · exact L.next (L.report _ _ nofun) fun _ => L.newClass _

/-- The class of a class head. -/
theorem classHead (hnamed : q.rule = .classHead → L.Has q.clause 1 fun r => L.Leaf r.node)
    (hother : q.rule ≠ .classHead → q.rule ≠ .anonymousHead → L.faults) :
    L.triple p q.classHead fun _ => True := by
  unfold Phrase.classHead
  split
  next hrule =>
    refine L.part (hnamed hrule) fun r hr => ?_
    exact L.leaf hr fun name _ => L.openClass name
  next => exact L.newClass _
  next hclassHead hanonymous => exact L.fault _ (hother hclassHead hanonymous)

/-! ### Members -/

/-- The phrase is sound as the declarator of a member. -/
def MemberDeclarator (q : Phrase) : Prop :=
  ∀ (p : Prop) (base : Ty), (p → base.Known) → L.triple p (q.memberDeclarator base) fun _ => True

/-- The member that a declarator introduces, with an initializer or without one. -/
theorem member {base : Ty} {init : Option Phrase} (hdeclarator : L.NamedDeclarator q)
    (hinit : ∀ i, init = some i → L.Initializer i) (hbase : p → base.Known) :
    L.triple p (do let _ ← q.initDeclarator base init) fun _ => True :=
  L.next (L.initDeclarator hdeclarator hinit hbase) fun _ => L.ret _ fun _ => trivial

/-- A bit field. -/
theorem bitField {base : Ty} (hwidth : L.Has q.clause 1 L.Expression)
    (hname : ∀ d, q.part? 0 = some d → L.NamedDeclarator d) (hbase : p → base.Known) :
    L.triple p (q.bitField base) fun _ => True := by
  unfold Phrase.bitField
  refine L.part hwidth fun width hwidth => ?_
  refine L.next (hwidth p) fun ty => ?_
  refine L.next (L.looks (.checkIntegral _ _)) fun _ => ?_
  refine L.next (L.looks (.checkIntegral _ _)) fun _ => ?_
  split
  next d hd => exact L.member (hname d hd) (fun i hi => by cases hi) hbase
  next => exact L.ret _ fun _ => trivial

/-- A declarator of a member is marked as pure, has an initializer, is a bit field, or none of
these. -/
theorem memberDeclarator (hpure : q.rule = .pureMember → L.Has q.clause 0 L.NamedDeclarator)
    (hinit : q.rule = .initializedMember →
      L.Has q.clause 0 L.NamedDeclarator ∧ L.Has q.clause 1 L.Initializer)
    (hbits : q.rule = .bitField → L.Has q.clause 1 L.Expression ∧
      ∀ d, q.part? 0 = some d → L.NamedDeclarator d)
    (hplain : q.rule ≠ .pureMember → q.rule ≠ .initializedMember → q.rule ≠ .bitField →
      L.NamedDeclarator q) : L.MemberDeclarator q := by
  intro p base hbase
  unfold Phrase.memberDeclarator
  split
  next hrule =>
    exact L.part (hpure hrule) fun d hd => L.member hd (fun i hi => by cases hi) hbase
  next hrule =>
    refine L.part (hinit hrule).1 fun d hd => ?_
    refine L.part (hinit hrule).2 fun i hi => ?_
    exact L.member hd (fun j hj => Option.some.inj hj ▸ hi) hbase
  next hrule => exact L.bitField (hbits hrule).1 (hbits hrule).2 hbase
  next h₁ h₂ h₃ => exact L.member (hplain h₁ h₂ h₃) (fun i hi => by cases hi) hbase

/-- The step leaves bodies to be checked. Their types are known unless something has been
reported, and the rest holds of them in any case. -/
structure Leaves (R : StepRules) (x : Check (List FunctionBody)) : Prop where
  known : ∀ p, R.triple p x fun bodies => ∀ b ∈ bodies, b.ty.Known
  bodies : x.Yields fun bodies => ∀ b ∈ bodies, L.Body b

/-- A step that leaves no bodies. -/
theorem Leaves.none {R : StepRules} {x : Check Unit} (hx : ∀ p, R.triple p x fun _ => True) :
    L.Leaves R (do x; return []) where
  known p := R.next (hx p) fun _ => R.ret _ fun _ b hb => by cases hb
  bodies := Yields.next fun _ => .ret fun b hb => by cases hb

/-- A fault leaves nothing. -/
theorem Leaves.fault (e : Fault) (h : L.faults) : L.Leaves L.toStepRules (throw e) where
  known _ := L.fault _ h
  bodies := .fault _

/-- What a step leaves, it also leaves in the body of a class. -/
theorem Leaves.within {x : Check (List FunctionBody)} (h : L.Leaves L.toStepRules x) :
    L.Leaves L.inner x where
  known p := L.within (h.known p)
  bodies := h.bodies

/-- Taking a part of a construct, and going on with it, in the body of a class. -/
theorem Leaves.part {i : Nat} {P : Phrase → Prop} {f : Phrase → Check (List FunctionBody)}
    (h : L.Has c i P) (hf : ∀ r, P r → L.Leaves L.inner (f r)) :
    L.Leaves L.inner (c.part i >>= f) := by
  unfold Clause.part
  cases hpart : c.part? i with
  | none => exact (Leaves.fault L _ (h.missing hpart)).within
  | some r => exact hf r (h.part r hpart)

/-- The phrase is sound as the declaration of a member. -/
def MemberDeclaration (q : Phrase) : Prop := L.Leaves L.toStepRules q.memberDeclaration

/-- A member is declared by a definition or by a declaration. -/
theorem memberDeclaration
    (hfunction : q.rule = .functionDef ∨ q.rule = .constructorDef → L.FunctionParts q.clause)
    (hmembers : q.rule = .memberDecl → (∀ r, q.part? 0 = some r → r.Each L.Specifier) ∧
      ∀ r, q.part? 1 = some r → r.Each L.MemberDeclarator)
    (hsimple : q.rule = .simpleDecl → L.Has q.clause 0 (Phrase.Each L.Specifier) ∧
      ∀ r, q.part? 1 = some r → r.Each L.InitDeclItem)
    (hother : q.rule ≠ .functionDef → q.rule ≠ .constructorDef → q.rule ≠ .memberDecl →
      q.rule ≠ .simpleDecl → L.faults) : L.MemberDeclaration q := by
  have hdefinition : L.FunctionParts q.clause → L.Leaves L.toStepRules
      (do let b ← q.clause.declareFunctionDef; return [b]) := by
    intro hparts
    constructor
    · intro p
      refine L.bind (L.declareFunctionDef hparts) fun b => L.ret _ ?_
      rintro ⟨_, hb⟩ b' hb'
      exact List.mem_singleton.mp hb' ▸ hb
    · refine (L.declareFunctionDef_yields hparts).bind fun b hb => .ret ?_
      intro b' hb'
      exact List.mem_singleton.mp hb' ▸ hb
  unfold MemberDeclaration Phrase.memberDeclaration
  split
  next hrule => exact hdefinition (hfunction (.inl hrule))
  next hrule => exact hdefinition (hfunction (.inr hrule))
  next hrule =>
    obtain ⟨hspecifiers, hitems⟩ := hmembers hrule
    have hall : ∀ p, L.triple p (do
        let base ← checkSpecifiers? (q.part? 0)
        (Phrase.flatten? (q.part? 1)).forM fun item => item.memberDeclarator base)
          fun _ => True := by
      intro p
      refine L.bind (L.checkSpecifiers hspecifiers) fun base => ?_
      exact L.forM fun item hitem => Phrase.Each.of_mem hitems hitem _ base And.right
    have h := Leaves.none L hall
    rw [bind_assoc] at h
    exact h
  next hrule =>
    exact Leaves.none L fun p => L.simpleDeclaration (hsimple hrule).1 (hsimple hrule).2
  next h₁ h₂ h₃ h₄ => exact Leaves.fault L _ (hother h₁ h₂ h₃ h₄)

/-- The phrase is sound as a link of a member specification. -/
def MemberLink (q : Phrase) : Prop := L.Leaves L.inner q.memberLink

/-- An access specifier opens a new access region. -/
def AccessToken (q : Phrase) : Prop :=
  L.Leaf q.node ∧ ∀ t, q.node.token = some t → t.kind.access? = none → L.faults

/-- An access specifier leaves no bodies behind. -/
theorem accessSpecifier {t : Token} (h : t.kind.access? = none → L.faults) :
    L.Leaves L.inner (match t.kind.access? with
      | some access => do
        modifySymbols (·.setAccess access)
        return []
      | none => q.unexpected "access specifier") := by
  split
  next access _ => exact Leaves.none L fun p => L.setAccess access
  next hkind => exact (Leaves.fault L _ (h hkind)).within

/-- A link holds the declaration of a member or an access specifier. -/
theorem memberLink (hmember : q.rule = .memberSpec → L.Has q.clause 0 L.MemberDeclaration)
    (haccess : q.rule = .accessSpec → L.Has q.clause 0 L.AccessToken)
    (hother : q.rule ≠ .memberSpec → q.rule ≠ .accessSpec → L.MemberDeclaration q) :
    L.MemberLink q := by
  unfold MemberLink Phrase.memberLink
  split
  next hrule => exact Leaves.part L (hmember hrule) fun r hr => Leaves.within L hr
  next hrule =>
    refine Leaves.part L (haccess hrule) fun r hr => ?_
    unfold Node.leafToken
    cases htoken : r.node.token with
    | none => exact (Leaves.fault L _ (hr.1 htoken)).within
    | some t => exact L.accessSpecifier (hr.2 t htoken)
  next hspec haccess => exact Leaves.within L (hother hspec haccess)

/-- The links of a member specification leave what each of them leaves. -/
theorem members {links : Option Phrase}
    (h : ∀ r, links = some r → ∀ link ∈ r.memberLinks, L.MemberLink link) :
    L.Leaves L.inner (Phrase.members links) := by
  cases links with
  | none =>
    refine ⟨fun p => L.inner.ret _ fun _ b hb => ?_, .ret fun b hb => ?_⟩
    · cases hb
    · cases hb
  | some r =>
    have hlinks := h r rfl
    constructor
    · intro p
      refine L.inner.bind (L.inner.mapM fun link hlink => (hlinks link hlink).known p) ?_
      refine fun lists => L.inner.ret _ ?_
      rintro ⟨_, hall⟩ b hb
      obtain ⟨bodies, hbodies, hmem⟩ := List.mem_flatten.mp hb
      exact hall bodies hbodies b hmem
    · have hall := StepRules.yields.mapM (p := True) fun link hlink (_ : True) =>
        (hlinks link hlink).bodies
      refine (hall trivial).bind fun lists hlists => .ret fun b hb => ?_
      obtain ⟨bodies, hbodies, hmem⟩ := List.mem_flatten.mp hb
      exact hlists bodies hbodies b hmem

/-! ### Class specifications -/

/-- The phrase is sound as the head of a class. -/
structure ClassHead (q : Phrase) : Prop where
  key : L.Has q.clause 0 fun r =>
    L.Leaf r.node ∧ ∀ t, r.node.token = some t → t.kind.isClassKey = false → L.faults
  named : q.rule = .classHead → L.Has q.clause 1 fun r => L.Leaf r.node
  other : q.rule ≠ .classHead → q.rule ≠ .anonymousHead → L.faults

/-- The body of a class: its members, and then the bodies of its functions. -/
theorem classBody (cls : ClassRef)
    (hmembers : ∀ r, c.part? 1 = some r → ∀ link ∈ r.memberLinks, L.MemberLink link) :
    L.inner.triple p (do
      let bodies ← Phrase.members (c.part? 1)
      modifySymbols (·.markComplete cls)
      bodies.forM FunctionBody.check) fun _ => True := by
  have hleft := L.members hmembers
  refine L.inner.seq hleft.bodies (hleft.known p) fun bodies hbodies => L.within ?_
  refine L.next (L.markComplete cls) fun _ => ?_
  exact L.forM fun b hb => L.checkBody (hbodies b hb) fun hp => hp.2 b hb

/-- A class specification. -/
theorem classSpec (hhead : L.Has c 0 L.ClassHead)
    (hmembers : ∀ r, c.part? 1 = some r → ∀ link ∈ r.memberLinks, L.MemberLink link) :
    L.triple p c.classSpec Ty.Known := by
  unfold Clause.classSpec
  refine L.part hhead fun head hhead => ?_
  refine L.part hhead.key fun r hr => ?_
  refine L.leaf hr.1 fun key htoken => ?_
  split
  next hkey => exact L.fault _ (hr.2 key htoken (by simpa using hkey))
  next =>
    refine L.afterHead (L.classHead hhead.named hhead.other) fun cls hopens => ?_
    -- From the opening of the scope to its end, the class body is one step of the logic.
    have hbody := L.inClass (p := p) key.kind.defaultAccess hopens (L.classBody cls hmembers)
    have hrest : L.triple p (do
        let body := (← Check.symbols).classBody cls
        Check.log (.definedClass (.object cls) body.publicMembers.length
          body.privateMembers.length)
        return Ty.object cls) Ty.Known := by
      refine L.next L.symbols fun table => ?_
      exact L.next (L.log _) fun _ => L.ret _ fun _ => Ty.known_object cls
    have h := L.next hbody fun _ => hrest
    simp only [Check.inClass, bind_assoc, pure_bind] at h
    exact h

/-! ### Single specifiers -/

/-- A class that is named with its key. -/
theorem elaborate (name : Token) : L.triple p (CWithClasses.elaborate name) Ty.Known := by
  unfold CWithClasses.elaborate
  refine L.next L.symbols fun table => ?_
  split
  next ty hfound =>
    refine L.ret _ fun _ => ?_
    obtain ⟨c, rfl⟩ := SymbolTable.lookupTypeName_object hfound
    exact Ty.known_object c
  next =>
    refine L.next (L.declareClass _ _) fun c => ?_
    exact L.next (L.log _) fun _ => L.ret _ fun _ => Ty.known_object c
  next e _ hfound =>
    refine L.reject e _ fun hjump => ?_
    exact absurd hjump (SymbolTable.failure_of_lookupTypeName hfound).1

/-- A class that is a member of another class. -/
theorem nestedClass {outer inner : Phrase} (houter : L.Name outer.node)
    (hinner : L.Leaf inner.node) :
    L.triple p (CWithClasses.nestedClass outer inner) Ty.Known := by
  unfold CWithClasses.nestedClass
  refine L.lift houter fun outerName _ => ?_
  refine L.bind (L.resolveClass outerName) fun cls => ?_
  refine L.leaf hinner fun name _ => ?_
  split
  next => exact L.ret _ fun hp => by cases hp.2
  next cls =>
    refine L.next L.symbols fun table => ?_
    split
    next c _ => exact L.ret _ fun _ => Ty.known_object c
    next => exact L.mismatch _ _ _
    next e hfound =>
      refine L.reject e _ fun hjump => ?_
      exact absurd hjump (SymbolTable.failure_of_memberLookup hfound).1

/-- The token is a specifier of its own. -/
def SpecifierToken (t : Token) : Prop :=
  t.kind.isName = true ∨ t.kind = .typedef ∨ t.kind.isModifier = true ∨ t.kind.primitive?.isSome ∨
    L.faults

/-- Keywords choose known types. -/
theorem known_of_primitive {kind : TokenKind} {ty : Ty} (h : kind.primitive? = some ty) :
    ty.Known := by
  unfold TokenKind.primitive? at h
  split at h <;> cases h <;> simp

/-- A specifier that is a single token. -/
theorem specifierToken (hleaf : L.Leaf c.node)
    (htoken : ∀ t, c.node.token = some t → L.SpecifierToken t) :
    L.triple p c.specifierToken fun ty => ∀ t, ty = some t → t.Known := by
  unfold Clause.specifierToken
  refine L.leaf hleaf fun t ht => ?_
  split
  next =>
    refine L.bind (L.resolveTypeName t) fun ty => L.ret _ ?_
    rintro ⟨_, cls, rfl⟩ t' ht'
    cases ht'
    exact Ty.known_object cls
  next hname =>
    split
    next => exact L.next (L.report _ _ nofun) fun _ => L.ret _ fun _ t ht => by cases ht
    next htypedef =>
      split
      next => exact L.ret _ fun _ t ht => by cases ht
      next hmodifier =>
        split
        next ty hty =>
          refine L.ret _ fun _ t' ht' => ?_
          cases ht'
          exact known_of_primitive hty
        next hprimitive =>
          refine L.unexpected _ _ ?_
          rcases htoken t ht with h | h | h | h | h
          · exact absurd h hname
          · exact absurd h htypedef
          · exact absurd h hmodifier
          · rw [hprimitive] at h
            cases h
          · exact h

/-- A type that a specifier chooses in any case. -/
theorem chosen {x : Check Ty} (hx : L.triple p x Ty.Known) :
    L.triple p (do let ty ← x; return some ty) fun ty => ∀ t, ty = some t → t.Known := by
  refine L.bind hx fun ty => L.ret _ ?_
  rintro ⟨_, hty⟩ t ht
  exact Option.some.inj ht ▸ hty

/-- A class specification is a specifier. -/
theorem specifier_classSpec (hrule : c.rule = .classSpec) (hhead : L.Has c 0 L.ClassHead)
    (hmembers : ∀ r, c.part? 1 = some r → ∀ link ∈ r.memberLinks, L.MemberLink link) :
    L.triple p c.specifier fun ty => ∀ t, ty = some t → t.Known := by
  unfold Clause.specifier
  rw [hrule]
  exact L.chosen (L.classSpec hhead hmembers)

/-- A class with its key is a specifier. -/
theorem specifier_elaborated (hrule : c.rule = .elaborated)
    (hname : L.Has c 1 fun r => L.Leaf r.node) :
    L.triple p c.specifier fun ty => ∀ t, ty = some t → t.Known := by
  unfold Clause.specifier
  rw [hrule]
  refine L.part hname fun r hr => ?_
  exact L.leaf hr fun name _ => L.chosen (L.elaborate name)

/-- A member of a class with a class key is a specifier. -/
theorem specifier_elaboratedNested (hrule : c.rule = .elaboratedNested)
    (houter : L.Has c 1 fun r => L.Name r.node) (hinner : L.Has c 2 fun r => L.Leaf r.node) :
    L.triple p c.specifier fun ty => ∀ t, ty = some t → t.Known := by
  unfold Clause.specifier
  rw [hrule]
  refine L.part houter fun outer houter => ?_
  exact L.part hinner fun inner hinner => L.chosen (L.nestedClass houter hinner)

/-- A member of a class is a specifier. -/
theorem specifier_nestedTypeName (hrule : c.rule = .nestedTypeName)
    (houter : L.Has c 0 fun r => L.Name r.node) (hinner : L.Has c 1 fun r => L.Leaf r.node) :
    L.triple p c.specifier fun ty => ∀ t, ty = some t → t.Known := by
  unfold Clause.specifier
  rw [hrule]
  refine L.part houter fun outer houter => ?_
  exact L.part hinner fun inner hinner => L.chosen (L.nestedClass houter hinner)

/-- A type name is a specifier. -/
theorem specifier_typeId (hrule : c.rule = .typeId) (hbase : L.Has c 0 (Phrase.Each L.Specifier))
    (hdeclarator : ∀ d, c.part? 1 = some d → L.Declarator d) :
    L.triple p c.specifier fun ty => ∀ t, ty = some t → t.Known := by
  unfold Clause.specifier
  rw [hrule]
  exact L.chosen (L.clauseTypeName hbase hdeclarator)

end CWithClasses.StepLogic
