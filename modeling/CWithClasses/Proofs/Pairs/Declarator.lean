import CWithClasses.Proofs.Pairs.View

/-!
# Two runs of a declarator

A declarator makes functions and may record problems, and that is all it does to the state. So two
runs of a declarator go together if these two steps do. `DeclaratorPairs` asks for no more, and in
particular not for tables that are seen alike.

A declarator may hold an expression all the same: the size of an array that is no literal, or a
default argument. What is needed about these stays a hypothesis of the lemmas here.
-/

namespace CWithClasses

open Check

/-! ### Names -/

/-- No token of the tree spells one of the names. -/
def Node.Avoids (names : List String) (n : Node) : Prop :=
  ∀ m ∈ n.subtrees, ∀ t, m.token = some t → t.text ∉ names

namespace Node.Avoids

variable {names : List String} {n : Node} {t : Token}

/-- The token of the tree itself. -/
theorem token (h : n.Avoids names) (ht : n.token = some t) : t.text ∉ names :=
  h n n.mem_subtrees t ht

/-- A subtree of the tree. -/
theorem subtree {m : Node} (h : n.Avoids names) (hm : m ∈ n.subtrees) : m.Avoids names :=
  fun k hk => h k (subtrees_subset hm hk)

/-- A child of the tree. -/
theorem child {m : Node} {i : Nat} (h : n.Avoids names) (hm : n.child? i = some m) :
    m.Avoids names :=
  fun k hk => h k (subtrees_child hm hk)

/-- The token of a leaf. -/
theorem leafToken (h : n.Avoids names) (ht : n.leafToken = .ok t) : t.text ∉ names := by
  unfold Node.leafToken at ht
  split at ht <;> cases ht
  exact h.token (by assumption)

/-- The name that a leaf or a nested-name specifier spells. -/
theorem nameToken (h : n.Avoids names) (ht : n.nameToken = .ok t) : t.text ∉ names := by
  unfold Node.nameToken at ht
  split at ht
  · exact h.leafToken ht
  · unfold Node.child at ht
    cases hchild : n.child? 0 with
    | none =>
      rw [hchild] at ht
      cases ht
    | some m =>
      rw [hchild] at ht
      exact (h.child hchild).leafToken ht
  · cases ht

end Node.Avoids

/-- Neither the name nor its class is one of the names. -/
structure DeclaredName.Avoids (names : List String) (n : DeclaredName) : Prop where
  name : n.name ∉ names
  cls : ∀ c, n.cls = some c → c.text ∉ names

/-- The productions of parameters. -/
def Rule.isParameter : Rule → Bool
  | .namedParam | .namedParamDefault | .abstractParam | .abstractParamDefault => true
  | _ => false

/-- Whether a parameter of the production has a default argument. -/
def Rule.givesDefault : Rule → Bool
  | .namedParamDefault | .abstractParamDefault => true
  | _ => false

/-! ### What is declared -/

variable {V : View}

/-- Parameters that are alike. -/
structure Parameter.Alike (V : View) (p q : Parameter) : Prop where
  name : q.name = p.name
  ty : V.ty p.ty q.ty
  hasDefault : q.hasDefault = p.hasDefault
  avoids : ∀ n, p.name = some n → n.Avoids V.hidden

/-- Declared names and types that are alike. -/
structure Declared.Alike (V : View) (d e : Declared) : Prop where
  name : e.name = d.name
  ty : V.ty d.ty e.ty
  parameters : Option.Rel (List.Forall₂ (Parameter.Alike V)) d.parameters e.parameters
  avoids : ∀ n, d.name = some n → n.Avoids V.hidden

namespace Declared.Alike

variable {d e : Declared} {params params' : List Parameter}

/-- A type without a name. -/
theorem nameless (ty : Ty) : Declared.Alike V { ty } { ty := ty.rename V.toRenaming } :=
  ⟨rfl, rfl, .none, fun _ hn => by cases hn⟩

/-- The parameters of an outer function layer. -/
theorem withParameters (h : d.Alike V e)
    (hparams : List.Forall₂ (Parameter.Alike V) params params') :
    (d.withParameters params).Alike V (e.withParameters params') := by
  refine ⟨h.name, h.ty, ?_, h.avoids⟩
  have hinner := h.parameters
  unfold Declared.withParameters
  dsimp only
  generalize d.parameters = ps at hinner
  generalize e.parameters = ps' at hinner
  cases hinner with
  | none => exact .some hparams
  | some hps => exact .some hps

/-- A name qualified by a class that is not hidden. -/
theorem withClass (h : d.Alike V e) {cls : Token} (hcls : cls.text ∉ V.hidden) :
    (d.withClass cls).Alike V (e.withClass cls) := by
  refine ⟨?_, h.ty, h.parameters, ?_⟩
  · unfold Declared.withClass
    rw [h.name]
  · intro n hn
    obtain ⟨inner, hinner, rfl⟩ := Option.map_eq_some_iff.mp hn
    refine ⟨(h.avoids inner hinner).name, ?_⟩
    rintro c hc
    exact Option.some.inj hc ▸ hcls

end Declared.Alike

/-! ### Steps of declarators -/

/-- What has to be shown of the steps of declarators. -/
structure DeclaratorPairs extends View, PairRules where
  report : ∀ (e : Problem) (position : Position),
    pair (Check.report e position) (Check.report e position) fun _ _ => True
  newFunction : ∀ (result : Ty) (params : List Ty) (required : Nat),
    pair (Check.newFunction result params required)
      (Check.newFunction (result.rename toRenaming) (params.map (Ty.rename toRenaming)) required)
      toView.ty

namespace DeclaratorPairs

variable {L : DeclaratorPairs} {p : Phrase} {c : Clause} {q : Option Phrase}

/-- Specifiers that choose the same type, if they choose any. -/
def choice (L : DeclaratorPairs) (a b : Option Ty) : Prop := b = a.map (Ty.rename L.toRenaming)

/-- Rejecting a construct. -/
theorem reject (e : Problem) (position : Position) :
    L.pair (Check.reject e position) (Check.reject e position) L.ty :=
  L.seq (L.report e position) fun _ _ _ => L.ret rfl

/-- A mismatch is reported without numbers. -/
theorem mismatch (expected : String) (received : Ty) (position : Position) :
    L.pair (Check.mismatch expected received position)
      (Check.mismatch expected (received.rename L.toRenaming) position) L.ty := by
  unfold Check.mismatch
  rw [Ty.render_rename]
  exact reject _ _

/-- An index, a size or a label. -/
theorem checkIntegral (ty : Ty) (position : Position) :
    L.pair (CWithClasses.checkIntegral ty position)
      (CWithClasses.checkIntegral (ty.rename L.toRenaming) position) fun _ _ => True := by
  unfold CWithClasses.checkIntegral
  simp only [Ty.isIntegral_rename, Ty.isUnknown_rename, Ty.render_rename]
  split
  · exact L.ret trivial
  · exact L.report _ _

/-- The type of an object. -/
theorem checkObjectType (ty : Ty) (position : Position) :
    L.pair (CWithClasses.checkObjectType ty position)
      (CWithClasses.checkObjectType (ty.rename L.toRenaming) position) L.ty := by
  unfold CWithClasses.checkObjectType
  rw [Ty.isVoid_rename]
  split
  · exact reject _ _
  · exact L.ret rfl

/-- The type of a constant has no numbers. -/
theorem constant {t : Token} {ty : Ty} (h : t.constantTy? = some ty) : L.ty ty ty := by
  unfold Token.constantTy? at h
  split at h <;> cases h <;> rfl

/-- One specifier after others. -/
theorem specifierAfter (hp : L.pair p.roles.specifier p.roles.specifier L.choice)
    (base : Option Ty) :
    L.pair (p.specifierAfter base) (p.specifierAfter (base.map (Ty.rename L.toRenaming)))
      L.choice := by
  unfold Phrase.specifierAfter
  refine L.seq hp ?_
  rintro ty _ rfl
  cases ty with
  | none => exact L.ret rfl
  | some ty =>
    cases base with
    | none => exact L.ret rfl
    | some previous =>
      dsimp only [Option.map_some]
      rw [Ty.render_rename, Ty.render_rename]
      exact L.seq (L.report _ _) fun _ _ _ => L.ret rfl

/-- A specifier that is a single token. Only a name is looked up. -/
theorem specifierToken (hname : ∀ t, c.node.token = some t → t.kind.isName = true →
      L.pair (resolveTypeName t) (resolveTypeName t) L.ty) :
    L.pair c.specifierToken c.specifierToken L.choice := by
  unfold Clause.specifierToken
  refine L.leaf fun t ht => ?_
  split
  next hkind =>
    refine L.seq (hname t ht hkind) ?_
    rintro ty _ rfl
    exact L.ret rfl
  next =>
    split
    · exact L.seq (L.report _ _) fun _ _ _ => L.ret rfl
    · split
      · exact L.ret rfl
      · cases hkind : t.kind.primitive? with
        | none => exact L.unexpected c _
        | some ty =>
          refine L.ret ?_
          unfold TokenKind.primitive? at hkind
          split at hkind <;> cases hkind <;> rfl

/-- A sequence of specifiers. -/
theorem specifiers
    (hp : ∀ item ∈ p.flatten, L.pair item.roles.specifier item.roles.specifier L.choice) :
    L.pair p.specifiers p.specifiers L.ty := by
  unfold Phrase.specifiers
  refine L.seq (P := L.choice) ?_ ?_
  · refine L.foldlM rfl ?_
    rintro base _ rfl item hitem
    exact specifierAfter (hp item hitem) base
  · rintro base _ rfl
    cases base <;> exact L.ret rfl

/-- A sequence of specifiers that may be left out. -/
theorem checkSpecifiers (hq : ∀ r, q = some r → L.pair r.specifiers r.specifiers L.ty) :
    L.pair (checkSpecifiers? q) (checkSpecifiers? q) L.ty := by
  cases q with
  | none => exact L.ret rfl
  | some r => exact hq r rfl

/-- The size of an array dimension. Only one that is no literal is checked as an expression. -/
theorem checkArraySize (hq : ∀ r, q = some r → r.node.integerConstant? = none →
      r.node.invalidSize? = none → L.pair r.roles.expression r.roles.expression L.ty) :
    L.pair (CWithClasses.checkArraySize q) (CWithClasses.checkArraySize q) Eq := by
  unfold CWithClasses.checkArraySize
  split
  · exact L.ret rfl
  next r =>
    split
    · exact L.ret rfl
    next hconstant =>
      split
      · exact L.seq (L.report _ _) fun _ _ _ => L.ret rfl
      next hinvalid =>
        refine L.seq (hq r rfl hconstant hinvalid) ?_
        rintro ty _ rfl
        exact L.seq (checkIntegral ty _) fun _ _ _ => L.ret rfl

/-- A pointer operator. -/
theorem pointerOperator (p : Phrase) (ty : Ty) :
    L.pair (p.pointerOperator ty) (p.pointerOperator (ty.rename L.toRenaming)) L.ty := by
  unfold Phrase.pointerOperator
  split
  · exact L.ret rfl
  · exact reject _ _
  · refine L.leaf fun t _ => ?_
    cases t.kind with
    | star => exact L.ret rfl
    | ampersand => exact L.ret rfl
    | _ => exact L.fault _
  · exact L.fault _

/-- The type of a function with parameters that are alike. -/
theorem newFunctionType (result : Ty) {params params' : List Parameter}
    (hparams : List.Forall₂ (Parameter.Alike L.toView) params params') :
    L.pair (CWithClasses.newFunctionType result params)
      (CWithClasses.newFunctionType (result.rename L.toRenaming) params') L.ty := by
  have htypes : params'.map (·.ty) = (params.map (·.ty)).map (Ty.rename L.toRenaming) := by
    induction hparams with
    | nil => rfl
    | cons hparam _ ih => rw [List.map_cons, List.map_cons, List.map_cons, hparam.ty, ih]
  have hrequired : params'.findIdx (·.hasDefault) = params.findIdx (·.hasDefault) := by
    induction hparams with
    | nil => rfl
    | cons hparam _ ih =>
      have hrest := ih (by simpa using congrArg List.tail htypes)
      rw [List.findIdx_cons, List.findIdx_cons, hparam.hasDefault, hrest]
  unfold CWithClasses.newFunctionType
  rw [htypes, hrequired]
  exact L.newFunction _ _ _

/-! ### Parameters -/

/-- The declarator and the default argument of a parameter are parts of it. -/
theorem parameterParts (p : Phrase) :
    L.pair p.parameterParts p.parameterParts fun a b => a = b ∧ p.rule.isParameter = true ∧
      (∀ d, a.1 = some d → p.part? 1 = some d) ∧
      ∀ d, a.2 = some d → p.rule.givesDefault = true ∧ p.part? 2 = some d := by
  have hnone : ∀ d, none = some d → p.rule.givesDefault = true ∧ p.part? 2 = some d := by
    rintro d hd
    cases hd
  unfold Phrase.parameterParts
  split
  next hrule =>
    have hparam : p.rule.isParameter = true := by rw [hrule]; rfl
    exact L.part fun d hd => L.ret ⟨rfl, hparam, fun _ he => he ▸ hd, hnone⟩
  next hrule =>
    have hparam : p.rule.isParameter = true := by rw [hrule]; rfl
    have hgiven : p.rule.givesDefault = true := by rw [hrule]; rfl
    refine L.part fun d hd => ?_
    refine L.part fun e he => ?_
    exact L.ret ⟨rfl, hparam, fun _ hd' => hd' ▸ hd, fun _ he' => ⟨hgiven, he' ▸ he⟩⟩
  next hrule =>
    have hparam : p.rule.isParameter = true := by rw [hrule]; rfl
    exact L.ret ⟨rfl, hparam, fun _ hd => hd, hnone⟩
  next hrule =>
    have hparam : p.rule.isParameter = true := by rw [hrule]; rfl
    have hgiven : p.rule.givesDefault = true := by rw [hrule]; rfl
    refine L.part fun e he => ?_
    exact L.ret ⟨rfl, hparam, fun _ hd => hd, fun _ he' => ⟨hgiven, he' ▸ he⟩⟩
  next => exact L.fault _

/-- A default argument against its parameter. -/
theorem checkDefault (ty : Ty)
    (hq : ∀ r, q = some r → L.pair r.roles.expression r.roles.expression L.ty) :
    L.pair (CWithClasses.checkDefault ty q)
      (CWithClasses.checkDefault (ty.rename L.toRenaming) q) fun _ _ => True := by
  cases q with
  | none => exact L.ret trivial
  | some r =>
    refine L.seq (hq r rfl) ?_
    rintro value _ rfl
    simp only [compatible_rename, Ty.render_rename]
    split
    · exact L.ret trivial
    · exact L.report _ _

/-- The two runs of the phrase as a declarator go together. -/
def Declarator (L : DeclaratorPairs) (p : Phrase) : Prop :=
  ∀ ty, L.pair (p.roles.declarator ty) (p.roles.declarator (ty.rename L.toRenaming))
    (Declared.Alike L.toView)

/-- An inner declarator that may be left out. -/
theorem declareInner (hq : ∀ r, q = some r → L.Declarator r) (ty : Ty) :
    L.pair (CWithClasses.declareInner q ty)
      (CWithClasses.declareInner q (ty.rename L.toRenaming)) (Declared.Alike L.toView) := by
  cases q with
  | none => exact L.ret (.nameless ty)
  | some r => exact hq r rfl ty

/-- A single parameter. -/
theorem parameter (hbase : p.rule.isParameter = true → ∀ r, p.part? 0 = some r →
      L.pair r.specifiers r.specifiers L.ty)
    (hdeclarator : ∀ r, p.part? 1 = some r → L.Declarator r)
    (hdefault : p.rule.givesDefault = true → ∀ r, p.part? 2 = some r →
      L.pair r.roles.expression r.roles.expression L.ty) :
    L.pair p.parameter p.parameter (Parameter.Alike L.toView) := by
  unfold Phrase.parameter
  refine L.seq (parameterParts p) ?_
  rintro ⟨declarator, default⟩ _ ⟨rfl, hparam, hpart, hgiven⟩
  refine L.part fun r hr => ?_
  refine L.seq (hbase hparam r hr) ?_
  rintro base _ rfl
  have hrest : ∀ d e : Declared, d.Alike L.toView e →
      L.pair
        (do CWithClasses.checkDefault d.ty.decay default
            return Parameter.mk d.name d.ty.decay default.isSome)
        (do CWithClasses.checkDefault e.ty.decay default
            return Parameter.mk e.name e.ty.decay default.isSome) (Parameter.Alike L.toView) := by
    intro d e hde
    rw [hde.ty, hde.name, Ty.decay_rename]
    have hchecked := checkDefault (L := L) d.ty.decay fun r hr =>
      hdefault (hgiven r hr).1 r (hgiven r hr).2
    refine L.seq hchecked fun _ _ _ => ?_
    exact L.ret ⟨rfl, rfl, rfl, hde.avoids⟩
  cases declarator with
  | none => exact hrest _ _ (.nameless base)
  | some d => exact L.seq (hdeclarator d (hpart d rfl) base) hrest

/-- A parameter is not void. -/
theorem checkNotVoid (list : Position) {r r' : Parameter} (h : r.Alike L.toView r') :
    L.pair (CWithClasses.checkNotVoid list r) (CWithClasses.checkNotVoid list r')
      (Parameter.Alike L.toView) := by
  unfold CWithClasses.checkNotVoid
  rw [h.ty, h.name, Ty.isVoid_rename]
  split
  · refine L.seq (reject _ _) fun ty ty' hty => ?_
    exact L.ret ⟨rfl, hty, h.hasDefault, h.avoids⟩
  · exact L.ret h

/-- The parameters of a function. -/
theorem checkParameters (hq : ∀ r, q = some r → ∀ item ∈ r.flatten,
      L.pair item.parameter item.parameter (Parameter.Alike L.toView)) :
    L.pair (CWithClasses.checkParameters q) (CWithClasses.checkParameters q)
      (List.Forall₂ (Parameter.Alike L.toView)) := by
  cases q with
  | none => exact L.ret .nil
  | some r =>
    refine L.seq (L.mapM_same (hq r rfl)) fun params params' hparams => ?_
    have hempty : isEmptyList params' = isEmptyList params := by
      cases hparams with
      | nil => rfl
      | cons hparam hrest =>
        cases hrest with
        | nil =>
          unfold isEmptyList
          dsimp only
          rw [hparam.name, hparam.ty, Ty.isVoid_rename]
        | cons _ _ => rfl
    rw [hempty]
    split
    · exact L.ret .nil
    · exact L.mapM hparams fun _ _ hparam => checkNotVoid _ hparam

/-! ### Declarators -/

section Declarators

variable (hc : c.node.Avoids L.hidden)
  (havoids : ∀ i r, c.part? i = some r → r.node.Avoids L.hidden)
  (hparts : ∀ i r, c.part? i = some r → L.Declarator r)
  (hsize : c.rule = .arrayDeclarator ∨ c.rule = .abstractArray →
    L.pair (CWithClasses.checkArraySize (c.part? 1)) (CWithClasses.checkArraySize (c.part? 1)) Eq)
  (hparams : L.pair (CWithClasses.checkParameters (c.part? 1))
    (CWithClasses.checkParameters (c.part? 1)) (List.Forall₂ (Parameter.Alike L.toView)))

include hparams

/-- A function layer: the parameters, then the function, and then the layers inside. -/
theorem functionLayer (ty : Ty) {k k' : List Parameter → Ty → Check Declared}
    (hk : ∀ params params' function, List.Forall₂ (Parameter.Alike L.toView) params params' →
      L.pair (k params function) (k' params' (function.rename L.toRenaming))
        (Declared.Alike L.toView)) :
    L.pair
      (do let params ← CWithClasses.checkParameters (c.part? 1)
          k params (← CWithClasses.newFunctionType ty params))
      (do let params ← CWithClasses.checkParameters (c.part? 1)
          k' params (← CWithClasses.newFunctionType (ty.rename L.toRenaming) params))
      (Declared.Alike L.toView) := by
  refine L.seq hparams fun params params' hparams => ?_
  refine L.seq (newFunctionType ty hparams) ?_
  rintro function _ rfl
  exact hk params params' function hparams

include hc havoids hparts hsize

/-- The two runs of a declarator go together if those of its parts do. -/
theorem declarator (ty : Ty) :
    L.pair (c.declarator ty) (c.declarator (ty.rename L.toRenaming)) (Declared.Alike L.toView) := by
  unfold Clause.declarator
  split
  next =>
    refine L.leaf fun t ht => ?_
    split
    · refine L.ret ⟨rfl, rfl, .none, ?_⟩
      rintro n hn
      cases hn
      exact ⟨hc.token ht, fun _ h => by cases h⟩
    · exact L.unexpected c _
  next =>
    refine L.part fun r _ => ?_
    refine L.seq (pointerOperator r ty) ?_
    rintro ty _ rfl
    exact L.part fun inner hinner => hparts 1 inner hinner ty
  next =>
    refine L.part fun r _ => ?_
    refine L.seq (pointerOperator r ty) ?_
    rintro ty _ rfl
    exact declareInner (hparts 1) ty
  next =>
    refine functionLayer hparams ty fun params params' function hparams => ?_
    refine L.part fun inner hinner => ?_
    exact L.seq (hparts 0 inner hinner function) fun d e hde => L.ret (hde.withParameters hparams)
  next =>
    refine functionLayer hparams ty fun params params' function hparams => ?_
    refine L.part fun inner hinner => ?_
    exact L.seq (hparts 0 inner hinner function) fun d e hde => L.ret (hde.withParameters hparams)
  next =>
    refine functionLayer hparams ty fun params params' function hparams => ?_
    exact L.seq (declareInner (hparts 0) function) fun d e hde => L.ret (hde.withParameters hparams)
  next hrule =>
    refine L.seq (hsize (.inl hrule)) ?_
    rintro size _ rfl
    exact L.part fun inner hinner => hparts 0 inner hinner (.array ty size)
  next hrule =>
    refine L.seq (hsize (.inr hrule)) ?_
    rintro size _ rfl
    exact declareInner (hparts 0) (.array ty size)
  next => exact declareInner (hparts 0) ty
  next =>
    refine L.part fun r hr => ?_
    refine L.leaf fun cls hcls => ?_
    refine functionLayer hparams .void fun params params' function hparams => ?_
    refine L.ret ⟨rfl, rfl, .some hparams, ?_⟩
    rintro n hn
    cases hn
    exact ⟨(havoids 0 r hr).token hcls, fun _ h => by cases h⟩
  next =>
    refine L.part fun r hr => ?_
    refine L.leaf fun cls hcls => ?_
    refine L.seq (newFunctionType .void .nil) fun _ _ hfunction => ?_
    refine L.ret ⟨rfl, hfunction, .some .nil, ?_⟩
    rintro n hn
    cases hn
    exact ⟨L.destructor cls.text, fun _ h => by cases h⟩
  next =>
    refine L.part fun r hr => ?_
    refine L.lift fun cls hcls => ?_
    have hname := (havoids 0 r hr).nameToken hcls
    refine L.part fun inner hinner => ?_
    refine L.seq (hparts 1 inner hinner ty) fun d e hde => ?_
    exact L.ret (hde.withClass hname)
  next => exact L.unexpected c _

end Declarators

end DeclaratorPairs

end CWithClasses
