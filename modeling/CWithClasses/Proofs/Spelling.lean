import CWithClasses.Check.Meaning
import CWithClasses.Proofs.Flattening
import CWithClasses.Proofs.Integers
import CWithClasses.Proofs.Logic.Basic
import CWithClasses.Proofs.Sameness

/-!
# Types and the declarators that spell them

Types nest from the outside in, and declarators from the inside out: the outermost layer of a type
stands closest to the declared name. `Spelling.declarator` turns a type into the declarator that
declares it, for every type that is built from primitive types by pointers, arrays and functions.

Reading such a declarator gives the type back. The induction is on the type, for any declarator
inside: reading the layers of the type ends with reading the inner declarator, applied to the type.
-/

namespace CWithClasses

/-! ### Declarators of types -/

mutual

/-- Whether a type can be spelled by specifiers that are keywords, and a declarator. -/
def Ty.Spellable : Ty → Prop
  | .int | .double | .char | .bool | .void => True
  | .unknown | .object _ => False
  | .array element size => size < wordSize ∧ element.Spellable
  | .function _ result params _ => result.Spellable ∧ Ty.SpellableParams params
  | .pointer target => target.Spellable

/-- Whether types can be spelled, as those of parameters: they are something, and stay as they are
when they are passed. -/
def Ty.SpellableParams : List Ty → Prop
  | [] => True
  | t :: rest => (t.isVoid = false ∧ t.decay = t ∧ t.Spellable) ∧ Ty.SpellableParams rest

end

namespace Ty

/-- The type below all layers of pointers, arrays and functions. -/
def core : Ty → Ty
  | .array element _ => element.core
  | .function _ result _ _ => result.core
  | .pointer target => target.core
  | t => t

/-- The keyword of a primitive type. -/
def keyword : Ty → TokenKind
  | .double => .doubleType
  | .char => .charType
  | .bool => .boolType
  | .void => .voidType
  | _ => .intType

/-- The parameters of the outermost function layer, which is the one closest to a declared name. -/
def nearestParams? : Ty → Option (List Ty)
  | .array element _ => element.nearestParams?
  | .function _ _ params _ => some params
  | .pointer target => target.nearestParams?
  | _ => none

end Ty

/-- What a spelling is free to choose: the names of parameters, and where everything stands. -/
structure Spelling where
  param : Nat → String
  position : Position

namespace Spelling

variable (w : Spelling)

/-- A specifier sequence that consists of the keyword of a primitive type. -/
def specifiers (t : Ty) : Option Node :=
  Node.list .declSpecSeq [.leaf ⟨t.keyword, t.render, w.position⟩]

/-- A pointer to what the inner declarator declares. -/
def pointer (inner : Node) : Node :=
  { rule := .pointerDeclarator, children := [some (.leaf ⟨.star, "*", w.position⟩), some inner] }

/-- The size of an array, in decimal digits. -/
def size (n : Nat) : Node :=
  { rule := .literal, children := [some (.leaf ⟨.intConst, toString n, w.position⟩)] }

/-- An array of a certain size. -/
def array (inner : Node) (n : Nat) : Node :=
  { rule := .arrayDeclarator, children := [some inner, some (w.size n)] }

mutual

/-- The declarator that adds the layers of a type to an inner declarator. The outermost layer of the
type stands closest to the inner declarator. -/
def declarator : Ty → Node → Node
  | .array element n, inner => declarator element (w.array inner n)
  | .function _ result params _, inner =>
      declarator result
        { rule := .functionDeclarator
          children := [some inner, Node.list .paramList (parameters params 0)] }
  | .pointer target, inner => declarator target (w.pointer inner)
  | .int, inner | .double, inner | .char, inner | .bool, inner | .void, inner | .unknown, inner
  | .object _, inner => inner

/-- Parameters of the given types, with the names from the given one on. -/
def parameters : List Ty → Nat → List Node
  | [], _ => []
  | t :: rest, i =>
      { rule := .namedParam
        children := [w.specifiers t.core,
          some (declarator t (.leaf ⟨.identifier, w.param i, w.position⟩))] } ::
        parameters rest (i + 1)

end

end Spelling

/-! ### Reading a spelling back -/

/-- What goes on after a step depends on the step only through how it ends. -/
theorem Check.bind_congr {α β : Type} {x y : Check α} {s s' : Checker} (h : x s = y s')
    (f : α → Check β) : (x >>= f) s = (y >>= f) s' := by
  change EStateM.bind x f s = EStateM.bind y f s'
  unfold EStateM.bind
  rw [h]

namespace Spelling

variable {w : Spelling}

/-- A parameter is what its type and its place in the list say. -/
structure ReadsParam (w : Spelling) (spelled : Ty × Nat) (param : Parameter) : Prop where
  name : param.name = some { name := w.param spelled.2, position := w.position }
  ty : sameType param.ty spelled.1 = true
  hasDefault : param.hasDefault = false

/-- Reading the declarator of a type gives the type, and the parameters of its nearest function
layer unless the inner declarator has parameters of its own. -/
def ReadsBack (w : Spelling) (t : Ty) : Prop :=
  ∀ (inner : Node) (s : Checker), ∃ ty params count, sameType ty t = true ∧
    Option.Rel (fun types params => List.Forall₂ w.ReadsParam types.zipIdx params)
      t.nearestParams? params ∧
    (w.declarator t inner).checkDeclarator t.core s =
      (do
        let declared ← inner.checkDeclarator ty
        return { declared with parameters := declared.parameters.or params })
        (s.withFunctions count)

/-- Reading the keyword of a primitive type. -/
theorem specifiers_eq {t : Ty} {n : Node} (ht : t.keyword.primitive? = some t)
    (h : w.specifiers t = some n) (s : Checker) : n.phrase.specifiers s = .ok t s := by
  cases h
  cases t <;> first | rfl | cases ht

/-- Reading an array. -/
theorem checkDeclarator_array (inner : Node) (ty : Ty) {n : Nat} (hn : n < wordSize) :
    (w.array inner n).checkDeclarator ty = inner.checkDeclarator (.array ty n) := by
  have hsize : checkArraySize (some (w.size n).phrase) = pure n := by
    have hconstant : (w.size n).phrase.node.integerConstant? = some n := by
      have hsuffix : IsSuffix [] := fun _ h => absurd h List.not_mem_nil
      have hread := (parseInteger_canonical hn hsuffix).1
      rw [List.append_nil, ← Nat.toList_repr, String.ofList_toList] at hread
      exact hread
    unfold checkArraySize
    dsimp only
    rw [hconstant]
  change (do
    let size ← checkArraySize (some (w.size n).phrase)
    inner.checkDeclarator (.array ty size)) = _
  rw [hsize]
  rfl

/-- A declared name. -/
theorem checkDeclarator_leaf (name : Token) (hname : name.kind.isName = true) (ty : Ty) :
    (Node.leaf name).checkDeclarator ty =
      pure { name := some { name := name.text, position := name.position }, ty } := by
  change (if name.kind.isName = true then _ else _) = _
  rw [if_pos hname]

/-- Reading a function whose parameters have been read. -/
theorem checkDeclarator_function (inner : Node) {list : Option Node} (ty : Ty)
    {params : List Parameter} {s : Checker} {count : Nat}
    (h : checkParameters (list.map Node.phrase) s = .ok params (s.withFunctions count)) :
    ∃ id required,
      ({ rule := .functionDeclarator, children := [some inner, list] } : Node).checkDeclarator
        ty s =
      (do
        let declared ← inner.checkDeclarator (.function id ty (params.map Parameter.ty) required)
        return declared.withParameters params) (s.withFunctions (count + 1)) := by
  have hchecks : ({ rule := .functionDeclarator, children := [some inner, list] } :
      Node).checkDeclarator ty = (do
        let params ← checkParameters (list.map Node.phrase)
        let function ← newFunctionType ty params
        let declared ← inner.checkDeclarator function
        return declared.withParameters params) := by
    cases list <;> rfl
  rw [hchecks, Check.bind_ok h, newFunctionType, Check.bind_ok (Check.newFunction_eq _ _ _ _),
    Checker.withFunctions_add]
  exact ⟨_, _, rfl⟩

/-- What is the same as something is something. -/
theorem isVoid_of_sameType {ty t : Ty} (h : sameType ty t = true) : ty.isVoid = t.isVoid := by
  cases ty <;> cases t <;> first | rfl | cases h

/-- A type that is the same as one that stays as it is when it is passed stays as it is, too. -/
theorem decay_of_sameType {ty t : Ty} (h : sameType ty t = true) (ht : t.decay = t) :
    ty.decay = ty := by
  cases ty <;> cases t <;> first | rfl | cases h | cases ht

/-- The keyword below all layers of a type chooses the type there. -/
theorem primitive?_keyword_core : ∀ {t : Ty}, t.Spellable → t.core.keyword.primitive? = some t.core
  | .int, _ | .double, _ | .char, _ | .bool, _ | .void, _ => rfl
  | .array element _, h => primitive?_keyword_core (t := element) h.2
  | .function _ result _ _, h => primitive?_keyword_core (t := result) h.1
  | .pointer target, h => primitive?_keyword_core (t := target) h

/-- Reading a parameter. -/
theorem parameter_eq {t : Ty} (ht : t.Spellable) (hdecay : t.decay = t)
    (hread : w.ReadsBack t) (i : Nat) (s : Checker) : ∃ param count, w.ReadsParam (t, i) param ∧
      Phrase.parameter (Node.phrase
        { rule := .namedParam
          children := [w.specifiers t.core,
            some (w.declarator t (.leaf ⟨.identifier, w.param i, w.position⟩))] }) s =
        .ok param (s.withFunctions count) := by
  obtain ⟨ty, params, count, hty, _, hrun⟩ :=
    hread (.leaf ⟨.identifier, w.param i, w.position⟩) s
  rw [checkDeclarator_leaf _ rfl, pure_bind] at hrun
  have hspecifiers := specifiers_eq (w := w) (primitive?_keyword_core ht) rfl s
  refine ⟨⟨some { name := w.param i, position := w.position }, ty, false⟩, count,
    ⟨rfl, hty, rfl⟩, ?_⟩
  change (do
    let base ← _
    let declared ←
      (w.declarator t (.leaf ⟨.identifier, w.param i, w.position⟩)).checkDeclarator base
    pure (Parameter.mk declared.name declared.ty.decay false) : Check Parameter) s = _
  rw [Check.bind_ok hspecifiers, Check.bind_ok hrun, decay_of_sameType hty hdecay]
  rfl

/-- The parameters of a function are no list of parameters themselves. -/
theorem rule_of_mem_parameters : ∀ {types : List Ty} {i : Nat}, ∀ n ∈ w.parameters types i,
    Rule.continues .paramList n.rule = false
  | [], _, n, hn => by simp [parameters] at hn
  | t :: rest, i, n, hn => by
      rw [parameters, List.mem_cons] at hn
      rcases hn with rfl | hn
      · rfl
      · exact rule_of_mem_parameters n hn

/-- Parameters that have been read are accepted. -/
theorem checkNotVoid_eq {types : List (Ty × Nat)} {params : List Parameter} (position : Position)
    (h : List.Forall₂ w.ReadsParam types params) (htypes : ∀ t ∈ types, t.1.isVoid = false)
    (s : Checker) : params.mapM (checkNotVoid position) s = .ok params s := by
  induction h with
  | nil => rfl
  | @cons t param rest rest' hparam _ ih =>
    have hsome : param.ty.isVoid = false := by
      rw [isVoid_of_sameType hparam.ty]
      exact htypes t List.mem_cons_self
    have hfirst : checkNotVoid position param s = .ok param s := by
      rw [checkNotVoid, if_neg (by rw [hsome]; decide)]
      rfl
    have hrest := ih fun t ht => htypes t (List.mem_cons_of_mem _ ht)
    rw [List.mapM_cons, Check.bind_ok hfirst, Check.bind_ok hrest]
    rfl

/-- Reading the parameters of a function whose parameters can be read one by one. -/
theorem checkParameters_eq {types : List Ty} {params : List Parameter} {s s' : Checker}
    (htypes : ∀ t ∈ types, t.isVoid = false)
    (hparams : List.Forall₂ w.ReadsParam types.zipIdx params)
    (h : ((w.parameters types 0).map Node.phrase).mapM Phrase.parameter s = .ok params s') :
    checkParameters ((Node.list .paramList (w.parameters types 0)).map Node.phrase) s =
      .ok params s' := by
  have hflat : (Node.list .paramList (w.parameters types 0)).elim [] Node.flatten =
      w.parameters types 0 :=
    Node.flatten_list rfl rule_of_mem_parameters
  cases hlist : Node.list .paramList (w.parameters types 0) with
  | none =>
    rw [hlist] at hflat
    rw [← hflat] at h
    exact h
  | some n =>
    rw [hlist, Option.elim_some] at hflat
    have hitems : n.phrase.flatten.mapM Phrase.parameter s = .ok params s' := by
      rw [n.phrase_flatten, hflat]
      exact h
    have hnamed : isEmptyList params = false := by
      generalize types.zipIdx = spelled at hparams
      cases hparams with
      | nil => rfl
      | cons hparam hrest =>
        cases hrest with
        | nil => rw [isEmptyList, hparam.name]; rfl
        | cons => rfl
    change (do
      let params ← n.phrase.flatten.mapM Phrase.parameter
      if isEmptyList params then return [] else params.mapM (checkNotVoid n.phrase.position)) s = _
    rw [Check.bind_ok hitems, if_neg (by rw [hnamed]; decide)]
    refine checkNotVoid_eq _ hparams ?_ s'
    rintro ⟨t, i⟩ ht
    exact htypes t (List.fst_mem_of_mem_zipIdx ht)

/-- Parameters that have been read have the types that were spelled. -/
theorem sameTypes_of_readsParam {types : List Ty} {i : Nat} {params : List Parameter}
    (h : List.Forall₂ w.ReadsParam (types.zipIdx i) params) :
    sameTypes (params.map Parameter.ty) types = true := by
  induction types generalizing i params with
  | nil =>
    cases h
    rfl
  | cons t rest ih =>
    rw [List.zipIdx_cons] at h
    cases h with
    | cons hparam hrest =>
      rw [List.map_cons, sameTypes, hparam.ty, ih hrest]
      rfl

mutual

/-- Every type that can be spelled is read back. -/
theorem readsBack : ∀ {t : Ty}, t.Spellable → w.ReadsBack t
  | .int, _ | .double, _ | .char, _ | .bool, _ | .void, _ => by
      intro inner s
      refine ⟨_, none, 0, sameType_refl _, .none, ?_⟩
      simp only [Option.or_none, Checker.withFunctions_zero]
      exact congrFun (bind_pure (m := Check) _).symm s
  | .array element n, h => by
      intro inner s
      obtain ⟨ty, params, count, hty, hparams, hrun⟩ := readsBack h.2 (w.array inner n) s
      refine ⟨.array ty n, params, count, ?_, hparams, ?_⟩
      · rw [sameType, hty, beq_self_eq_true]
        rfl
      · rw [checkDeclarator_array inner ty h.1] at hrun
        exact hrun
  | .function id result types required, h => by
      intro inner s
      let layer : Node :=
        { rule := .functionDeclarator
          children := [some inner, Node.list .paramList (w.parameters types 0)] }
      obtain ⟨ty, outer, count, hty, _, hrun⟩ := readsBack h.1 layer s
      obtain ⟨htypes, params, count', hparams, hlist⟩ :=
        readsParameters h.2 0 (s.withFunctions count)
      have hread := checkParameters_eq htypes hparams hlist
      obtain ⟨id', required', hfunction⟩ := checkDeclarator_function inner ty hread
      refine ⟨.function id' ty (params.map Parameter.ty) required', some params,
        count + (count' + 1), ?_, .some hparams, ?_⟩
      · rw [sameType, hty, sameTypes_of_readsParam hparams]
        rfl
      · change (w.declarator result layer).checkDeclarator result.core s = _
        rw [hrun, Check.bind_congr hfunction, Checker.withFunctions_add, bind_assoc]
        have hnearest : ∀ declared : Declared,
            (declared.parameters.or (some params)).or outer =
              declared.parameters.or (some params) := by
          intro declared
          cases declared.parameters <;> rfl
        simp only [pure_bind, Declared.withParameters, hnearest]
  | .pointer target, h => by
      intro inner s
      obtain ⟨ty, params, count, hty, hparams, hrun⟩ :=
        readsBack (t := target) h (w.pointer inner) s
      exact ⟨.pointer ty, params, count, hty, hparams, hrun⟩

/-- The parameters of a type that can be spelled are read back. -/
theorem readsParameters : ∀ {types : List Ty}, Ty.SpellableParams types → ∀ (i : Nat) (s : Checker),
    (∀ t ∈ types, t.isVoid = false) ∧ ∃ params count,
      List.Forall₂ w.ReadsParam (types.zipIdx i) params ∧
      ((w.parameters types i).map Node.phrase).mapM Phrase.parameter s =
        .ok params (s.withFunctions count)
  | [], _, i, s => by
      refine ⟨List.forall_mem_nil _, [], 0, .nil, ?_⟩
      rw [Checker.withFunctions_zero]
      rfl
  | t :: rest, h, i, s => by
      obtain ⟨⟨hsome, hdecay, ht⟩, hrest⟩ := h
      obtain ⟨param, count, hparam, hfirst⟩ := parameter_eq ht hdecay (readsBack ht) i s
      obtain ⟨hsomes, params, count', hparams, hothers⟩ :=
        readsParameters hrest (i + 1) (s.withFunctions count)
      refine ⟨List.forall_mem_cons.mpr ⟨hsome, hsomes⟩, param :: params, count + count',
        .cons hparam hparams, ?_⟩
      rw [parameters, List.map_cons, List.mapM_cons, Check.bind_ok hfirst, Check.bind_ok hothers,
        Checker.withFunctions_add]
      rfl

end

/-- Every type that is built from primitive types by pointers, arrays and functions is spelled by a
declarator. In every state, reading that declarator gives the type back, under the declared name and
with the parameters of the function layer closest to the name. Apart from the functions that were
made for it, the state stays as it was. -/
theorem checkDeclarator_declarator (w : Spelling) {t : Ty} (ht : t.Spellable) (name : Token)
    (hname : name.kind.isName = true) (s : Checker) :
    ∃ ty params count,
      (w.declarator t (.leaf name)).checkDeclarator t.core s =
          .ok { name := some { name := name.text, position := name.position }, ty
                parameters := params } (s.withFunctions count) ∧
        sameType ty t = true ∧
        Option.Rel (fun types params => List.Forall₂ w.ReadsParam types.zipIdx params)
          t.nearestParams? params := by
  obtain ⟨ty, params, count, hty, hparams, hrun⟩ := readsBack (w := w) ht (.leaf name) s
  rw [checkDeclarator_leaf name hname, pure_bind] at hrun
  exact ⟨ty, params, count, hrun, hty, hparams⟩

/-- An array of pointers to functions that return a pointer to an array, as it is declared by
`int (*(*x[3])(char (*p0)[2], double p1))[7]`. -/
theorem checkDeclarator_arrayOfFunctionPointers :
    let params : List Ty := [.pointer (.array .char 2), .double]
    let t : Ty := .array (.pointer (.function 0 (.pointer (.array .int 7)) params 2)) 3
    let w : Spelling := ⟨fun i => s!"p{i}", ⟨1, "table.cpp"⟩⟩
    let name : Token := ⟨.identifier, "x", ⟨2, "table.cpp"⟩⟩
    t.Spellable ∧ name.kind.isName = true ∧ t.core = .int ∧ t.nearestParams? = some params ∧
      ∃ ty params count,
        (w.declarator t (.leaf name)).checkDeclarator .int {} =
            .ok { name := some { name := "x", position := ⟨2, "table.cpp"⟩ }, ty
                  parameters := params } (({} : Checker).withFunctions count) ∧
          sameType ty t = true ∧
          Option.Rel (fun types params => List.Forall₂ w.ReadsParam types.zipIdx params)
            t.nearestParams? params := by
  intro params t w name
  have hparams : Ty.SpellableParams params :=
    ⟨⟨rfl, rfl, by decide, trivial⟩, ⟨rfl, rfl, trivial⟩, trivial⟩
  have ht : t.Spellable := ⟨by decide, ⟨by decide, trivial⟩, hparams⟩
  exact ⟨ht, rfl, rfl, rfl, checkDeclarator_declarator w ht name rfl {}⟩

end Spelling

end CWithClasses
