import CWithClasses.Proofs.Spelling

/-!
# Allocations and declarations

A new-expression allocates elements of a type and points to the first of them: `new int *[2][3]`
points to an array of three pointers. A declarator with the same pointers and dimensions declares an
array of all elements, `int *a[2][3]`, which decays to that pointer.

Both are read from the outside in, so the last dimension comes first: it is the innermost one of the
type, while the first dimension only counts the elements. Reading stops in front of it for a
new-expression, and goes on to the name for a declarator.
-/

namespace CWithClasses

open Check

/-! ### Trees with pointers and dimensions -/

namespace Node

/-- The tree is a pointer operator: a star, perhaps with qualifiers. -/
def IsStar (n : Node) : Prop :=
  n.rule = .qualifiedPointer ∨ n.rule = .token ∧ ∃ t, n.token = some t ∧ t.kind = .star

/-- Pointers around a declarator, the outermost one first. -/
def pointers (operators : List Node) (inner : Node) : Node :=
  operators.foldr
    (fun op inner => { rule := .pointerDeclarator, children := [some op, some inner] }) inner

/-- Dimensions behind a declarator, in the order of the source. -/
def arrays (inner : Node) (dimensions : List Node) : Node :=
  dimensions.foldl
    (fun inner d => { rule := .arrayDeclarator, children := [some inner, some d] }) inner

/-- Pointers around a new-declarator, the outermost one first. -/
def newPointers (operators : List Node) (inner : Node) : Node :=
  operators.foldr (fun op inner => { rule := .newPointer, children := [some op, some inner] }) inner

/-- The dimensions of a new-declarator, in the order of the source. There is at least one. -/
def newArrays (first : Node) (rest : List Node) : Node :=
  rest.foldl (fun inner d => { rule := .newArray, children := [some inner, some d] })
    { rule := .newBound, children := [some first] }

/-- A new-expression without arguments: specifiers, pointers and dimensions. -/
def allocation (specifiers : Node) (operators : List Node) (first : Node)
    (rest : List Node) : Node :=
  { rule := .newExpr
    children := [
      some { rule := .newTypeId
             children := [some specifiers, some (newPointers operators (newArrays first rest))] },
      none] }

end Node

/-! ### Reading them -/

/-- What goes on after a step matters only for the results that the step yields. -/
theorem Check.Yields.bind_congr {α β : Type} {x : Check α} {R : α → Prop} {f g : α → Check β}
    (hx : x.Yields R) (h : ∀ a, R a → f a = g a) : x >>= f = x >>= g := by
  funext s
  cases hrun : x s with
  | ok a s' => rw [bind_ok hrun, bind_ok hrun, h a (hx s a s' hrun)]
  | error e s' => rw [bind_error hrun, bind_error hrun]

/-- Adds one dimension to a type. -/
def addDimension (d : Node) (ty : Ty) : Check Ty :=
  return .array ty (← checkArraySize (some d.phrase))

/-- The type behind some pointer operators. -/
def pointTo (operators : List Node) (ty : Ty) : Ty := operators.foldl (fun t _ => .pointer t) ty

/-- Dimensions lead from a type that is no class to types that are none. -/
theorem yields_addDimension (dimensions : List Node) {ty : Ty} (hty : ty.objectClass? = none) :
    (dimensions.foldrM addDimension ty).Yields fun t => t.objectClass? = none := by
  cases dimensions with
  | nil => exact .ret hty
  | cons d rest =>
    rw [List.foldrM_cons]
    exact .next fun element => .next fun size => .ret rfl

/-- Pointers lead from a type that is no class to one that is none. -/
theorem objectClass?_pointTo (operators : List Node) {ty : Ty} (hty : ty.objectClass? = none) :
    (pointTo operators ty).objectClass? = none := by
  induction operators generalizing ty with
  | nil => exact hty
  | cons op rest ih => exact ih rfl

namespace Node

variable {operators : List Node}

/-- A star adds a pointer. -/
theorem IsStar.pointerOperator {n : Node} (h : n.IsStar) (ty : Ty) :
    n.phrase.pointerOperator ty = pure (.pointer ty) := by
  unfold Phrase.pointerOperator Phrase.rule
  rw [n.phrase_node]
  rcases h with hrule | ⟨hrule, t, ht, hkind⟩
  · rw [hrule]
  · have htoken : (liftM n.leafToken : Check Token) = pure t := by
      rw [leafToken, ht]
      rfl
    simp [hrule, htoken, hkind]

/-- The pointers of a declarator are added first. -/
theorem checkDeclarator_pointers (h : ∀ op ∈ operators, op.IsStar) (inner : Node) (ty : Ty) :
    (pointers operators inner).checkDeclarator ty =
      inner.checkDeclarator (pointTo operators ty) := by
  induction operators generalizing ty with
  | nil => rfl
  | cons op rest ih =>
    rw [List.forall_mem_cons] at h
    change (do
      let ty ← op.phrase.pointerOperator ty
      (pointers rest inner).checkDeclarator ty) = _
    rw [h.1.pointerOperator, pure_bind, ih h.2]
    rfl

/-- The dimensions of a declarator are added from the last one on, before the inner declarator. -/
theorem checkDeclarator_arrays (inner : Node) (dimensions : List Node) (ty : Ty) :
    (arrays inner dimensions).checkDeclarator ty =
      dimensions.foldrM addDimension ty >>= inner.checkDeclarator := by
  induction dimensions using List.reverseRecOn generalizing ty with
  | nil => rfl
  | append_singleton front d ih =>
    have hstep : arrays inner (front ++ [d]) =
        { rule := .arrayDeclarator, children := [some (arrays inner front), some d] } := by
      simp [arrays]
    rw [hstep]
    change (do
      let size ← checkArraySize (some d.phrase)
      (arrays inner front).checkDeclarator (.array ty size)) = _
    simp [ih, addDimension]

/-- Checks a tree as a new-declarator of the given base type. -/
def checkNewDeclarator (n : Node) (base : Ty) : Check Ty := n.phrase.roles.newDeclarator base

/-- The pointers of a new-declarator are added first. -/
theorem checkNewDeclarator_newPointers (inner : Node) (ty : Ty) :
    (newPointers operators inner).checkNewDeclarator ty =
      inner.checkNewDeclarator (pointTo operators ty) := by
  induction operators generalizing ty with
  | nil => rfl
  | cons op rest ih => exact ih (.pointer ty)

/-- The dimensions of a new-declarator are added from the last one on. The first one is only
read. -/
theorem checkNewDeclarator_newArrays (first : Node) (rest : List Node) (ty : Ty) :
    (newArrays first rest).checkNewDeclarator ty = (do
      let element ← rest.foldrM addDimension ty
      let _ ← checkArraySize (some first.phrase)
      return element) := by
  induction rest using List.reverseRecOn generalizing ty with
  | nil => rfl
  | append_singleton front d ih =>
    have hstep : newArrays first (front ++ [d]) =
        { rule := .newArray, children := [some (newArrays first front), some d] } := by
      simp [newArrays]
    rw [hstep]
    change (do
      let size ← checkArraySize (some d.phrase)
      (newArrays first front).checkNewDeclarator (.array ty size)) = _
    simp [ih, addDimension]

/-- The keyword of a primitive type, alone or in a sequence, chooses that type. -/
theorem specifiers_of_keyword {n : Node} {keyword : Token} {base : Ty}
    (hflat : n.flatten = [.leaf keyword]) (hbase : keyword.kind.primitive? = some base) :
    n.phrase.specifiers = pure base := by
  have hspecifier : (Node.leaf keyword).phrase.roles.specifier = pure (some base) := by
    obtain ⟨kind, text, position⟩ := keyword
    cases kind <;> cases hbase <;> rfl
  unfold Phrase.specifiers
  rw [n.phrase_flatten, hflat]
  simp [Phrase.specifierAfter, hspecifier]

/-- An allocation reads the dimensions of its elements and then their number. -/
theorem checkExpression_allocation {specifiers : Node} {keyword : Token} {base : Ty}
    (hflat : specifiers.flatten = [.leaf keyword]) (hbase : keyword.kind.primitive? = some base)
    (first : Node) (rest : List Node) :
    (allocation specifiers operators first rest).checkExpression = (do
      let element ← rest.foldrM addDimension (pointTo operators base)
      let _ ← checkArraySize (some first.phrase)
      return .pointer element) := by
  have hclass : base.objectClass? = none := by
    cases hkind : keyword.kind <;> rw [hkind] at hbase <;> cases hbase <;> rfl
  have helement : (do
      let base ← specifiers.phrase.specifiers
      (newPointers operators (newArrays first rest)).checkNewDeclarator base) = (do
        let element ← rest.foldrM addDimension (pointTo operators base)
        let _ ← checkArraySize (some first.phrase)
        return element) := by
    rw [specifiers_of_keyword hflat hbase, pure_bind, checkNewDeclarator_newPointers,
      checkNewDeclarator_newArrays]
  obtain ⟨construct, hnew, hconstruct⟩ : ∃ construct : Ty → Check Ty,
      (allocation specifiers operators first rest).checkExpression =
        (specifiers.phrase.specifiers >>=
          (newPointers operators (newArrays first rest)).checkNewDeclarator) >>= construct ∧
      ∀ t, t.objectClass? = none → construct t = pure (.pointer t) := by
    refine ⟨_, rfl, fun t ht => ?_⟩
    simp only [ht]
    rfl
  rw [hnew, helement, bind_assoc]
  refine (yields_addDimension rest (objectClass?_pointTo operators hclass)).bind_congr
    fun t ht => ?_
  simp [hconstruct t ht]

/-- A declared array reads the dimensions of its elements and then their number. -/
theorem checkDeclarator_declaredArray {name : Token} (hoperators : ∀ op ∈ operators, op.IsStar)
    (hname : name.kind.isName = true) (base : Ty) (first : Node) (rest : List Node) :
    (pointers operators (arrays (.leaf name) (first :: rest))).checkDeclarator base = (do
      let element ← rest.foldrM addDimension (pointTo operators base)
      let size ← checkArraySize (some first.phrase)
      return { name := some { name := name.text, position := name.position }
               ty := .array element size }) := by
  rw [checkDeclarator_pointers hoperators, checkDeclarator_arrays]
  simp [addDimension, Spelling.checkDeclarator_leaf name hname]

/-- A new-expression with dimensions and a declarator with the same pointers and dimensions fail
alike, or they end in the same state, and the new-expression has the type of the declared array when
it is used as a pointer. -/
theorem checkExpression_allocation_decay {specifiers : Node} {keyword name : Token} {base : Ty}
    (hflat : specifiers.flatten = [.leaf keyword]) (hbase : keyword.kind.primitive? = some base)
    (hoperators : ∀ op ∈ operators, op.IsStar) (hname : name.kind.isName = true)
    (first : Node) (rest : List Node) (s : Checker) :
    match (allocation specifiers operators first rest).checkExpression s,
      (pointers operators (arrays (.leaf name) (first :: rest))).checkDeclarator base s with
    | .ok ty s₁, .ok declared s₂ => s₁ = s₂ ∧ sameType ty declared.ty.decay = true
    | .error e₁ s₁, .error e₂ s₂ => e₁ = e₂ ∧ s₁ = s₂
    | _, _ => False := by
  rw [checkExpression_allocation hflat hbase, checkDeclarator_declaredArray hoperators hname]
  cases helement : rest.foldrM addDimension (pointTo operators base) s with
  | error e s₁ =>
    rw [bind_error helement, bind_error helement]
    exact ⟨rfl, rfl⟩
  | ok element s₁ =>
    rw [bind_ok helement, bind_ok helement]
    cases hsize : checkArraySize (some first.phrase) s₁ with
    | error e s₂ =>
      rw [bind_error hsize, bind_error hsize]
      exact ⟨rfl, rfl⟩
    | ok size s₂ =>
      rw [bind_ok hsize, bind_ok hsize]
      exact ⟨rfl, sameType_refl _⟩

/-- A token of a line that allocates or declares a table. -/
def tableToken (kind : TokenKind) (text : String) : Token := ⟨kind, text, ⟨1, "table.cpp"⟩⟩

/-- `new int *[2][3][n]` and `int *table[2][3][n]` with an undeclared `n`: the unknown dimension is
reported once by either, and the first one is missing behind the pointer. -/
theorem checkExpression_allocation_table :
    ∃ ty declared s s',
      (allocation (.leaf (tableToken .intType "int")) [.leaf (tableToken .star "*")]
          (.leaf (tableToken .intConst "2"))
          [.leaf (tableToken .intConst "3"),
            .leaf (tableToken .identifier "n")]).checkExpression {} =
        .ok ty s ∧
      (pointers [.leaf (tableToken .star "*")] (arrays (.leaf (tableToken .identifier "table"))
          [.leaf (tableToken .intConst "2"), .leaf (tableToken .intConst "3"),
            .leaf (tableToken .identifier "n")])).checkDeclarator .int {} =
        .ok declared s' ∧
      s.diagnostics.length = 1 ∧ ty = .pointer (.array (.array (.pointer .int) 0) 3) ∧
      s = s' ∧ sameType ty declared.ty.decay = true := by
  have hflat : (leaf (tableToken .intType "int")).flatten = [.leaf (tableToken .intType "int")] :=
    rfl
  have hname : (tableToken .identifier "table").kind.isName = true := rfl
  have hoperators : ∀ op ∈ [leaf (tableToken .star "*")], op.IsStar := by
    simp [tableToken, IsStar, leaf]
  refine ⟨_, _, _, _, rfl, rfl, ?_, ?_, ?_⟩
  · rfl
  · rfl
  · exact checkExpression_allocation_decay hflat rfl hoperators hname
      (leaf (tableToken .intConst "2"))
      [leaf (tableToken .intConst "3"), leaf (tableToken .identifier "n")] {}

end Node

end CWithClasses
