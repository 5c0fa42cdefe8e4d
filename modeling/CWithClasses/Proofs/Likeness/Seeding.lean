import CWithClasses.Proofs.Likeness.Step
import CWithClasses.Scope.Builtin

/-!
# Built-in declarations in tables that are alike

Built-in declarations are made one after another. `SymbolTable.AlikeHiding` is followed along them:
a declaration may be made in both tables, or, if its name is hidden, in the second table only. In
the latter case the numbers of all that is yet to be made move up by one.
-/

namespace CWithClasses

/-! ### Moving up -/

/-- The numbers from a certain one on move up by one. -/
def Renaming.skip (f : Nat → Nat) (n i : Nat) : Nat := if i < n then f i else f i + 1

namespace Renaming

variable {f : Nat → Nat} {n m : Nat}

/-- The order stays as it is. -/
theorem strictMono_skip (hf : StrictMono f) (n : Nat) : StrictMono (skip f n) := by
  intro i j hij
  have hlt := hf hij
  unfold skip
  split <;> split <;> omega

/-- All numbers have been in use before. -/
theorem exists_skip_eq (hf : ∀ k, f (n + k) = m + k) (i : Nat) : ∃ j, skip f n i = f j := by
  unfold skip
  split
  · exact ⟨i, rfl⟩
  · obtain ⟨k, rfl⟩ := Nat.exists_eq_add_of_le (Nat.le_of_not_lt (by assumption))
    refine ⟨n + (k + 1), ?_⟩
    rw [hf, hf]
    omega

/-- One number is not in use any more. -/
theorem skip_ne (hmono : StrictMono f) (hf : f n = m) (i : Nat) : skip f n i ≠ m := by
  unfold skip
  split
  · have hlt : f i < f n := hmono (by assumption)
    omega
  · have hle : f n ≤ f i := hmono.monotone (by omega)
    omega

end Renaming

namespace Likeness

/-- One more class in the second table. -/
def skipClass (L : Likeness) (n : Nat) : Likeness :=
  { L with
    cls := Renaming.skip L.cls n
    injective_cls := (Renaming.strictMono_skip L.strictMono_cls n).injective
    strictMono_cls := Renaming.strictMono_skip L.strictMono_cls n }

/-- One more function in the second table. -/
def skipFunction (L : Likeness) (n : Nat) : Likeness :=
  { L with
    fn := Renaming.skip L.fn n
    injective_fn := (Renaming.strictMono_skip L.strictMono_fn n).injective
    strictMono_fn := Renaming.strictMono_skip L.strictMono_fn n }

end Likeness

/-! ### Tables that hold built-in declarations -/

/-- A name that is bound is among the bindings. -/
theorem Bindings.mem_of_lookup {b : Bindings} {name : String} {ty : Ty}
    (h : b.lookup name = some ty) : (name, ty) ∈ b := by
  obtain ⟨front, back, rfl, _⟩ := List.lookup_eq_some_iff.mp h
  exact List.mem_append_right _ List.mem_cons_self

namespace SymbolTable

/-- The class or the function has been made in the table. -/
def Made (t : SymbolTable) : Nat ⊕ Nat → Prop
  | .inl i => i < t.bodies.size
  | .inr i => i < t.classes.size

/-- What holds of a table that only built-in declarations have been made in. -/
structure Seeded (t : SymbolTable) : Prop where
  outer : t.outer = []
  kind : t.current.kind = .global
  bindings : ∀ entry ∈ t.current.bindings, ∀ x, entry.2.mentions.Has x → t.Made x
  recorded : ∀ c ∈ t.current.classes, c.id < t.classes.size
  members : ∀ b ∈ t.classes, b.isEmpty = true
  bodies : ∀ i : Nat, t.bodies[i]?.join = none

end SymbolTable

/-- The types of a built-in declaration mention nothing. -/
def Builtin.Closed : Builtin → Prop
  | .value ty => ∀ x, ¬ ty.mentions.Has x
  | .function result params =>
      (∀ x, ¬ result.mentions.Has x) ∧ ∀ param ∈ params, ∀ x, ¬ param.mentions.Has x
  | .newClass | .objectOf _ => True

/-- A built-in function mentions itself only. -/
theorem Builtin.Closed.has_function {result : Ty} {params : List Ty} {id required : Nat}
    {x : Nat ⊕ Nat} (h : (Builtin.function result params).Closed)
    (hx : (Ty.function id result params required).mentions.Has x) : x = .inl id := by
  have hparams : ∀ {ts : List Ty}, (∀ ty ∈ ts, ∀ x, ¬ ty.mentions.Has x) →
      ¬ (Ty.mentionsOf ts).Has x := by
    intro ts
    induction ts with
    | nil => exact fun _ => Mentions.not_has_empty
    | cons ty rest ih =>
      intro hall hmention
      rw [Ty.mentionsOf, Mentions.has_append] at hmention
      rcases hmention with hfirst | hrest
      · exact hall ty List.mem_cons_self x hfirst
      · exact ih (fun ty hty => hall ty (List.mem_cons_of_mem _ hty)) hrest
  rw [Ty.mentions, Mentions.has_append, Mentions.has_append] at hx
  rcases hx with (hid | hresult) | hparam
  · cases x with
    | inl i => exact congrArg Sum.inl (List.mem_singleton.mp hid)
    | inr i => cases hid
  · exact absurd hresult (h.1 x)
  · exact absurd hparam (hparams h.2)

/-- No built-in declaration has numbers in its types. -/
theorem Header.closed (h : Header) : ∀ entry ∈ h.builtins, entry.2.Closed := by
  cases h <;> simp [builtins, Builtin.Closed, Builtin.text, Ty.mentions]

namespace SymbolTable.Seeded

variable {t : SymbolTable} {name : String}

/-- An empty table. -/
theorem empty : SymbolTable.empty.Seeded where
  outer := rfl
  kind := rfl
  bindings _ hentry := by cases hentry
  recorded _ hc := by cases hc
  members b hb := by simp [SymbolTable.empty] at hb
  bodies i := by simp [SymbolTable.empty]

/-- Its scope is no class body. -/
theorem cls?_eq (h : t.Seeded) : t.current.cls? = none := by
  unfold Frame.cls?
  rw [h.kind]

/-- What a name means. -/
theorem lookup?_eq (h : t.Seeded) : t.lookup? name = t.current.bindings.lookup name := by
  unfold lookup? frames findIn
  rw [h.outer, List.findSome?_cons, h.cls?_eq]
  cases t.current.bindings.lookup name <;> rfl

/-- Binding a name. -/
theorem insert (h : t.Seeded) {ty : Ty} (hty : ∀ x, ty.mentions.Has x → t.Made x) {t' : SymbolTable}
    (ht' : t.insert name ty = .ok t') : t'.Seeded := by
  rcases insert_cases ht' with ⟨c, b, hcls, -⟩ | ⟨-, -, rfl⟩
  · cases h.cls?_eq.symm.trans hcls
  · refine ⟨h.outer, h.kind, ?_, h.recorded, h.members, h.bodies⟩
    intro entry hentry
    rcases List.mem_cons.mp hentry with rfl | hrest
    · exact hty
    · exact h.bindings entry hrest

/-- Making a class. -/
theorem newClass (h : t.Seeded) (name : String) (b : ClassBody) (hb : b.isEmpty = true)
    {current : Frame} (hcurrent : current = t.current.record ⟨t.classes.size, name⟩) :
    SymbolTable.Seeded { t with classes := t.classes.push b, current := current } := by
  have hrecord : current.kind = t.current.kind ∧ current.bindings = t.current.bindings ∧
      ∀ c ∈ current.classes, c ∈ t.current.classes ∨ c.id = t.classes.size := by
    rw [hcurrent]
    unfold Frame.record
    split
    · exact ⟨rfl, rfl, fun c hc => .inl hc⟩
    · refine ⟨rfl, rfl, fun c hc => ?_⟩
      rcases List.mem_append.mp hc with hc | hc
      · exact .inl hc
      · exact .inr (List.mem_singleton.mp hc ▸ rfl)
  refine ⟨h.outer, hrecord.1.trans h.kind, ?_, ?_, ?_, h.bodies⟩
  · rw [hrecord.2.1]
    intro entry hentry x hx
    have hmade := h.bindings entry hentry x hx
    cases x with
    | inl i => exact hmade
    | inr i =>
      change i < (t.classes.push b).size
      rw [Array.size_push]
      exact Nat.lt_succ_of_lt hmade
  · intro c hc
    change c.id < (t.classes.push b).size
    rw [Array.size_push]
    rcases hrecord.2.2 c hc with hold | hnew
    · exact Nat.lt_succ_of_lt (h.recorded c hold)
    · omega
  · intro b' hb'
    rcases Array.mem_push.mp hb' with hold | rfl
    · exact h.members b' hold
    · exact hb

/-- Making a function. -/
theorem newFunction (h : t.Seeded) :
    SymbolTable.Seeded { t with bodies := t.bodies.push none } := by
  refine ⟨h.outer, h.kind, ?_, h.recorded, h.members, ?_⟩
  · intro entry hentry x hx
    have hmade := h.bindings entry hentry x hx
    cases x with
    | inl i =>
      change i < (t.bodies.push none).size
      rw [Array.size_push]
      exact Nat.lt_succ_of_lt hmade
    | inr i => exact hmade
  · intro i
    change (t.bodies.push none)[i]?.join = none
    rw [Array.getElem?_push]
    split
    · rfl
    · exact h.bodies i

end SymbolTable.Seeded

namespace SymbolTable

variable {t u : SymbolTable} {name : String} {b : Builtin}

/-- A built-in class that is made outside of all classes. -/
theorem builtinTy_newClass (h : t.current.cls? = none) (name : String) :
    t.builtinTy name .newClass = (.object ⟨t.classes.size, name⟩,
      { t with
        classes := t.classes.push { complete := true }
        current := t.current.record ⟨t.classes.size, name⟩ }) := by
  have hcomplete : (t.classes.push {}).modify t.classes.size
      (fun body : ClassBody => { body with complete := true }) =
        t.classes.push { complete := true } := by
    apply Array.ext_getElem?
    intro i
    rw [Array.getElem?_modify, Array.getElem?_push, Array.getElem?_push]
    by_cases hi : i = t.classes.size
    · simp [hi]
    · have hi' : ¬ t.classes.size = i := fun heq => hi heq.symm
      simp [hi, hi']
  have hopen : t.current.isClassBody = false := by
    unfold Frame.isClassBody
    rw [h]
    rfl
  change (_, SymbolTable.declareClass _ _) = _
  unfold SymbolTable.declareClass SymbolTable.markComplete SymbolTable.modifyClass
  dsimp only [SymbolTable.newClass]
  rw [hopen, hcomplete]
  rfl

/-- A built-in name is bound, unless it is bound already. -/
theorem declareBuiltin_cases (t : SymbolTable) (entry : String × Builtin) {ty : Ty}
    {made : SymbolTable} (h : t.builtinTy entry.1 entry.2 = (ty, made)) :
    made.insert entry.1 ty = .ok (t.declareBuiltin entry) ∨ t.declareBuiltin entry = made := by
  unfold declareBuiltin
  rw [h]
  dsimp only
  cases made.insert entry.1 ty with
  | ok t' => exact .inl rfl
  | error e => exact .inr rfl

/-- What a built-in declaration makes in a table. -/
theorem Seeded.builtinTy (h : t.Seeded) (name : String) (hb : b.Closed) :
    (t.builtinTy name b).2.Seeded ∧
      ∀ x, (t.builtinTy name b).1.mentions.Has x → (t.builtinTy name b).2.Made x := by
  cases b with
  | value ty => exact ⟨h, fun x hx => absurd hx (hb x)⟩
  | newClass =>
    rw [builtinTy_newClass h.cls?_eq]
    refine ⟨h.newClass name _ rfl rfl, fun x hx => ?_⟩
    obtain rfl := Mentions.has_ofClass.mp hx
    change t.classes.size < (t.classes.push _).size
    rw [Array.size_push]
    omega
  | objectOf cls =>
    refine ⟨h, fun x hx => ?_⟩
    change ((t.lookup? cls).getD .unknown).mentions.Has x at hx
    rw [h.lookup?_eq] at hx
    cases hfound : t.current.bindings.lookup cls with
    | none =>
      rw [hfound] at hx
      exact absurd hx Mentions.not_has_empty
    | some ty =>
      rw [hfound] at hx
      exact h.bindings _ (Bindings.mem_of_lookup hfound) x hx
  | function result params =>
    refine ⟨h.newFunction, fun x hx => ?_⟩
    obtain rfl := hb.has_function hx
    change t.bodies.size < (t.bodies.push none).size
    rw [Array.size_push]
    omega

/-- Built-in declarations keep to themselves. -/
theorem Seeded.declareBuiltin (h : t.Seeded) {entry : String × Builtin} (hb : entry.2.Closed) :
    (t.declareBuiltin entry).Seeded := by
  obtain ⟨hmade, hty⟩ := h.builtinTy entry.1 hb
  rcases t.declareBuiltin_cases entry rfl with hinsert | hrefused
  · exact hmade.insert hty hinsert
  · rw [hrefused]
    exact hmade

end SymbolTable

/-! ### Declarations of both configurations -/

namespace SymbolTable.Alike

variable {L : Likeness} {t u : SymbolTable} {name : String} {b : Builtin}

/-- What is made in both tables. -/
theorem builtinTy (h : t.Alike L u) (name : String) (hb : b.Closed)
    (hcls : ∀ cls, b = .objectOf cls → cls ∉ L.hidden) :
    L.ty (t.builtinTy name b).1 (u.builtinTy name b).1 ∧
      (t.builtinTy name b).2.Alike L (u.builtinTy name b).2 := by
  cases b with
  | value ty => exact ⟨(Ty.rename_eq_self hb).symm, h⟩
  | newClass =>
    have hnumber := h.rename_newClass name
    refine ⟨congrArg Ty.object hnumber, ?_⟩
    change SymbolTable.Alike L
      (((t.newClass name).2.markComplete (t.newClass name).1).declareClass (t.newClass name).1)
      (((u.newClass name).2.markComplete (u.newClass name).1).declareClass (u.newClass name).1)
    rw [hnumber]
    exact ((h.newClass name).markComplete _).declareClass _
  | objectOf cls =>
    refine ⟨?_, h⟩
    change (u.lookup? cls).getD .unknown = ((t.lookup? cls).getD .unknown).rename L.toRenaming
    rw [h.seen.lookup? (hcls cls rfl)]
    cases t.lookup? cls <;> rfl
  | function result params =>
    have hresult : result.rename L.toRenaming = result := Ty.rename_eq_self hb.1
    have hparams : params.map (Ty.rename L.toRenaming) = params := by
      rw [List.map_congr_left fun param hparam => Ty.rename_eq_self (hb.2 param hparam),
        List.map_id']
    have hnumber := h.rename_newFunction result params params.length
    rw [hresult, hparams] at hnumber
    exact ⟨hnumber, h.newFunction params.length⟩

/-- A declaration that is made in both tables. -/
theorem declareBuiltin (h : t.Alike L u) {entry : String × Builtin} (hb : entry.2.Closed)
    (hname : entry.1 ∉ L.hidden) (hcls : ∀ cls, entry.2 = .objectOf cls → cls ∉ L.hidden) :
    (t.declareBuiltin entry).Alike L (u.declareBuiltin entry) := by
  obtain ⟨hty, htables⟩ := h.builtinTy entry.1 hb hcls
  unfold SymbolTable.declareBuiltin
  generalize t.builtinTy entry.1 entry.2 = made at hty htables
  generalize u.builtinTy entry.1 entry.2 = made' at hty htables
  obtain ⟨ty, t₁⟩ := made
  obtain ⟨ty', u₁⟩ := made'
  dsimp only at hty htables ⊢
  subst hty
  obtain ⟨t', u', ht', hu', halike⟩ | ⟨e, ht', hu'⟩ := htables.insert hname ty
  · rw [ht', hu']
    exact halike
  · rw [ht', hu']
    exact htables

end SymbolTable.Alike

/-! ### Declarations of the second configuration only -/

section Hidden

variable {L L' : Likeness} {t u : SymbolTable} {f g : Frame} {name : String} {b : Builtin}

/-- Binding a hidden name in the second scope only. -/
theorem Frame.Alike.bindHidden (h : f.Alike L g) (hname : name ∈ L.hidden) {ty : Ty}
    (hty : ty.mentions.Foreign L.toRenaming) :
    f.Alike L { g with bindings := (name, ty) :: g.bindings } where
  kind := h.kind
  access := h.access
  bindings := by
    have hrest := h.bindings
    unfold Bindings.visible at hrest ⊢
    rw [List.filter_cons, if_neg (by simpa using hname), hrest]
  foreign entry hentry hhidden := by
    rcases List.mem_cons.mp hentry with rfl | hrest
    · exact hty
    · exact h.foreign entry hrest hhidden
  classes := h.classes

/-- Recording a class in the second scope only. -/
theorem Frame.Alike.recordOwn (h : f.Alike L g) (hf : f.classes = []) {c : ClassRef}
    (hc : ∀ i, L.cls i ≠ c.id) : f.Alike L (g.record c) := by
  obtain ⟨own, hclasses, hown⟩ := h.classes
  unfold Frame.record
  split
  · exact h
  · refine ⟨h.kind, h.access, h.bindings, h.foreign, own ++ [c], ?_, ?_⟩
    · dsimp only
      rw [hclasses, hf]
      simp
    · intro d hd
      rcases List.mem_append.mp hd with hd | hd
      · exact hown d hd
      · exact List.mem_singleton.mp hd ▸ hc

/-- A scope stays alike if what has been made keeps its numbers and no others come into use. -/
theorem SymbolTable.Seeded.renumber (ht : t.Seeded) (h : t.current.Alike L g)
    (hhidden : L'.hidden = L.hidden)
    (hagrees : ∀ x, t.Made x → L'.either x = L.either x)
    (hrange : ∀ x, ∃ y, L'.either x = L.either y) : t.current.Alike L' g where
  kind := by
    rw [h.kind, ht.kind]
    rfl
  access := h.access
  bindings := by
    rw [hhidden, h.bindings]
    refine List.map_congr_left fun entry hentry => ?_
    have hsame : entry.2.rename L'.toRenaming = entry.2.rename L.toRenaming :=
      Ty.rename_congr fun x hx => hagrees x (ht.bindings entry hentry x hx)
    rw [hsame]
  foreign entry hentry hname x := by
    obtain ⟨y, hy⟩ := hrange x
    rw [hhidden] at hname
    rw [hy]
    exact h.foreign entry hentry hname y
  classes := by
    obtain ⟨own, hclasses, hown⟩ := h.classes
    refine ⟨own, ?_, ?_⟩
    · rw [hclasses]
      refine congrArg (own ++ ·) (List.map_congr_left fun c hc => ?_)
      have hnumber := Sum.inr.inj (hagrees (.inr c.id) (ht.recorded c hc))
      change ClassRef.mk (L.cls c.id) c.name = ⟨L'.cls c.id, c.name⟩
      rw [hnumber]
    · intro c hc i heq
      obtain ⟨y, hy⟩ := hrange (.inr i)
      cases y with
      | inl j => cases hy
      | inr j => exact hown c hc j ((Sum.inr.inj hy).symm.trans heq)

/-- Classes without members stay alike under any numbers. -/
theorem SymbolTable.Seeded.classes_alike (ht : t.Seeded) {σ τ : Renaming} {veiled : Prop}
    (hveiled : ¬ veiled) {i : Nat} {x : Option ClassBody}
    (h : Option.Rel (ClassBody.Alike σ veiled) t.classes[i]? x) :
    Option.Rel (ClassBody.Alike τ veiled) t.classes[i]? x := by
  have hempty : ∀ b, t.classes[i]? = some b → b.isEmpty = true :=
    fun b hb => ht.members b (Array.mem_of_getElem? hb)
  generalize t.classes[i]? = body at h hempty
  cases h with
  | none => exact .none
  | @some b b' hbody =>
    have hb := hempty b rfl
    unfold ClassBody.isEmpty at hb
    rw [Bool.and_eq_true, List.isEmpty_iff, List.isEmpty_iff] at hb
    have hpublic := hbody.publicMembers
    have hprivate := hbody.privateMembers hveiled
    rw [hb.1] at hpublic
    rw [hb.2] at hprivate
    refine .some ⟨?_, hbody.privateNames, fun _ => ?_, hbody.complete⟩
    · rw [hpublic, hb.1]
      rfl
    · rw [hprivate, hb.2]
      rfl

namespace SymbolTable.Alike

/-- There is one scope in the second table too, and it is no class body. -/
theorem scope_of_seeded (h : t.Alike L u) (ht : t.Seeded) :
    u.outer = [] ∧ u.current.cls? = none := by
  have houter := h.outer
  rw [ht.outer] at houter
  refine ⟨List.forall₂_nil_left_iff.mp houter, ?_⟩
  rw [h.current.seen.cls?_eq, ht.cls?_eq]
  rfl

/-- No function has a body in the second table. -/
theorem bodies_of_seeded (h : t.Alike L u) (ht : t.Seeded) (j : Nat) :
    u.bodies[j]?.join = none := by
  by_cases hj : ∃ i, L.fn i = j
  · obtain ⟨i, rfl⟩ := hj
    have hrel := h.bodies i
    rw [ht.bodies i] at hrel
    cases hbody : u.bodies[L.fn i]?.join with
    | none => rfl
    | some frame =>
      rw [hbody] at hrel
      cases hrel
  · exact h.ownBodies j fun i heq => hj ⟨i, heq⟩

/-- A built-in class in the second table only. -/
theorem skipClass (h : t.Alike L u) (hveil : ∀ i, ¬ L.veiled i) (ht : t.Seeded)
    (hclasses : t.current.classes = []) (name : String) :
    t.Alike (L.skipClass t.classes.size) (u.builtinTy name .newClass).2 := by
  obtain ⟨houter, hcls⟩ := h.scope_of_seeded ht
  have hnext := h.nextClass 0
  rw [Nat.add_zero, Nat.add_zero] at hnext
  have hskip : ∀ i, (L.skipClass t.classes.size).cls i ≠ u.classes.size :=
    Renaming.skip_ne L.strictMono_cls hnext
  have hframe : t.current.Alike (L.skipClass t.classes.size) u.current := by
    refine ht.renumber h.current rfl (fun x hx => ?_) fun x => ?_
    · cases x with
      | inl i => rfl
      | inr i => exact congrArg Sum.inr (if_pos hx)
    · cases x with
      | inl i => exact ⟨.inl i, rfl⟩
      | inr i =>
        obtain ⟨j, hj⟩ := Renaming.exists_skip_eq h.nextClass i
        exact ⟨.inr j, congrArg Sum.inr hj⟩
  rw [builtinTy_newClass hcls]
  refine ⟨?_, ?_, ?_, ?_, ?_, h.ownBodies, h.nextFunction, h.outside⟩
  · change List.Forall₂ _ (t.current :: t.outer) (u.current.record _ :: u.outer)
    rw [ht.outer, houter]
    exact .cons (hframe.recordOwn hclasses hskip) .nil
  · intro i
    change Option.Rel _ t.classes[i]? (u.classes.push _)[Renaming.skip L.cls t.classes.size i]?
    have hne : Renaming.skip L.cls t.classes.size i ≠ u.classes.size := hskip i
    rw [Array.getElem?_push, if_neg hne]
    by_cases hi : i < t.classes.size
    · rw [Renaming.skip, if_pos hi]
      exact ht.classes_alike (hveil i) (h.classes i)
    · have hle : L.cls t.classes.size ≤ L.cls i := L.strictMono_cls.monotone (by omega)
      rw [Array.getElem?_eq_none (by omega), Array.getElem?_eq_none]
      · exact .none
      · rw [Renaming.skip, if_neg hi]
        omega
  · intro j hj b hb
    change (u.classes.push _)[j]? = some b at hb
    rw [Array.getElem?_push] at hb
    split at hb
    · cases hb
      rfl
    · refine h.ownClasses j (fun i heq => ?_) b hb
      obtain ⟨hlt, _⟩ := Array.getElem?_eq_some_iff.mp hb
      have hi : i < t.classes.size := by
        by_contra hge
        have hle : L.cls t.classes.size ≤ L.cls i := L.strictMono_cls.monotone (by omega)
        omega
      exact hj i ((if_pos hi).trans heq)
  · intro k
    have hnextk := h.nextClass k
    change Renaming.skip L.cls t.classes.size (t.classes.size + k) = (u.classes.push _).size + k
    rw [Array.size_push, Renaming.skip, if_neg (by omega)]
    omega
  · intro i
    rw [ht.bodies i]
    change Option.Rel _ none u.bodies[L.fn i]?.join
    rw [h.bodies_of_seeded ht]
    exact .none

/-- A built-in function in the second table only. -/
theorem skipFunction (h : t.Alike L u) (hveil : ∀ i, ¬ L.veiled i) (ht : t.Seeded) :
    t.Alike (L.skipFunction t.bodies.size) { u with bodies := u.bodies.push none } := by
  obtain ⟨houter, _⟩ := h.scope_of_seeded ht
  have hframe : t.current.Alike (L.skipFunction t.bodies.size) u.current := by
    refine ht.renumber h.current rfl (fun x hx => ?_) fun x => ?_
    · cases x with
      | inl i => exact congrArg Sum.inl (if_pos hx)
      | inr i => rfl
    · cases x with
      | inl i =>
        obtain ⟨j, hj⟩ := Renaming.exists_skip_eq h.nextFunction i
        exact ⟨.inl j, congrArg Sum.inl hj⟩
      | inr i => exact ⟨.inr i, rfl⟩
  have hbodies : ∀ j : Nat, (u.bodies.push none)[j]?.join = none := by
    intro j
    rw [Array.getElem?_push]
    split
    · rfl
    · exact h.bodies_of_seeded ht j
  refine ⟨?_, ?_, h.ownClasses, h.nextClass, ?_, fun j _ => hbodies j, ?_, h.outside⟩
  · change List.Forall₂ _ (t.current :: t.outer) (u.current :: u.outer)
    rw [ht.outer, houter]
    exact .cons hframe .nil
  · exact fun i => ht.classes_alike (hveil i) (h.classes i)
  · intro i
    rw [ht.bodies i]
    change Option.Rel _ none (u.bodies.push none)[_]?.join
    rw [hbodies]
    exact .none
  · intro k
    have hnextk := h.nextFunction k
    change Renaming.skip L.fn t.bodies.size (t.bodies.size + k) = (u.bodies.push none).size + k
    rw [Array.size_push, Renaming.skip, if_neg (by omega)]
    omega

/-- A hidden name that is bound in the second table only. -/
theorem insertHidden (h : t.Alike L u) (ht : t.Seeded) (hname : name ∈ L.hidden) {ty : Ty}
    (hty : ty.mentions.Foreign L.toRenaming) {u' : SymbolTable} (hu' : u.insert name ty = .ok u') :
    t.Alike L u' := by
  rcases SymbolTable.insert_cases hu' with ⟨c, b, hcls, -⟩ | ⟨-, -, rfl⟩
  · cases (h.scope_of_seeded ht).2.symm.trans hcls
  · exact h.withFrames (.cons (h.current.bindHidden hname hty) h.outer) h.outside

end SymbolTable.Alike

end Hidden

/-! ### All declarations -/

/-- The tables are alike if the names are hidden. -/
def SymbolTable.AlikeHiding (names : List String) (t u : SymbolTable) : Prop :=
  ∃ L : Likeness, L.hidden = names ∧ (∀ i, ¬ L.veiled i) ∧ t.Alike L u

namespace SymbolTable.AlikeHiding

variable {names : List String} {t u : SymbolTable} {entry : String × Builtin}

/-- A declaration that is made in the second table only, of a name that is hidden. -/
theorem declareHidden (h : t.AlikeHiding names u) (ht : t.Seeded) (hb : entry.2.Closed)
    (hname : entry.1 ∈ names) (hcls : ∀ cls, entry.2 = .objectOf cls → cls ∈ names)
    (hclasses : entry.2 = .newClass → t.current.classes = []) :
    t.AlikeHiding names (u.declareBuiltin entry) := by
  obtain ⟨L, rfl, hveil, halike⟩ := h
  obtain ⟨L', hhidden, hveil', halike', hforeign⟩ : ∃ L' : Likeness, L'.hidden = L.hidden ∧
      (∀ i, ¬ L'.veiled i) ∧ t.Alike L' (u.builtinTy entry.1 entry.2).2 ∧
      (u.builtinTy entry.1 entry.2).1.mentions.Foreign L'.toRenaming := by
    obtain ⟨name, b⟩ := entry
    cases b with
    | value ty => exact ⟨L, rfl, hveil, halike, fun x => hb _⟩
    | newClass =>
      refine ⟨L.skipClass t.classes.size, rfl, hveil,
        halike.skipClass hveil ht (hclasses rfl) name, ?_⟩
      intro x hx
      have hnext := halike.nextClass 0
      have hnumber := Mentions.has_ofClass.mp hx
      cases x with
      | inl i => cases hnumber
      | inr i => exact Renaming.skip_ne L.strictMono_cls hnext i (Sum.inr.inj hnumber)
    | objectOf cls =>
      refine ⟨L, rfl, hveil, halike, fun x hx => ?_⟩
      change ((u.lookup? cls).getD .unknown).mentions.Has (L.either x) at hx
      obtain ⟨houter, hcurrent⟩ := halike.scope_of_seeded ht
      unfold SymbolTable.lookup? SymbolTable.frames SymbolTable.findIn at hx
      rw [houter, List.findSome?_cons, hcurrent] at hx
      cases hfound : u.current.bindings.lookup cls with
      | none =>
        rw [hfound] at hx
        exact Mentions.not_has_empty hx
      | some ty =>
        rw [hfound] at hx
        exact halike.current.foreign _ (Bindings.mem_of_lookup hfound) (hcls cls rfl) x hx
    | function result params =>
      refine ⟨L.skipFunction t.bodies.size, rfl, hveil, halike.skipFunction hveil ht, ?_⟩
      intro x hx
      have hnext := halike.nextFunction 0
      have hnumber := Builtin.Closed.has_function hb hx
      cases x with
      | inl i => exact Renaming.skip_ne L.strictMono_fn hnext i (Sum.inl.inj hnumber)
      | inr i => cases hnumber
  refine ⟨L', hhidden, hveil', ?_⟩
  rcases u.declareBuiltin_cases entry rfl with hinsert | hrefused
  · exact halike'.insertHidden ht (hhidden ▸ hname) hforeign hinsert
  · rw [hrefused]
    exact halike'

/-- Declarations that are made in the second table only. -/
theorem declareAllHidden (ht : t.Seeded) {entries : List (String × Builtin)}
    (hentries : ∀ entry ∈ entries, entry.2.Closed ∧ entry.1 ∈ names ∧
      (∀ cls, entry.2 = .objectOf cls → cls ∈ names) ∧
      (entry.2 = .newClass → t.current.classes = [])) (h : t.AlikeHiding names u) :
    t.AlikeHiding names (entries.foldl declareBuiltin u) := by
  induction entries generalizing u with
  | nil => exact h
  | cons entry rest ih =>
    obtain ⟨hb, hname, hcls, hclasses⟩ := hentries entry List.mem_cons_self
    refine ih (fun e he => hentries e (List.mem_cons_of_mem _ he)) ?_
    exact h.declareHidden ht hb hname hcls hclasses

/-- Declarations that are made in both tables. -/
theorem declareAll (ht : t.Seeded) {entries : List (String × Builtin)}
    (hentries : ∀ entry ∈ entries, entry.2.Closed ∧ entry.1 ∉ names ∧
      ∀ cls, entry.2 = .objectOf cls → cls ∉ names) (h : t.AlikeHiding names u) :
    (entries.foldl declareBuiltin t).Seeded ∧
      (entries.foldl declareBuiltin t).AlikeHiding names (entries.foldl declareBuiltin u) := by
  induction entries generalizing t u with
  | nil => exact ⟨ht, h⟩
  | cons entry rest ih =>
    obtain ⟨hb, hname, hcls⟩ := hentries entry List.mem_cons_self
    obtain ⟨L, rfl, hveil, halike⟩ := h
    refine ih (ht.declareBuiltin hb) (fun e he => hentries e (List.mem_cons_of_mem _ he)) ?_
    exact ⟨L, rfl, hveil, halike.declareBuiltin hb hname hcls⟩

/-- Empty tables. -/
theorem empty (hnames : ∀ text, "~" ++ text ∉ names) :
    SymbolTable.empty.AlikeHiding names SymbolTable.empty := by
  refine ⟨⟨⟨.id, names, fun _ => False, hnames⟩, strictMono_id, strictMono_id⟩, rfl,
    fun _ => not_false, ?_⟩
  refine ⟨.cons (.new .global) .nil, fun i => ?_, fun j hj => absurd rfl (hj j), fun _ => rfl,
    fun i => ?_, fun j hj => absurd rfl (hj j), fun _ => rfl, fun _ _ => not_false⟩
  · exact .none
  · exact .none

end SymbolTable.AlikeHiding

end CWithClasses
