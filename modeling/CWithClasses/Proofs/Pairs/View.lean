import CWithClasses.Proofs.Likeness.Type

/-!
# Tables that are seen alike

A check asks a table what a name means, which members a class has and whether the body of a class is
open. Two tables are seen alike if they answer such questions alike. A `View` says what may differ
all the same: classes and functions may have other numbers, some names are hidden, and the private
members of some classes are veiled.

The answers agree as long as nobody asks for a hidden name or stands inside a veiled class. How a
table keeps its bindings and members, and in which order, is not seen.
-/

namespace CWithClasses

/-- What two tables may differ in without being told apart. -/
structure View extends Renaming where
  /-- Names that only the second table binds. -/
  hidden : List String
  /-- The classes, by their numbers in the first table, whose private members may differ. -/
  veiled : Nat → Prop
  /-- The name of a destructor is never hidden. -/
  destructor : ∀ text, "~" ++ text ∉ hidden

variable {V : View}

/-- If no name is hidden, no name of a destructor is. -/
theorem View.destructor_of_none (text : String) : "~" ++ text ∉ ([] : List String) :=
  List.not_mem_nil

/-- Nothing differs but the numbers. -/
def Renaming.view (σ : Renaming) : View where
  toRenaming := σ
  hidden := []
  veiled _ := False
  destructor := View.destructor_of_none

/-- The second type is the first one, with new numbers. -/
def View.ty (V : View) (a b : Ty) : Prop := b = a.rename V.toRenaming

/-- The kind of a scope, with the new number of its class. -/
def FrameKind.rename (σ : Renaming) : FrameKind → FrameKind
  | .global => .global
  | .block => .block
  | .function => .function
  | .classBody c => .classBody (c.rename σ)

/-- Names that are not hidden are bound to the same types, up to their numbers. -/
def Bindings.Seen (σ : Renaming) (hidden : List String) (b b' : Bindings) : Prop :=
  ∀ name ∉ hidden, b'.lookup name = (b.lookup name).map (Ty.rename σ)

/-- Binding one more name. -/
theorem Bindings.Seen.cons {σ : Renaming} {hidden : List String} {b b' : Bindings}
    (h : b.Seen σ hidden b') (key : String) (ty : Ty) :
    Bindings.Seen σ hidden ((key, ty) :: b) ((key, ty.rename σ) :: b') := by
  intro name hname
  rw [List.lookup_cons, List.lookup_cons, h name hname]
  cases name == key <;> rfl

/-! ### Scopes and members -/

/-- Scopes that are seen alike. -/
structure Frame.Seen (V : View) (f g : Frame) : Prop where
  kind : g.kind = f.kind.rename V.toRenaming
  bindings : Bindings.Seen V.toRenaming V.hidden f.bindings g.bindings

namespace Frame.Seen

variable {f g : Frame}

/-- The class of a scope. -/
theorem cls?_eq (h : f.Seen V g) : g.cls? = f.cls?.map (ClassRef.rename V.toRenaming) := by
  unfold cls?
  rw [h.kind]
  cases f.kind <;> rfl

/-- Whether a scope is a class body. -/
theorem isClassBody_eq (h : f.Seen V g) : g.isClassBody = f.isClassBody := by
  unfold isClassBody
  rw [h.cls?_eq, Option.isSome_map]

end Frame.Seen

/-- Members that are seen alike. If the class is veiled, the private ones need only have the same
names. -/
structure ClassBody.Seen (σ : Renaming) (veiled : Prop) (b b' : ClassBody) : Prop where
  publicMembers : Bindings.Seen σ [] b.publicMembers b'.publicMembers
  privateNames : ∀ name, (b'.privateMembers.lookup name).isSome =
    (b.privateMembers.lookup name).isSome
  privateMembers : ¬ veiled → Bindings.Seen σ [] b.privateMembers b'.privateMembers
  complete : b'.complete = b.complete

/-- Members of a class that is not veiled. -/
theorem ClassBody.Seen.member? {σ : Renaming} {veiled : Prop} {b b' : ClassBody}
    (h : b.Seen σ veiled b') (hveiled : ¬ veiled) (name : String) :
    b'.member? name = (b.member? name).map fun m => (m.1, m.2.rename σ) := by
  unfold ClassBody.member?
  rw [h.publicMembers name List.not_mem_nil, h.privateMembers hveiled name List.not_mem_nil]
  cases b.publicMembers.lookup name with
  | some ty => rfl
  | none => cases b.privateMembers.lookup name <;> rfl

/-! ### Tables -/

/-- Tables that are seen alike. -/
structure SymbolTable.Seen (V : View) (t u : SymbolTable) : Prop where
  frames : List.Forall₂ (Frame.Seen V) t.frames u.frames
  classBody : ∀ c : ClassRef, ClassBody.Seen V.toRenaming (V.veiled c.id) (t.classBody c)
    (u.classBody (c.rename V.toRenaming))
  /-- Nobody stands inside a veiled class. -/
  outside : ∀ c, .classBody c ∈ t.frames.map Frame.kind → ¬ V.veiled c.id

namespace SymbolTable.Seen

variable {t u : SymbolTable} {name : String}

/-- The innermost scopes. -/
theorem current (h : t.Seen V u) : t.current.Seen V u.current := by
  cases h.frames with
  | cons hcurrent _ => exact hcurrent

/-- The class of an open scope is not veiled. -/
theorem not_veiled (h : t.Seen V u) {f : Frame} {c : ClassRef} (hf : f ∈ t.frames)
    (hc : f.cls? = some c) : ¬ V.veiled c.id :=
  h.outside c (List.mem_map.mpr ⟨f, hf, Frame.kind_of_cls? hc⟩)

/-- The members of a class that is not veiled. -/
theorem member? (h : t.Seen V u) {c : ClassRef} (hc : ¬ V.veiled c.id) (name : String) :
    u.member? (c.rename V.toRenaming) name =
      (t.member? c name).map fun m => (m.1, m.2.rename V.toRenaming) :=
  (h.classBody c).member? hc name

/-- Whether a class is complete. -/
theorem isComplete_eq (h : t.Seen V u) (c : ClassRef) :
    u.isComplete (c.rename V.toRenaming) = t.isComplete c :=
  (h.classBody c).complete

/-- What a name means in one scope. -/
theorem findIn (h : t.Seen V u) {f g : Frame} (hf : f ∈ t.frames) (hfg : f.Seen V g)
    (hname : name ∉ V.hidden) :
    u.findIn g name = (t.findIn f name).map (Ty.rename V.toRenaming) := by
  unfold SymbolTable.findIn
  rw [hfg.cls?_eq]
  cases hcls : f.cls? with
  | none => exact hfg.bindings name hname
  | some c =>
    change (u.member? (c.rename V.toRenaming) name).map (·.2) = _
    rw [h.member? (h.not_veiled hf hcls)]
    dsimp only
    cases t.member? c name <;> rfl

/-- What a name means in the innermost scope. -/
theorem lookupLocal? (h : t.Seen V u) (hname : name ∉ V.hidden) :
    u.lookupLocal? name = (t.lookupLocal? name).map (Ty.rename V.toRenaming) :=
  h.findIn List.mem_cons_self h.current hname

/-- The first answer that a scope gives, from the innermost one outwards. -/
theorem findSome? {α : Type} (h : t.Seen V u) {p q : Frame → Option α} {r : α → α}
    (hpq : ∀ f g, f ∈ t.frames → f.Seen V g → q g = (p f).map r) :
    u.frames.findSome? q = (t.frames.findSome? p).map r := by
  have hall : ∀ {frames frames' : List Frame}, List.Forall₂ (Frame.Seen V) frames frames' →
      (∀ f ∈ frames, f ∈ t.frames) → frames'.findSome? q = (frames.findSome? p).map r := by
    intro frames frames' hframes
    induction hframes with
    | nil => exact fun _ => rfl
    | @cons f g rest rest' hfg _ ih =>
      intro hmem
      have hrest := ih fun f hf => hmem f (List.mem_cons_of_mem _ hf)
      rw [List.findSome?_cons, List.findSome?_cons, hpq f g (hmem f List.mem_cons_self) hfg, hrest]
      cases p f <;> rfl
  exact hall h.frames fun _ hf => hf

/-- What a name means. -/
theorem lookup? (h : t.Seen V u) (hname : name ∉ V.hidden) :
    u.lookup? name = (t.lookup? name).map (Ty.rename V.toRenaming) :=
  h.findSome? fun _ _ hf hfg => h.findIn hf hfg hname

/-- The innermost class whose body is open. -/
theorem currentClass? (h : t.Seen V u) :
    u.currentClass? = t.currentClass?.map (ClassRef.rename V.toRenaming) :=
  h.findSome? fun _ _ _ hfg => hfg.cls?_eq

/-- The innermost open class of a name. -/
theorem openClass? (h : t.Seen V u) (name : String) :
    u.openClass? name = (t.openClass? name).map (ClassRef.rename V.toRenaming) := by
  refine h.findSome? fun f g _ hfg => ?_
  rw [hfg.cls?_eq]
  cases f.cls? with
  | none => rfl
  | some c =>
    change Option.filter (fun c => c.name == name) (some (c.rename V.toRenaming)) = _
    rw [Option.filter_some, Option.filter_some]
    change (if (c.name == name) = true then _ else _) = _
    split <;> rfl

/-- What a name means as a type. -/
theorem lookupTypeName (h : t.Seen V u) (hname : name ∉ V.hidden) :
    u.lookupTypeName name = (t.lookupTypeName name).map (Ty.rename V.toRenaming) := by
  unfold SymbolTable.lookupTypeName SymbolTable.lookup
  rw [h.openClass? name, h.lookup? hname]
  cases t.openClass? name with
  | some c => rfl
  | none =>
    cases t.lookup? name with
    | none => rfl
    | some ty =>
      have hrender := Ty.render_rename (σ := V.toRenaming) ty
      cases ty with
      | object c => rfl
      | _ =>
        exact congrArg (fun text => Except.error (Problem.typeMismatch "type name" text)) hrender

/-- Whether the body of a class is open. -/
theorem insideClass_eq (h : t.Seen V u) (c : ClassRef) :
    u.insideClass (c.rename V.toRenaming) = t.insideClass c := by
  unfold insideClass
  have hframes := h.frames
  generalize t.frames = frames at hframes
  generalize u.frames = frames' at hframes
  induction hframes with
  | nil => rfl
  | @cons f g _ _ hfg _ ih =>
    rw [List.any_cons, List.any_cons, ih, hfg.cls?_eq]
    cases f.cls? with
    | none => rfl
    | some d =>
      have hsame : ((d.rename V.toRenaming).id == (c.rename V.toRenaming).id) = (d.id == c.id) := by
        rw [Bool.eq_iff_iff, beq_iff_eq, beq_iff_eq]
        exact V.toRenaming.cls_inj
      simp only [Option.map_some, Option.any_some, hsame]

/-- The body of a veiled class is not open. -/
theorem insideClass_veiled (h : t.Seen V u) {c : ClassRef} (hc : V.veiled c.id) :
    t.insideClass c = false := by
  unfold insideClass
  rw [List.any_eq_false]
  intro f hf hany
  cases hcls : f.cls? with
  | none => simp [hcls] at hany
  | some d =>
    rw [hcls, Option.any_some, beq_iff_eq] at hany
    exact h.not_veiled hf hcls (hany ▸ hc)

/-- What a member means from where the check stands. -/
theorem memberLookup (h : t.Seen V u) (c : ClassRef) (name : String) :
    u.memberLookup (c.rename V.toRenaming) name (u.insideClass (c.rename V.toRenaming)) =
      (t.memberLookup c name (t.insideClass c)).map (Ty.rename V.toRenaming) := by
  rw [h.insideClass_eq]
  unfold SymbolTable.memberLookup
  by_cases hc : V.veiled c.id
  · -- From outside, all that is found out about a private member is that there is one.
    rw [h.insideClass_veiled hc]
    have hbody := h.classBody c
    have hprivate := hbody.privateNames name
    unfold SymbolTable.member? ClassBody.member?
    rw [hbody.publicMembers name List.not_mem_nil]
    cases (t.classBody c).publicMembers.lookup name with
    | some ty => rfl
    | none =>
      generalize (t.classBody c).privateMembers.lookup name = found at hprivate
      generalize (u.classBody (c.rename V.toRenaming)).privateMembers.lookup name =
        found' at hprivate
      cases found with
      | none =>
        cases found' with
        | none => rfl
        | some _ => cases hprivate
      | some _ =>
        cases found' with
        | none => cases hprivate
        | some _ => rfl
  · rw [h.member? hc]
    cases t.member? c name with
    | none => rfl
    | some m =>
      obtain ⟨access, ty⟩ := m
      cases access with
      | pub => rfl
      | priv => cases t.insideClass c <;> rfl

end SymbolTable.Seen

end CWithClasses
