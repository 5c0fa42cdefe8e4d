import CWithClasses.Proofs.Bindings
import CWithClasses.Proofs.Pairs.View
import Mathlib.Order.Monotone.Basic

/-!
# Tables that are alike

Two tables are alike if they differ in no more than a `Likeness` allows: classes and functions may
have other numbers in the same order, the second table may bind some hidden names, to types that the
first table does not have at all, and the private members of some classes, which are veiled, may
have other types.

Tables that are alike are seen alike, and they stay alike when the same is done to both.
-/

namespace CWithClasses

/-- What two tables may differ in, if the order of the numbers stays. -/
structure Likeness extends View where
  strictMono_cls : StrictMono cls
  strictMono_fn : StrictMono fn

/-! ### Bindings -/

namespace Bindings

/-- The bindings with new numbers in their types. -/
def rename (σ : Renaming) (b : Bindings) : Bindings :=
  b.map fun entry => (entry.1, entry.2.rename σ)

/-- The bindings of names that are not hidden. -/
def visible (hidden : List String) (b : Bindings) : Bindings :=
  b.filter fun entry => entry.1 ∉ hidden

variable {σ : Renaming} {hidden : List String} {name : String}

/-- What a name is bound to after renumbering. -/
theorem lookup_rename (b : Bindings) (name : String) :
    (b.rename σ).lookup name = (b.lookup name).map (Ty.rename σ) := by
  induction b with
  | nil => rfl
  | cons entry rest ih =>
    obtain ⟨key, ty⟩ := entry
    change List.lookup name ((key, ty.rename σ) :: Bindings.rename σ rest) = _
    rw [List.lookup_cons, List.lookup_cons, ih]
    cases name == key <;> rfl

/-- A name that is not hidden is bound to what it was bound to. -/
theorem lookup_visible (b : Bindings) (h : name ∉ hidden) :
    (b.visible hidden).lookup name = b.lookup name := by
  induction b with
  | nil => rfl
  | cons entry rest ih =>
    obtain ⟨key, ty⟩ := entry
    unfold visible at ih ⊢
    rw [List.filter_cons, List.lookup_cons]
    by_cases hkey : key ∈ hidden
    · have hne : (name == key) = false := by
        rw [beq_eq_false_iff_ne]
        rintro rfl
        exact h hkey
      rw [if_neg (by simpa using hkey), hne]
      exact ih
    · rw [if_pos (by simpa using hkey), List.lookup_cons, ih]

/-- Rows with the same names bind the same names. -/
theorem isSome_lookup_congr {b b' : Bindings} (h : b'.map Prod.fst = b.map Prod.fst)
    (name : String) : (b'.lookup name).isSome = (b.lookup name).isSome := by
  have hmem : ∀ b : Bindings, (b.lookup name).isSome = decide (name ∈ b.map Prod.fst) := by
    intro b
    induction b with
    | nil => rfl
    | cons entry rest ih =>
      rw [List.lookup_cons]
      by_cases hkey : name = entry.1
      · simp [hkey]
      · have hne : (name == entry.1) = false := beq_eq_false_iff_ne.mpr hkey
        simp [hne, hkey, ih]
  rw [hmem, hmem, h]

end Bindings

/-! ### Frames -/

/-- None of the mentioned classes and functions is the new number of one. -/
def Mentions.Foreign (σ : Renaming) (m : Mentions) : Prop := ∀ x, ¬ m.Has (σ.either x)

variable {L : Likeness}

/-- Scopes that are alike. -/
structure Frame.Alike (L : Likeness) (f g : Frame) : Prop where
  kind : g.kind = f.kind.rename L.toRenaming
  access : g.access = f.access
  bindings : Bindings.visible L.hidden g.bindings = Bindings.rename L.toRenaming f.bindings
  /-- Hidden names have types of their own. -/
  foreign : ∀ entry ∈ g.bindings, entry.1 ∈ L.hidden → entry.2.mentions.Foreign L.toRenaming
  /-- The classes declared in the second scope, behind some of its own. -/
  classes : ∃ own, g.classes = own ++ f.classes.map (ClassRef.rename L.toRenaming) ∧
    ∀ c ∈ own, ∀ i, L.cls i ≠ c.id

namespace Frame.Alike

variable {f g : Frame} {name : String}

/-- Scopes that are alike are seen alike. -/
theorem seen (h : f.Alike L g) : f.Seen L.toView g where
  kind := h.kind
  bindings name hname := by
    rw [← Bindings.lookup_visible _ hname, h.bindings, Bindings.lookup_rename]

/-- Scopes that have just been opened. -/
theorem new (kind : FrameKind) :
    Frame.Alike L { kind } { kind := kind.rename L.toRenaming } where
  kind := rfl
  access := rfl
  bindings := rfl
  foreign _ hentry := by cases hentry
  classes := ⟨[], rfl, fun _ hc => by cases hc⟩

/-- Binding one more name. -/
theorem bind (h : f.Alike L g) (hname : name ∉ L.hidden) (ty : Ty) :
    Frame.Alike L { f with bindings := (name, ty) :: f.bindings }
      { g with bindings := (name, ty.rename L.toRenaming) :: g.bindings } where
  kind := h.kind
  access := h.access
  bindings := by
    have hrest := h.bindings
    unfold Bindings.visible Bindings.rename at hrest ⊢
    rw [List.filter_cons, if_pos (by simpa using hname), hrest, List.map_cons]
  foreign entry hentry hhidden := by
    rcases List.mem_cons.mp hentry with rfl | hrest
    · exact absurd hhidden hname
    · exact h.foreign entry hrest hhidden
  classes := h.classes

/-- Choosing the access region. -/
theorem setAccess (h : f.Alike L g) (access : Access) :
    Frame.Alike L { f with access } { g with access } :=
  ⟨h.kind, rfl, h.bindings, h.foreign, h.classes⟩

/-- Recording a class. -/
theorem record (h : f.Alike L g) (c : ClassRef) :
    (f.record c).Alike L (g.record (c.rename L.toRenaming)) := by
  obtain ⟨own, hclasses, hown⟩ := h.classes
  have hknown : (g.classes.any fun known => known.id == (c.rename L.toRenaming).id) =
      f.classes.any fun known => known.id == c.id := by
    have hnone : (own.any fun known => known.id == (c.rename L.toRenaming).id) = false := by
      rw [List.any_eq_false]
      intro known hmem heq
      exact hown known hmem c.id (beq_iff_eq.mp heq).symm
    have hsame : ∀ known : ClassRef,
        ((known.rename L.toRenaming).id == (c.rename L.toRenaming).id) = (known.id == c.id) := by
      intro known
      rw [Bool.eq_iff_iff, beq_iff_eq, beq_iff_eq]
      exact L.toRenaming.cls_inj
    rw [hclasses, List.any_append, hnone, Bool.false_or, List.any_map]
    simp only [Function.comp_def, hsame]
  unfold Frame.record
  rw [hknown]
  split
  · exact h
  · refine ⟨h.kind, h.access, h.bindings, h.foreign, own, ?_, hown⟩
    dsimp only
    rw [hclasses, List.append_assoc, List.map_append]
    rfl

end Frame.Alike

/-! ### Members -/

/-- Members that are alike. If the class is veiled, the private ones need only have the same
names. -/
structure ClassBody.Alike (σ : Renaming) (veiled : Prop) (b b' : ClassBody) : Prop where
  publicMembers : b'.publicMembers = Bindings.rename σ b.publicMembers
  privateNames : b'.privateMembers.map Prod.fst = b.privateMembers.map Prod.fst
  privateMembers : ¬ veiled → b'.privateMembers = Bindings.rename σ b.privateMembers
  complete : b'.complete = b.complete

namespace ClassBody.Alike

variable {σ : Renaming} {veiled : Prop} {b b' : ClassBody}

/-- Classes without members. -/
theorem empty : ClassBody.Alike σ veiled {} {} := ⟨rfl, rfl, fun _ => rfl, rfl⟩

/-- Members that are alike are seen alike. -/
theorem seen (h : b.Alike σ veiled b') : b.Seen σ veiled b' where
  publicMembers name _ := by rw [h.publicMembers, Bindings.lookup_rename]
  privateNames := Bindings.isSome_lookup_congr h.privateNames
  privateMembers hveiled name _ := by rw [h.privateMembers hveiled, Bindings.lookup_rename]
  complete := h.complete

/-- Adding a member to a class that is not veiled. -/
theorem add (h : b.Alike σ veiled b') (hveiled : ¬ veiled) (name : String) (ty : Ty)
    (access : Access) :
    (∃ c c', b.add name ty access = .ok c ∧ b'.add name (ty.rename σ) access = .ok c' ∧
      c.Alike σ veiled c') ∨
    ∃ e, b.add name ty access = .error e ∧ b'.add name (ty.rename σ) access = .error e := by
  unfold ClassBody.add
  rw [h.seen.member? hveiled]
  cases b.member? name with
  | some m => exact .inr ⟨_, rfl, rfl⟩
  | none =>
    have hpublic := h.publicMembers
    have hprivate := h.privateMembers hveiled
    cases access with
    | pub =>
      refine .inl ⟨_, _, rfl, rfl, ?_, h.privateNames, fun _ => hprivate, h.complete⟩
      rw [hpublic]
      rfl
    | priv =>
      refine .inl ⟨_, _, rfl, rfl, hpublic, ?_, fun _ => ?_, h.complete⟩
      · rw [List.map_cons, List.map_cons, h.privateNames]
      · rw [hprivate]
        rfl

/-- Taking the members away. -/
theorem clear (h : b.Alike σ veiled b') : b.clear.Alike σ veiled b'.clear :=
  ⟨rfl, rfl, fun _ => rfl, h.complete⟩

/-- Completing the class. -/
theorem markComplete (h : b.Alike σ veiled b') :
    ClassBody.Alike σ veiled { b with complete := true } { b' with complete := true } :=
  ⟨h.publicMembers, h.privateNames, h.privateMembers, rfl⟩

end ClassBody.Alike

/-! ### Tables -/

/-- Tables that are alike. -/
structure SymbolTable.Alike (L : Likeness) (t u : SymbolTable) : Prop where
  frames : List.Forall₂ (Frame.Alike L) t.frames u.frames
  classes : ∀ i, Option.Rel (ClassBody.Alike L.toRenaming (L.veiled i)) t.classes[i]?
    u.classes[L.cls i]?
  /-- The classes that only the second table has are without members. -/
  ownClasses : ∀ j, (∀ i, L.cls i ≠ j) → ∀ b, u.classes[j]? = some b → b.isEmpty = true
  /-- The next class gets its new number on the other side. -/
  nextClass : ∀ k, L.cls (t.classes.size + k) = u.classes.size + k
  bodies : ∀ i, Option.Rel (Frame.Alike L) t.bodies[i]?.join u.bodies[L.fn i]?.join
  /-- The functions that only the second table has are without bodies. -/
  ownBodies : ∀ j, (∀ i, L.fn i ≠ j) → u.bodies[j]?.join = none
  nextFunction : ∀ k, L.fn (t.bodies.size + k) = u.bodies.size + k
  /-- Nobody stands inside a veiled class. -/
  outside : ∀ c, .classBody c ∈ t.frames.map Frame.kind → ¬ L.veiled c.id

namespace SymbolTable.Alike

variable {t u : SymbolTable} {name : String}

/-- The innermost scopes. -/
theorem current (h : t.Alike L u) : t.current.Alike L u.current := by
  cases h.frames with
  | cons hcurrent _ => exact hcurrent

/-- The scopes around them. -/
theorem outer (h : t.Alike L u) : List.Forall₂ (Frame.Alike L) t.outer u.outer := by
  cases h.frames with
  | cons _ houter => exact houter

/-- The members of a class. -/
theorem classBody (h : t.Alike L u) (c : ClassRef) :
    (t.classBody c).Alike L.toRenaming (L.veiled c.id) (u.classBody (c.rename L.toRenaming)) := by
  have hrel := h.classes c.id
  change ClassBody.Alike _ _ (t.classes[c.id]?.getD {}) (u.classes[L.cls c.id]?.getD {})
  generalize t.classes[c.id]? = b at hrel
  generalize u.classes[L.cls c.id]? = b' at hrel
  cases hrel with
  | none => exact .empty
  | some hb => exact hb

/-- Tables that are alike are seen alike. -/
theorem seen (h : t.Alike L u) : t.Seen L.toView u :=
  ⟨h.frames.imp fun _ _ hfg => hfg.seen, fun c => (h.classBody c).seen, h.outside⟩

/-- The body of a function. -/
theorem body? (h : t.Alike L u) (f : FunctionTy) :
    Option.Rel (Frame.Alike L) (t.body? f) (u.body? (f.rename L.toRenaming)) :=
  h.bodies f.id

/-- Whether a function is defined. -/
theorem isDefined_eq (h : t.Alike L u) (ty : Ty) :
    u.isDefined (ty.rename L.toRenaming) = t.isDefined ty := by
  unfold isDefined
  rw [Ty.asFunction?_rename]
  cases ty.asFunction? with
  | none => rfl
  | some f =>
    have hbody := h.body? f
    change (u.body? (f.rename L.toRenaming)).isSome = (t.body? f).isSome
    generalize t.body? f = b at hbody
    generalize u.body? (f.rename L.toRenaming) = b' at hbody
    cases hbody <;> rfl

/-! #### Changes -/

/-- Changing the members of a class. -/
theorem modifyClass (h : t.Alike L u) (c : ClassRef) {p q : ClassBody → ClassBody}
    (hpq : ∀ b b', b.Alike L.toRenaming (L.veiled c.id) b' →
      (p b).Alike L.toRenaming (L.veiled c.id) (q b')) :
    (t.modifyClass c p).Alike L (u.modifyClass (c.rename L.toRenaming) q) where
  frames := h.frames
  classes i := by
    change Option.Rel _ (t.classes.modify c.id p)[i]? (u.classes.modify (L.cls c.id) q)[L.cls i]?
    have hrel := h.classes i
    rw [Array.getElem?_modify, Array.getElem?_modify]
    simp only [L.toRenaming.cls_inj]
    split
    next heq =>
      subst heq
      generalize t.classes[c.id]? = b at hrel
      generalize u.classes[L.cls c.id]? = b' at hrel
      cases hrel with
      | none => exact .none
      | some hb => exact .some (hpq _ _ hb)
    next => exact hrel
  ownClasses j hj b hb := by
    change (u.classes.modify (L.cls c.id) q)[j]? = some b at hb
    rw [Array.getElem?_modify, if_neg (hj c.id)] at hb
    exact h.ownClasses j hj b hb
  nextClass k := by
    change L.cls ((t.classes.modify c.id p).size + k) = (u.classes.modify (L.cls c.id) q).size + k
    rw [Array.size_modify, Array.size_modify]
    exact h.nextClass k
  bodies := h.bodies
  ownBodies := h.ownBodies
  nextFunction := h.nextFunction
  outside := h.outside

/-- Completing a class. -/
theorem markComplete (h : t.Alike L u) (c : ClassRef) :
    (t.markComplete c).Alike L (u.markComplete (c.rename L.toRenaming)) :=
  h.modifyClass c fun _ _ hb => hb.markComplete

/-- Taking the members of a class away. -/
theorem clear (h : t.Alike L u) (c : ClassRef) :
    (t.clear c).Alike L (u.clear (c.rename L.toRenaming)) :=
  h.modifyClass c fun _ _ hb => hb.clear

/-- A class that only the second table has may lose its members there. -/
theorem clear_own (h : t.Alike L u) {c : ClassRef} (hc : ∀ i, L.cls i ≠ c.id) :
    t.Alike L (u.clear c) where
  frames := h.frames
  classes i := by
    change Option.Rel _ _ (u.classes.modify c.id ClassBody.clear)[L.cls i]?
    rw [Array.getElem?_modify, if_neg fun heq => hc i heq.symm]
    exact h.classes i
  ownClasses j hj b hb := by
    change (u.classes.modify c.id ClassBody.clear)[j]? = some b at hb
    rw [Array.getElem?_modify] at hb
    split at hb
    · obtain ⟨b₀, _, rfl⟩ := Option.map_eq_some_iff.mp hb
      rfl
    · exact h.ownClasses j hj b hb
  nextClass k := by
    change _ = (u.classes.modify c.id ClassBody.clear).size + k
    rw [Array.size_modify]
    exact h.nextClass k
  bodies := h.bodies
  ownBodies := h.ownBodies
  nextFunction := h.nextFunction
  outside := h.outside

/-- Letting go of a frame. -/
theorem discard (h : t.Alike L u) {f g : Frame} (hfg : f.Alike L g) :
    (t.discard f).Alike L (u.discard g) := by
  obtain ⟨own, hclasses, hown⟩ := hfg.classes
  have hforeign : ∀ {own : List ClassRef} {u : SymbolTable}, t.Alike L u →
      (∀ c ∈ own, ∀ i, L.cls i ≠ c.id) → t.Alike L (own.foldl SymbolTable.clear u) := by
    intro own
    induction own with
    | nil => exact fun hu _ => hu
    | cons c rest ih =>
      intro u hu hown
      exact ih (hu.clear_own (hown c List.mem_cons_self)) fun d hd =>
        hown d (List.mem_cons_of_mem _ hd)
  have hshared : ∀ {classes : List ClassRef} {t u : SymbolTable}, t.Alike L u →
      (classes.foldl SymbolTable.clear t).Alike L
        ((classes.map (ClassRef.rename L.toRenaming)).foldl SymbolTable.clear u) := by
    intro classes
    induction classes with
    | nil => exact fun htu => htu
    | cons c rest ih => exact fun htu => ih (htu.clear c)
  unfold SymbolTable.discard
  rw [hclasses, List.foldl_append]
  exact hshared (hforeign h hown)

/-- Tables with the same classes and functions as tables that are alike. -/
theorem withFrames (h : t.Alike L u) {current current' : Frame} {outer outer' : List Frame}
    (hframes : List.Forall₂ (Frame.Alike L) (current :: outer) (current' :: outer'))
    (houtside : ∀ c, .classBody c ∈ (current :: outer).map Frame.kind → ¬ L.veiled c.id) :
    SymbolTable.Alike L { t with current, outer } { u with current := current', outer := outer' } :=
  ⟨hframes, h.classes, h.ownClasses, h.nextClass, h.bodies, h.ownBodies, h.nextFunction, houtside⟩

/-- Opening a scope, which is not the body of a veiled class. -/
theorem push (h : t.Alike L u) (kind : FrameKind)
    (hkind : ∀ c, kind = .classBody c → ¬ L.veiled c.id) :
    (t.push kind).Alike L (u.push (kind.rename L.toRenaming)) := by
  refine h.withFrames (.cons (.new kind) h.frames) ?_
  intro c hc
  rcases List.mem_cons.mp hc with heq | hrest
  · exact hkind c heq.symm
  · exact h.outside c hrest

/-- Closing a scope. -/
theorem pop? (h : t.Alike L u) :
    Option.Rel (fun p q => p.1.Alike L q.1 ∧ p.2.Alike L q.2) t.pop? u.pop? := by
  have houter := h.outer
  have houtside : ∀ c, .classBody c ∈ t.outer.map Frame.kind → ¬ L.veiled c.id :=
    fun c hc => h.outside c (List.mem_cons_of_mem _ hc)
  unfold SymbolTable.pop?
  generalize t.outer = outer at houter houtside
  generalize u.outer = outer' at houter
  cases houter with
  | nil => exact .none
  | cons hnext hrest => exact .some ⟨h.current, h.withFrames (.cons hnext hrest) houtside⟩

/-- Choosing the access region. -/
theorem setAccess (h : t.Alike L u) (access : Access) :
    (t.setAccess access).Alike L (u.setAccess access) :=
  h.withFrames (.cons (h.current.setAccess access) h.outer) h.outside

/-- Binding a name that is not hidden. -/
theorem insert (h : t.Alike L u) (hname : name ∉ L.hidden) (ty : Ty) :
    (∃ t' u', t.insert name ty = .ok t' ∧ u.insert name (ty.rename L.toRenaming) = .ok u' ∧
      t'.Alike L u') ∨
    ∃ e, t.insert name ty = .error e ∧ u.insert name (ty.rename L.toRenaming) = .error e := by
  unfold SymbolTable.insert
  rw [h.seen.current.cls?_eq]
  cases hcls : t.current.cls? with
  | some c =>
    have hc := h.seen.not_veiled List.mem_cons_self hcls
    change (∃ t' u', t.addMember c name ty t.current.access = .ok t' ∧
      u.addMember (c.rename L.toRenaming) name _ u.current.access = .ok u' ∧ _) ∨
      ∃ e, t.addMember c name ty t.current.access = .error e ∧
        u.addMember (c.rename L.toRenaming) name _ u.current.access = .error e
    unfold addMember
    rw [h.current.access]
    obtain ⟨b, b', hb, hb', hbb⟩ | ⟨e, he, he'⟩ := (h.classBody c).add hc name ty t.current.access
    · rw [hb, hb']
      exact .inl ⟨_, _, rfl, rfl, h.modifyClass c fun _ _ _ => hbb⟩
    · rw [he, he']
      exact .inr ⟨e, rfl, rfl⟩
  | none =>
    dsimp only [Option.map_none]
    rw [h.seen.current.bindings name hname]
    cases t.current.bindings.lookup name with
    | some _ => exact .inr ⟨_, rfl, rfl⟩
    | none =>
      have hframes := List.Forall₂.cons (h.current.bind hname ty) h.outer
      exact .inl ⟨_, _, rfl, rfl, h.withFrames hframes h.outside⟩

/-- Recording a class in the innermost scope that is no class body. -/
theorem recordClass (c : ClassRef) {frames frames' : List Frame}
    (h : List.Forall₂ (Frame.Alike L) frames frames') :
    List.Forall₂ (Frame.Alike L) (recordClass c frames)
      (SymbolTable.recordClass (c.rename L.toRenaming) frames') := by
  induction h with
  | nil => exact .nil
  | @cons f g rest rest' hfg hrest ih =>
    unfold SymbolTable.recordClass
    rw [hfg.seen.isClassBody_eq]
    split
    · exact .cons hfg ih
    · exact .cons (hfg.record c) hrest

/-- Recording a class. -/
theorem declareClass (h : t.Alike L u) (c : ClassRef) :
    (t.declareClass c).Alike L (u.declareClass (c.rename L.toRenaming)) := by
  have hframes : List.Forall₂ (Frame.Alike L) (t.declareClass c).frames
      (u.declareClass (c.rename L.toRenaming)).frames := by
    rw [frames_declareClass, frames_declareClass]
    exact recordClass c h.frames
  have hkinds : (t.declareClass c).frames.map Frame.kind = t.frames.map Frame.kind := by
    have hscopes := congrArg (List.map Prod.fst) (scopes_declareClass t c)
    simpa [scopes, Function.comp_def] using hscopes
  have hrest : ∀ (t : SymbolTable) (c : ClassRef),
      (t.declareClass c).classes = t.classes ∧ (t.declareClass c).bodies = t.bodies := by
    intro t c
    unfold SymbolTable.declareClass
    split <;> exact ⟨rfl, rfl⟩
  obtain ⟨hclasses, hbodies⟩ := hrest t c
  obtain ⟨hclasses', hbodies'⟩ := hrest u (c.rename L.toRenaming)
  refine ⟨hframes, ?_, ?_, ?_, ?_, ?_, ?_, hkinds ▸ h.outside⟩
  · rw [hclasses, hclasses']
    exact h.classes
  · rw [hclasses']
    exact h.ownClasses
  · rw [hclasses, hclasses']
    exact h.nextClass
  · rw [hbodies, hbodies']
    exact h.bodies
  · rw [hbodies']
    exact h.ownBodies
  · rw [hbodies, hbodies']
    exact h.nextFunction

/-- The next class has its new number in the other table. -/
theorem rename_newClass (h : t.Alike L u) (name : String) :
    (u.newClass name).1 = (t.newClass name).1.rename L.toRenaming := by
  have hnext := h.nextClass 0
  change ClassRef.mk u.classes.size name = ⟨L.cls t.classes.size, name⟩
  rw [Nat.add_zero, Nat.add_zero] at hnext
  rw [hnext]

/-- Making a class. -/
theorem newClass (h : t.Alike L u) (name : String) :
    (t.newClass name).2.Alike L (u.newClass name).2 where
  frames := h.frames
  classes i := by
    have hnext := h.nextClass 0
    rw [Nat.add_zero, Nat.add_zero] at hnext
    change Option.Rel _ (t.classes.push {})[i]? (u.classes.push {})[L.cls i]?
    rw [Array.getElem?_push, Array.getElem?_push, ← hnext]
    simp only [L.toRenaming.cls_inj]
    split
    · exact .some .empty
    · exact h.classes i
  ownClasses j hj b hb := by
    have hnext := h.nextClass 0
    rw [Nat.add_zero, Nat.add_zero] at hnext
    change (u.classes.push {})[j]? = some b at hb
    rw [Array.getElem?_push, ← hnext, if_neg fun heq => hj _ heq.symm] at hb
    exact h.ownClasses j hj b hb
  nextClass k := by
    have hnext := h.nextClass (1 + k)
    change L.cls ((t.classes.push {}).size + k) = (u.classes.push {}).size + k
    rw [Array.size_push, Array.size_push, Nat.add_assoc, Nat.add_assoc]
    exact hnext
  bodies := h.bodies
  ownBodies := h.ownBodies
  nextFunction := h.nextFunction
  outside := h.outside

/-- The next function has its new number in the other table. -/
theorem rename_newFunction (h : t.Alike L u) (result : Ty) (params : List Ty) (required : Nat) :
    (u.newFunction (result.rename L.toRenaming) (params.map (Ty.rename L.toRenaming)) required).1 =
      (t.newFunction result params required).1.rename L.toRenaming := by
  have hnext := h.nextFunction 0
  rw [Nat.add_zero, Nat.add_zero] at hnext
  change Ty.function u.bodies.size _ _ _ =
    (Ty.function t.bodies.size result params required).rename _
  rw [Ty.rename_function, hnext]

/-- Making a function. -/
theorem newFunction (h : t.Alike L u) {result result' : Ty} {params params' : List Ty}
    (required : Nat) :
    (t.newFunction result params required).2.Alike L
    (u.newFunction result' params' required).2 where
  frames := h.frames
  classes := h.classes
  ownClasses := h.ownClasses
  nextClass := h.nextClass
  bodies i := by
    have hnext := h.nextFunction 0
    rw [Nat.add_zero, Nat.add_zero] at hnext
    change Option.Rel _ (t.bodies.push none)[i]?.join (u.bodies.push none)[L.fn i]?.join
    rw [Array.getElem?_push, Array.getElem?_push, ← hnext]
    simp only [L.toRenaming.fn_inj]
    split
    · exact .none
    · exact h.bodies i
  ownBodies j hj := by
    change (u.bodies.push none)[j]?.join = none
    rw [Array.getElem?_push]
    split
    · rfl
    · exact h.ownBodies j hj
  nextFunction k := by
    have hnext := h.nextFunction (1 + k)
    change L.fn ((t.bodies.push none).size + k) = (u.bodies.push none).size + k
    rw [Array.size_push, Array.size_push, Nat.add_assoc, Nat.add_assoc]
    exact hnext
  outside := h.outside

/-- The next function after one that may have been made elsewhere was given its place. -/
theorem nextFunction_place (h : t.Alike L u) (id k : Nat) :
    L.fn (t.bodies.size + (id + 1 - t.bodies.size) + k) =
      u.bodies.size + (L.fn id + 1 - u.bodies.size) + k := by
  by_cases hid : id < t.bodies.size
  · have hnext := h.nextFunction 0
    have hlt := L.strictMono_fn hid
    have hzero : id + 1 - t.bodies.size = 0 := by omega
    have hzero' : L.fn id + 1 - u.bodies.size = 0 := by
      rw [Nat.add_zero, Nat.add_zero] at hnext
      omega
    rw [hzero, hzero']
    exact h.nextFunction k
  · obtain ⟨m, rfl⟩ := Nat.exists_eq_add_of_le (Nat.le_of_not_lt hid)
    have hplace := h.nextFunction m
    have hnext := h.nextFunction (m + 1 + k)
    have hleft : t.bodies.size + (t.bodies.size + m + 1 - t.bodies.size) + k =
        t.bodies.size + (m + 1 + k) := by omega
    rw [hleft, hnext, hplace]
    omega

/-- Giving a function its body. -/
theorem define? (h : t.Alike L u) (f : FunctionTy) {body body' : Frame}
    (hbody : body.Alike L body') :
    Option.Rel (SymbolTable.Alike L) (t.define? f body)
      (u.define? (f.rename L.toRenaming) body') := by
  have hform : ∀ (t : SymbolTable) (f : FunctionTy) (body : Frame), t.body? f = none →
      t.define? f body = some { t with
        bodies := (t.bodies.rightpad (f.id + 1) none).modify f.id fun _ => some body } := by
    intro t f body hnone
    unfold SymbolTable.define?
    rw [hnone]
  have hsize : ∀ (bodies : Array (Option Frame)) (id : Nat) (body : Frame),
      ((bodies.rightpad (id + 1) none).modify id fun _ => some body).size =
        bodies.size + (id + 1 - bodies.size) := by
    intro bodies id body
    simp [Array.rightpad]
  have hold := h.body? f
  cases ht : t.body? f with
  | some b =>
    rw [ht] at hold
    cases hu : u.body? (f.rename L.toRenaming) with
    | none =>
      rw [hu] at hold
      cases hold
    | some b' =>
      unfold SymbolTable.define?
      rw [ht, hu]
      exact .none
  | none =>
    rw [ht] at hold
    cases hu : u.body? (f.rename L.toRenaming) with
    | some b' =>
      rw [hu] at hold
      cases hold
    | none =>
      have hdefine := hform t f body ht
      have hdefine' := hform u (f.rename L.toRenaming) body' hu
      rw [hdefine, hdefine']
      refine .some ⟨h.frames, h.classes, h.ownClasses, h.nextClass, ?_, ?_, ?_, h.outside⟩
      · intro i
        have hplace := body?_define (g := { f with id := i }) hdefine
        have hplace' := body?_define (g := { f with id := L.fn i }) hdefine'
        change Option.Rel _ (SymbolTable.body? _ { f with id := i })
          (SymbolTable.body? _ { f with id := L.fn i })
        rw [hplace, hplace']
        change Option.Rel _ (if i = f.id then _ else _) (if L.fn i = L.fn f.id then _ else _)
        simp only [L.toRenaming.fn_inj]
        split
        · exact .some hbody
        · exact h.bodies i
      · intro j hj
        have hplace := body?_define (g := { f with id := j }) hdefine'
        change SymbolTable.body? _ { f with id := j } = none
        rw [hplace, if_neg fun heq => hj f.id heq.symm]
        exact h.ownBodies j hj
      · intro k
        have hplace := h.nextFunction_place f.id k
        rw [← hsize _ _ body, ← hsize _ _ body'] at hplace
        exact hplace

end SymbolTable.Alike

end CWithClasses
