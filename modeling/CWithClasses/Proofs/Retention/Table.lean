import CWithClasses.Proofs.Members.Grounded

/-!
# What a check leaves alone

While a program is checked, the scopes around stay open. Names are bound in them and classes are
recorded, and what is let go in between has been made in the meantime, since all that was mentioned
before is mentioned still. So nothing is lost that was there before: scopes keep their names,
classes their members and functions their bodies. Inside of a function, names are bound and classes
are recorded further inside only. There, the scopes around stay as they are, and classes that are
complete gain no members.

`Checker.Retains` states this between one state and any later one whose scopes are those of the
first one, with others inside of them; with `strict`, it says that the later state is inside of a
function.
-/

namespace CWithClasses

open Check

/-! ### Classes and frames that only gain -/

/-- The class has the members that it had. Strictly inside, it has no others if it was complete. -/
structure ClassBody.Grown (strict : Prop) (b b' : ClassBody) : Prop where
  member : ∀ name m, b.member? name = some m → b'.member? name = some m
  mentions : ∀ x, b.mentions.Has x → b'.mentions.Has x
  complete : strict → b.complete = true → b' = b

/-- The frame records only classes from the given number on. -/
def Frame.Late (n : Nat) (f : Frame) : Prop := ∀ d ∈ f.classes, n ≤ d.id

namespace ClassBody

variable {strict : Prop} {b b' b'' : ClassBody} {name : String} {ty : Ty} {access : Access}

/-- A new member leaves the others as they were. -/
theorem member?_add (h : b.add name ty access = .ok b') {other : String} (hne : other ≠ name) :
    b'.member? other = b.member? other := by
  have hbeq : (other == name) = false := beq_eq_false_iff_ne.mpr hne
  unfold add at h
  split at h
  · cases h
  · cases access <;> cases h <;> simp [member?, List.lookup_cons, hbeq]

namespace Grown

/-- Nothing changes. -/
theorem refl (b : ClassBody) : b.Grown strict b := ⟨fun _ _ h => h, fun _ h => h, fun _ _ => rfl⟩

/-- A class that was not complete may gain members. -/
theorem add (h : b.Grown strict b') (hopen : strict → b.complete = false)
    (hadd : b'.add name ty access = .ok b'') : b.Grown strict b'' where
  member other m hm := by
    have hm' := h.member other m hm
    have hne : other ≠ name := by
      rintro rfl
      unfold ClassBody.add at hadd
      rw [hm'] at hadd
      cases hadd
    rw [member?_add hadd hne]
    exact hm'
  mentions x hx := (has_add hadd).mpr (.inl (h.mentions x hx))
  complete hstrict hcomplete := by
    rw [hopen hstrict] at hcomplete
    cases hcomplete

/-- A class may be completed. -/
theorem markComplete (h : b.Grown strict b') : b.Grown strict { b' with complete := true } where
  member := h.member
  mentions := h.mentions
  complete hstrict hcomplete := by
    rw [h.complete hstrict hcomplete, ← hcomplete]

/-- A class that had no members has lost none. -/
theorem clear (h : b.Grown strict b') (hempty : b.isEmpty = true) : b.Grown strict b'.clear := by
  obtain ⟨hpublic, hprivate⟩ : b.publicMembers = [] ∧ b.privateMembers = [] := by
    simpa [isEmpty] using hempty
  refine ⟨fun name m hm => ?_, fun x hx => ?_, fun hstrict hcomplete => ?_⟩
  · simp [member?, hpublic, hprivate] at hm
  · exact absurd hx (not_has_of_isEmpty hempty x)
  · rw [h.complete hstrict hcomplete]
    cases b
    cases hpublic
    cases hprivate
    rfl

end Grown

end ClassBody

/-- The scope still has its names and its classes. The classes that are new in it have numbers from
the given one on. The body of a class gets no names and classes of its own. -/
structure Frame.Extends (n : Nat) (f f' : Frame) : Prop where
  kind : f'.kind = f.kind
  bindings : f.bindings ⊆ f'.bindings
  classes : f.classes ⊆ f'.classes
  late : ∀ c ∈ f'.classes, c ∈ f.classes ∨ n ≤ c.id
  classBody : f.isClassBody = true → f'.bindings = f.bindings ∧ f'.classes = f.classes

namespace Frame.Extends

variable {n : Nat} {f f' f'' : Frame}

/-- Nothing changes. -/
theorem refl (n : Nat) (f : Frame) : f.Extends n f :=
  ⟨rfl, List.Subset.refl _, List.Subset.refl _, fun _ => .inl, fun _ => ⟨rfl, rfl⟩⟩

/-- The scope is that of the same class, if of any. -/
theorem cls?_eq (h : f.Extends n f') : f'.cls? = f.cls? := by
  unfold Frame.cls?
  rw [h.kind]

/-- One extension after another. -/
theorem trans (h : f.Extends n f') (h' : f'.Extends n f'') : f.Extends n f'' where
  kind := h'.kind.trans h.kind
  bindings := List.Subset.trans h.bindings h'.bindings
  classes := List.Subset.trans h.classes h'.classes
  late c hc := by
    rcases h'.late c hc with hc | hc
    · exact h.late c hc
    · exact .inr hc
  classBody hbody := by
    have hbody' : f'.isClassBody = true := by
      unfold Frame.isClassBody at hbody ⊢
      rwa [h.cls?_eq]
    obtain ⟨hbindings, hclasses⟩ := h.classBody hbody
    obtain ⟨hbindings', hclasses'⟩ := h'.classBody hbody'
    exact ⟨hbindings'.trans hbindings, hclasses'.trans hclasses⟩

/-- The same scopes. -/
theorem all_refl (n : Nat) (frames : List Frame) : List.Forall₂ (Frame.Extends n) frames frames :=
  List.forall₂_same.mpr fun f _ => refl n f

/-- One extension of all scopes after another. -/
theorem all_trans {l l' l'' : List Frame} (h : List.Forall₂ (Frame.Extends n) l l')
    (h' : List.Forall₂ (Frame.Extends n) l' l'') : List.Forall₂ (Frame.Extends n) l l'' := by
  induction h generalizing l'' with
  | nil => exact h'
  | cons hf _ ih =>
    cases h' with
    | cons hf' hrest => exact .cons (hf.trans hf') (ih hrest)

/-- What the scope mentioned is mentioned still. -/
theorem mentions (h : f.Extends n f') {x : Nat ⊕ Nat} (hx : f.mentions.Has x) :
    f'.mentions.Has x := by
  unfold Frame.mentions Bindings.mentions at hx ⊢
  rw [h.cls?_eq]
  simp only [Mentions.has_append, Mentions.has_ofList] at hx ⊢
  rcases hx with (⟨entry, hentry, hx⟩ | ⟨c, hc, hx⟩) | hx
  · exact .inl (.inl ⟨entry, h.bindings hentry, hx⟩)
  · exact .inl (.inr ⟨c, h.classes hc, hx⟩)
  · exact .inr hx

/-- A class with a late number is recorded in a scope that is no class body. -/
theorem record (hf : f.isClassBody = false) {c : ClassRef} (hc : n ≤ c.id) :
    f.Extends n (f.record c) := by
  unfold Frame.record
  split
  · exact refl n f
  · refine ⟨rfl, List.Subset.refl _, List.subset_append_left _ _, fun d hd => ?_, fun hbody => ?_⟩
    · rcases List.mem_append.mp hd with hd | hd
      · exact .inl hd
      · exact .inr (List.mem_singleton.mp hd ▸ hc)
    · rw [hf] at hbody
      cases hbody

/-- A scope that was opened records only late classes. -/
theorem late_of_new {kind : FrameKind} (h : Frame.Extends n { kind } f') : f'.Late n := by
  intro c hc
  rcases h.late c hc with hc | hc
  · cases hc
  · exact hc

/-- The body of a class mentions no more than its class. -/
theorem has_of_classBody {c : ClassRef} (h : Frame.Extends n { kind := .classBody c } f')
    {x : Nat ⊕ Nat} (hx : f'.mentions.Has x) : x = .inr c.id := by
  obtain ⟨hbindings, hclasses⟩ := h.classBody rfl
  unfold Frame.mentions Bindings.mentions at hx
  rw [hbindings, hclasses, h.cls?_eq] at hx
  simp only [Mentions.has_append, Mentions.has_ofList] at hx
  rcases hx with (⟨entry, hentry, -⟩ | ⟨d, hd, -⟩) | ⟨d, hd, hx⟩
  · cases hentry
  · cases hd
  · rw [List.mem_singleton.mp hd] at hx
    exact Mentions.has_ofClass.mp hx

end Frame.Extends

namespace SymbolTable

/-- Letting go of a frame leaves the classes before its own alone. -/
theorem getElem?_classes_discard {t : SymbolTable} {f : Frame} {n i : Nat} (hf : f.Late n)
    (hi : i < n) : (t.discard f).classes[i]? = t.classes[i]? := by
  unfold discard
  refine List.foldlRecOn (motive := fun t' : SymbolTable => t'.classes[i]? = t.classes[i]?) _ _ rfl
    fun t' ht' d hd => ?_
  change (t'.classes.modify d.id ClassBody.clear)[i]? = _
  have hle := hf d hd
  rw [Array.getElem?_modify, if_neg (by omega)]
  exact ht'

/-! ### Bodies -/

/-- No function has lost its body. What the new bodies record was made later. -/
structure KeepsBodies (t₀ t : SymbolTable) : Prop where
  bodies : ∀ (i : Nat) (f : Frame), t₀.bodies[i]?.join = some f → t.bodies[i]?.join = some f
  stored : ∀ (i : Nat) (f : Frame), t.bodies[i]?.join = some f →
    t₀.bodies[i]?.join = some f ∨ f.Late t₀.classes.size

namespace KeepsBodies

variable {t₀ t t' : SymbolTable}

/-- Nothing changes. -/
theorem refl (t : SymbolTable) : t.KeepsBodies t := ⟨fun _ _ h => h, fun _ _ h => .inl h⟩

/-- The bodies are the same. -/
theorem of_eq (h : t₀.KeepsBodies t) (hbodies : t'.bodies = t.bodies) : t₀.KeepsBodies t' := by
  refine ⟨?_, ?_⟩
  · rw [hbodies]
    exact h.bodies
  · rw [hbodies]
    exact h.stored

/-- A function is made. -/
theorem newFunction (h : t₀.KeepsBodies t) :
    t₀.KeepsBodies { t with bodies := t.bodies.push none } := by
  have hpush : ∀ i : Nat, (t.bodies.push none)[i]?.join = t.bodies[i]?.join := by
    intro i
    rw [Array.getElem?_push]
    split
    next hlast => simp [hlast]
    next => rfl
  exact ⟨fun i f hf => (hpush i).trans (h.bodies i f hf),
    fun i f hf => h.stored i f ((hpush i).symm.trans hf)⟩

/-- A function gets the scope of its body. -/
theorem define (h : t₀.KeepsBodies t) {f : FunctionTy} {body : Frame}
    (hbody : body.Late t₀.classes.size) (hdefine : t.define? f body = some t') :
    t₀.KeepsBodies t' := by
  have hplace : ∀ i : Nat, t'.bodies[i]?.join = if i = f.id then some body else t.bodies[i]?.join :=
    fun i => body?_define (g := { f with id := i }) hdefine
  have hnone : t.bodies[f.id]?.join = none := (define?_rest hdefine).1
  refine ⟨fun i g hg => ?_, fun i g hg => ?_⟩
  · have hold := h.bodies i g hg
    rw [hplace, if_neg ?_]
    · exact hold
    · rintro rfl
      rw [hnone] at hold
      cases hold
  · rw [hplace] at hg
    split at hg
    · cases hg
      exact .inr hbody
    · exact h.stored i g hg

/-- The body of a function goes that had none before. -/
theorem dropAt (h : t₀.KeepsBodies t) {i : Nat} (hi : t₀.bodies[i]?.join = none) :
    t₀.KeepsBodies { t with bodies := t.bodies.modify i fun _ => none } := by
  have hplace : ∀ j : Nat, (t.bodies.modify i fun _ => none)[j]?.join =
      if i = j then none else t.bodies[j]?.join := by
    intro j
    rw [Array.getElem?_modify]
    split
    · cases t.bodies[j]? <;> rfl
    · rfl
  refine ⟨fun j g hg => ?_, fun j g hg => ?_⟩
  · refine (hplace j).trans ?_
    rw [if_neg]
    · exact h.bodies j g hg
    · rintro rfl
      rw [hi] at hg
      cases hg
  · have hg := (hplace j).symm.trans hg
    split at hg
    · cases hg
    · exact h.stored j g hg

/-- A body that the earlier table does not have records only late classes. -/
theorem late (h : t₀.KeepsBodies t) {i : Nat} {f : Frame} (hi : t₀.bodies[i]?.join = none)
    (hf : t.bodies[i]?.join = some f) : f.Late t₀.classes.size := by
  rcases h.stored i f hf with hold | hlate
  · rw [hi] at hold
    cases hold
  · exact hlate

end KeepsBodies

/-! ### Tables -/

/-- The table has the scopes of the earlier one, and some of the given kinds inside of them. Nothing
has been lost: scopes have kept their names and classes have only grown, and no function has lost
its body. What the scopes and bodies record anew was made later. If the table is strictly inside,
then the scopes around are as they were, and classes that were complete have not changed. -/
structure Retains (t₀ : SymbolTable) (strict : Prop) (inner : List FrameKind)
    (t : SymbolTable) : Prop extends t₀.KeepsBodies t where
  frames : List.Forall₂ (Frame.Extends t₀.classes.size)
    (inner.map ({ kind := · }) ++ t₀.frames) t.frames
  around : strict → t₀.frames <:+ t.frames
  classes : ∀ (i : Nat) (b : ClassBody), t₀.classes[i]? = some b →
    ∃ b', t.classes[i]? = some b' ∧ b.Grown strict b'

/-- Steps may be made in such scopes: new classes belong to one of them, and the innermost one is
not the body of a class that is complete. -/
structure Admits (t₀ : SymbolTable) (inner : List FrameKind) : Prop where
  outside : ∃ kind ∈ inner, ∀ c, kind ≠ .classBody c
  incomplete : ∀ c rest, inner = .classBody c :: rest → t₀.isComplete c = false

namespace Admits

variable {t₀ : SymbolTable} {inner : List FrameKind}

/-- A scope that is no class body admits steps. -/
theorem of_ne {kind : FrameKind} (h : ∀ c, kind ≠ .classBody c) (inner : List FrameKind) :
    t₀.Admits (kind :: inner) where
  outside := ⟨kind, List.mem_cons_self, h⟩
  incomplete c _ heq := absurd (List.cons.inj heq).1 (h c)

/-- There is a scope inside. -/
theorem ne_nil (h : t₀.Admits inner) : inner ≠ [] := by
  obtain ⟨kind, hkind, -⟩ := h.outside
  exact List.ne_nil_of_mem hkind

/-- The body of a class that is not complete admits steps. -/
theorem classBody (h : t₀.Admits inner) {c : ClassRef} (hc : t₀.isComplete c = false) :
    t₀.Admits (.classBody c :: inner) where
  outside := by
    obtain ⟨kind, hkind, hne⟩ := h.outside
    exact ⟨kind, List.mem_cons_of_mem _ hkind, hne⟩
  incomplete d _ heq := by
    cases heq
    exact hc

end Admits

/-- If one of some scopes is no class body, then a class is recorded in one of them. -/
theorem recordClass_append (c : ClassRef) {new : List Frame} (rest : List Frame)
    (h : ∃ f ∈ new, f.isClassBody = false) :
    recordClass c (new ++ rest) = recordClass c new ++ rest := by
  induction new with
  | nil => simp at h
  | cons f new ih =>
    rw [List.cons_append, recordClass, recordClass]
    split
    next hf =>
      obtain ⟨g, hg, hnot⟩ := h
      rcases List.mem_cons.mp hg with rfl | hg
      · rw [hf] at hnot
        cases hnot
      · rw [ih ⟨g, hg, hnot⟩, List.cons_append]
    next => rw [List.cons_append]

/-- A late class is recorded in one of the scopes, or in none. -/
theorem forall₂_recordClass {n : Nat} {c : ClassRef} (hc : n ≤ c.id) (frames : List Frame) :
    List.Forall₂ (Frame.Extends n) frames (recordClass c frames) := by
  induction frames with
  | nil => exact .nil
  | cons f rest ih =>
    unfold recordClass
    split
    next => exact .cons (.refl n f) ih
    next hf => exact .cons (.record (Bool.not_eq_true _ ▸ hf) hc) (Frame.Extends.all_refl n rest)

namespace Retains

variable {t₀ t t' : SymbolTable} {strict : Prop} {inner : List FrameKind} {kind : FrameKind}

/-- Nothing changes. -/
theorem refl (t : SymbolTable) : t.Retains strict [] t where
  toKeepsBodies := .refl t
  frames := Frame.Extends.all_refl _ _
  around _ := List.suffix_rfl
  classes _ b hb := ⟨b, hb, .refl b⟩

/-- The scopes are those of the earlier table, with others inside of them. -/
theorem kinds (h : t₀.Retains strict inner t) :
    t.frames.map Frame.kind = inner ++ t₀.frames.map Frame.kind := by
  have hkinds : ∀ {l l' : List Frame}, List.Forall₂ (Frame.Extends t₀.classes.size) l l' →
      l'.map Frame.kind = l.map Frame.kind := by
    intro l l' hl
    induction hl with
    | nil => rfl
    | cons hf _ ih => rw [List.map_cons, List.map_cons, hf.kind, ih]
  rw [hkinds h.frames, List.map_append, List.map_map]
  exact congrArg (· ++ _) (List.map_id inner)

/-- Strictly inside, the scopes around are as they were. -/
theorem exists_append (h : t₀.Retains strict inner t) (hstrict : strict) :
    ∃ new, t.frames = new ++ t₀.frames ∧ new.map Frame.kind = inner := by
  obtain ⟨new, hnew⟩ := h.around hstrict
  refine ⟨new, hnew.symm, ?_⟩
  have hkinds := h.kinds
  rw [← hnew, List.map_append] at hkinds
  exact List.append_cancel_right hkinds

/-- No scope has been opened or closed, and all of them are as they were. -/
theorem frames_eq (h : t₀.Retains True [] t) : t.frames = t₀.frames := by
  obtain ⟨new, hframes, hkinds⟩ := h.exists_append trivial
  rw [List.map_eq_nil_iff.mp hkinds] at hframes
  exact hframes

/-- No class is unmade. -/
theorem size_le (h : t₀.Retains strict inner t) : t₀.classes.size ≤ t.classes.size := by
  by_contra hlt
  obtain ⟨b', hb', -⟩ := h.classes _ _ (Array.getElem?_eq_getElem (Nat.lt_of_not_le hlt))
  rw [Array.getElem?_eq_none (Nat.le_refl _)] at hb'
  cases hb'

/-- What scopes and members mentioned is mentioned still. -/
theorem mentioned (h : t₀.Retains strict inner t) {x : Nat ⊕ Nat} (hx : t₀.Mentioned x) :
    t.Mentioned x := by
  rcases hx with ⟨f, hf, hx⟩ | ⟨b, hb, hx⟩
  · have hmem : f ∈ inner.map ({ kind := · }) ++ t₀.frames := List.mem_append_right _ hf
    obtain ⟨i, hi, rfl⟩ := List.getElem_of_mem hmem
    have hi' := h.frames.length_eq ▸ hi
    exact .inl ⟨_, List.getElem_mem hi', (h.frames.get hi hi').mentions hx⟩
  · obtain ⟨i, hi⟩ := Array.mem_iff_getElem?.mp hb
    obtain ⟨b', hb', hgrown⟩ := h.classes i b hi
    exact .inr ⟨b', Array.mem_of_getElem? hb', hgrown.mentions x hx⟩

/-- What the table mentioned is mentioned still. -/
theorem mentions (h : t₀.Retains strict inner t) {x : Nat ⊕ Nat} (hx : t₀.mentions.Has x) :
    t.mentions.Has x := by
  rw [has_mentions, ← or_assoc] at hx ⊢
  refine hx.imp h.mentioned ?_
  rintro ⟨f, ⟨i, hi⟩, hx⟩
  exact ⟨f, ⟨i, h.bodies i f hi⟩, hx⟩

/-- A class that was complete has the members that it had. -/
theorem classBody_eq (h : t₀.Retains strict inner t) (hstrict : strict) {c : ClassRef}
    (hc : t₀.isComplete c = true) : t.classBody c = t₀.classBody c := by
  unfold isComplete classBody at hc
  cases hb : t₀.classes[c.id]? with
  | none =>
    rw [hb] at hc
    cases hc
  | some b =>
    rw [hb] at hc
    obtain ⟨b', hb', hgrown⟩ := h.classes c.id b hb
    unfold classBody
    rw [hb, hb', hgrown.complete hstrict hc]

/-- Classes keep their members. -/
theorem members (h : t₀.Retains strict inner t) {c : ClassRef} {name : String} {m : Access × Ty}
    (hm : t₀.member? c name = some m) : t.member? c name = some m := by
  obtain ⟨b, hb, hm⟩ := exists_of_member? hm
  obtain ⟨b', hb', hgrown⟩ := h.classes c.id b hb
  unfold member? classBody
  rw [hb']
  exact hgrown.member name m hm

/-- What has a body keeps it. -/
theorem isDefined (h : t₀.Retains strict inner t) {ty : Ty} (hty : t₀.isDefined ty = true) :
    t.isDefined ty = true := by
  unfold SymbolTable.isDefined at hty ⊢
  split at hty
  next f _ =>
    obtain ⟨frame, hbody⟩ := Option.isSome_iff_exists.mp hty
    exact Option.isSome_iff_exists.mpr ⟨frame, h.bodies f.id frame hbody⟩
  next => cases hty

/-- The innermost scope is the first of those inside. -/
theorem current (h : t₀.Retains strict (kind :: inner) t) :
    Frame.Extends t₀.classes.size { kind } t.current :=
  (List.forall₂_cons.mp h.frames).1

/-- Below the innermost scope, the scopes around are as they were. -/
theorem around_outer (h : t₀.Retains strict inner t) (hinner : inner ≠ []) (hstrict : strict) :
    t₀.frames <:+ t.outer := by
  obtain ⟨new, hframes, hkinds⟩ := h.exists_append hstrict
  cases new with
  | nil => exact absurd hkinds.symm hinner
  | cons f new => exact ⟨new, (List.cons.inj hframes).2.symm⟩

/-- Another innermost scope, which extends the old one. -/
theorem withCurrent (h : t₀.Retains strict inner t) (hinner : strict → inner ≠ []) {f : Frame}
    (hf : t.current.Extends t₀.classes.size f) :
    t₀.Retains strict inner { t with current := f } where
  toKeepsBodies := h.toKeepsBodies.of_eq rfl
  frames := Frame.Extends.all_trans h.frames (.cons hf (Frame.Extends.all_refl _ _))
  around hstrict := (h.around_outer (hinner hstrict) hstrict).trans (List.suffix_cons _ _)
  classes := h.classes

/-- A change of one class, under which it grows. -/
theorem modifyClass (h : t₀.Retains strict inner t) {c : ClassRef} {f : ClassBody → ClassBody}
    (hf : ∀ b b', t₀.classes[c.id]? = some b → t.classes[c.id]? = some b' → b.Grown strict b' →
      b.Grown strict (f b')) : t₀.Retains strict inner (t.modifyClass c f) := by
  refine { h with classes := fun i b hb => ?_ }
  obtain ⟨b', hb', hgrown⟩ := h.classes i b hb
  change ∃ b', (t.classes.modify c.id f)[i]? = some b' ∧ b.Grown strict b'
  rw [Array.getElem?_modify]
  split
  next heq =>
    subst heq
    exact ⟨f b', by rw [hb']; rfl, hf b b' hb hb' hgrown⟩
  next => exact ⟨b', hb', hgrown⟩

/-- A name is bound in the innermost scope. -/
theorem insert (h : t₀.Retains strict inner t) (hadmits : strict → t₀.Admits inner) {name : String}
    {ty : Ty} (hinsert : t.insert name ty = .ok t') : t₀.Retains strict inner t' := by
  rcases insert_cases hinsert with ⟨c, b, hcls, hadd, rfl⟩ | ⟨hnone, -, rfl⟩
  · have hincomplete : strict → t₀.isComplete c = false := by
      intro hstrict
      obtain ⟨kind, inner, rfl⟩ := List.exists_cons_of_ne_nil (hadmits hstrict).ne_nil
      refine (hadmits hstrict).incomplete c inner ?_
      rw [← Frame.kind_of_cls? hcls, h.current.kind]
    refine h.modifyClass fun b₀ b₁ hb₀ hb₁ hgrown => ?_
    unfold isComplete SymbolTable.classBody at hincomplete
    unfold SymbolTable.classBody at hadd
    rw [hb₀] at hincomplete
    rw [hb₁] at hadd
    exact hgrown.add hincomplete hadd
  · refine h.withCurrent (fun hstrict => (hadmits hstrict).ne_nil)
      ⟨rfl, List.subset_cons_self _ _, List.Subset.refl _, fun _ => .inl, fun hbody => ?_⟩
    unfold Frame.isClassBody at hbody
    rw [hnone] at hbody
    cases hbody

/-- Another access region. -/
theorem setAccess (h : t₀.Retains strict inner t) (hadmits : strict → t₀.Admits inner)
    (access : Access) : t₀.Retains strict inner (t.setAccess access) :=
  h.withCurrent (fun hstrict => (hadmits hstrict).ne_nil)
    ⟨rfl, List.Subset.refl _, List.Subset.refl _, fun _ => .inl, fun _ => ⟨rfl, rfl⟩⟩

/-- A late class is recorded. -/
theorem declareClass (h : t₀.Retains strict inner t) (hadmits : strict → t₀.Admits inner)
    {c : ClassRef} (hc : t₀.classes.size ≤ c.id) : t₀.Retains strict inner (t.declareClass c) := by
  obtain ⟨hclasses, hbodies, -, -⟩ := t.declareClass_rest c
  refine ⟨h.toKeepsBodies.of_eq hbodies, ?_, fun hstrict => ?_, hclasses ▸ h.classes⟩
  · rw [frames_declareClass]
    exact Frame.Extends.all_trans h.frames (forall₂_recordClass hc _)
  · obtain ⟨new, hframes, hkinds⟩ := h.exists_append hstrict
    obtain ⟨kind, hkind, hne⟩ := (hadmits hstrict).outside
    obtain ⟨f, hf, rfl⟩ := List.mem_map.mp (hkinds ▸ hkind)
    have hnot : f.isClassBody = false := by
      unfold Frame.isClassBody Frame.cls?
      split
      next d hd => exact absurd hd (hne d)
      next => rfl
    rw [frames_declareClass, hframes, recordClass_append c _ ⟨f, hf, hnot⟩]
    exact List.suffix_append _ _

/-- A class is made. -/
theorem newClass (h : t₀.Retains strict inner t) (hadmits : strict → t₀.Admits inner)
    (name : String) :
    t₀.Retains strict inner ((t.newClass name).2.declareClass (t.newClass name).1) := by
  have hmade : t₀.Retains strict inner (t.newClass name).2 := by
    refine { h with classes := fun i b hb => ?_ }
    obtain ⟨b', hb', hgrown⟩ := h.classes i b hb
    obtain ⟨hlt, hget⟩ := Array.getElem?_eq_some_iff.mp hb'
    exact ⟨b', (Array.getElem?_push_lt hlt).trans (congrArg some hget), hgrown⟩
  exact hmade.declareClass hadmits h.size_le

/-- A function is made. -/
theorem newFunction (h : t₀.Retains strict inner t) :
    t₀.Retains strict inner { t with bodies := t.bodies.push none } :=
  ⟨h.toKeepsBodies.newFunction, h.frames, h.around, h.classes⟩

/-- A scope is opened. -/
theorem push (h : t₀.Retains strict inner t) (kind : FrameKind) :
    t₀.Retains strict (kind :: inner) (t.push kind) where
  toKeepsBodies := h.toKeepsBodies.of_eq rfl
  frames := .cons (.refl _ _) h.frames
  around hstrict := (h.around hstrict).trans (List.suffix_cons _ _)
  classes := h.classes

/-- A scope that was opened can be closed. -/
theorem pop (h : t₀.Retains strict (kind :: inner) t) :
    ∃ rest, t.pop? = some (t.current, rest) ∧ t₀.Retains strict inner rest := by
  have houter := (List.forall₂_cons.mp h.frames).2
  have haround := h.around_outer (List.cons_ne_nil _ _)
  cases hcons : t.outer with
  | nil =>
    rw [hcons] at houter
    simpa [SymbolTable.frames] using houter.length_eq
  | cons next outer =>
    rw [hcons] at houter haround
    refine ⟨{ t with current := next, outer }, by rw [pop?, hcons], ?_⟩
    exact ⟨h.toKeepsBodies.of_eq rfl, houter, haround, h.classes⟩

/-- A frame that records only late classes is let go. -/
theorem discard (h : t₀.Retains strict inner t) {f : Frame} (hf : f.Late t₀.classes.size) :
    t₀.Retains strict inner (t.discard f) := by
  refine ⟨h.toKeepsBodies.of_eq (t.bodies_discard f), ?_, ?_, fun i b hb => ?_⟩
  · rw [frames_discard]
    exact h.frames
  · rw [frames_discard]
    exact h.around
  · rw [getElem?_classes_discard hf (Array.getElem?_eq_some_iff.mp hb).1]
    exact h.classes i b hb

/-- A function gets the scope of its body. -/
theorem define (h : t₀.Retains strict inner t) {f : FunctionTy} {body : Frame}
    (hbody : body.Late t₀.classes.size) (hdefine : t.define? f body = some t') :
    t₀.Retains strict inner t' := by
  obtain ⟨-, hframes, hclasses, -⟩ := define?_rest hdefine
  exact ⟨h.toKeepsBodies.define hbody hdefine, hframes ▸ h.frames, hframes ▸ h.around,
    hclasses ▸ h.classes⟩

/-- The body of a function goes that had none before. -/
theorem dropBody (h : t₀.Retains strict inner t) {i : Nat} (hi : t₀.bodies[i]?.join = none) :
    t₀.Retains strict inner (t.dropBody i) := by
  unfold SymbolTable.dropBody
  split
  next f hf =>
    refine Retains.discard (t := { t with bodies := t.bodies.modify i fun _ => none }) ?_
      (h.toKeepsBodies.late hi hf)
    exact ⟨h.toKeepsBodies.dropAt hi, h.frames, h.around, h.classes⟩
  next => exact h

/-- The members of a class go that had none before. -/
theorem dropMembers (h : t₀.Retains strict inner t) {i : Nat}
    (hi : ∀ b, t₀.classes[i]? = some b → b.isEmpty = true) :
    t₀.Retains strict inner (t.dropMembers i) :=
  h.modifyClass (c := ⟨i, ""⟩) fun b _ hb _ hgrown => hgrown.clear (hi b hb)

end Retains

end SymbolTable

/-! ### States -/

/-- Where all that an earlier state mentions is mentioned still, letting go takes away only bodies
and members that were not there in the earlier state, if there was nothing to let go. -/
theorem Checker.Settled.reclaim_induction {s₀ : Checker} (hs₀ : s₀.Settled) {P : SymbolTable → Prop}
    {t : SymbolTable} {held : Mentions} (h : P t)
    (hmentions : ∀ u, P u → ∀ x, s₀.allMentions.Has x → (held ++ u.mentions).Has x)
    (hbody : ∀ u i, P u → ¬ s₀.allMentions.Has (.inl i) → s₀.symbols.bodies[i]?.join = none →
      P (u.dropBody i))
    (hmembers : ∀ u i, P u → (∀ b, s₀.symbols.classes[i]? = some b → b.isEmpty = true) →
      P (u.dropMembers i)) : P (t.reclaim held) := by
  refine SymbolTable.reclaim_rounds held h ?_ ?_
  · intro t u i _ ht hu hi
    obtain ⟨-, hnot⟩ := SymbolTable.mem_staleBodies.mp hi
    have hold : ¬ s₀.allMentions.Has (.inl i) := fun hi => hnot (hmentions t ht _ hi)
    refine hbody u i hu hold (Option.eq_none_iff_forall_not_mem.mpr fun f hf => hold ?_)
    refine hs₀.bodies i (SymbolTable.mem_liveBodies.mpr ?_)
    rw [Option.mem_def.mp hf]
    rfl
  · intro t u i _ ht hu hi
    obtain ⟨-, hnot⟩ := SymbolTable.mem_staleClasses.mp hi
    refine hmembers u i hu fun b hb => ?_
    by_contra hlive
    refine hnot (hmentions t ht _ (hs₀.classes i (SymbolTable.mem_liveClasses.mpr ?_)))
    rw [hb]
    simpa using hlive

/-- The state has kept all of the earlier one, with scopes of the given kinds and functions with the
given results inside of it. -/
structure Checker.Retains (s₀ : Checker) (strict : Prop) (inner : List FrameKind)
    (returns : List Ty) (s : Checker) : Prop where
  symbols : s₀.symbols.Retains strict inner s.symbols
  resolutions : s₀.resolutions <+: s.resolutions
  returns : s.returns = returns ++ s₀.returns
  held : s.held = s₀.held

namespace Checker.Retains

variable {s₀ s s' : Checker} {strict : Prop} {inner : List FrameKind} {returns : List Ty}

/-- Nothing changes. -/
theorem refl (s : Checker) : s.Retains strict [] [] s := ⟨.refl _, List.prefix_rfl, rfl, rfl⟩

/-- Only the table changes. -/
theorem withSymbols (h : s₀.Retains strict inner returns s) {inner' : List FrameKind}
    {t : SymbolTable} (ht : s₀.symbols.Retains strict inner' t) :
    s₀.Retains strict inner' returns { s with symbols := t } :=
  ⟨ht, h.resolutions, h.returns, h.held⟩

/-- What the state mentioned beside its table is mentioned still. -/
theorem mentions (h : s₀.Retains strict inner returns s) {x : Nat ⊕ Nat} (hx : s₀.mentions.Has x) :
    s.mentions.Has x := by
  unfold Checker.mentions at hx ⊢
  rw [h.held, h.returns]
  simp only [Mentions.has_append, Mentions.has_ofList] at hx ⊢
  rcases hx with (hx | ⟨r, hr, hx⟩) | ⟨ty, hty, hx⟩
  · exact .inl (.inl hx)
  · exact .inl (.inr ⟨r, h.resolutions.subset hr, hx⟩)
  · exact .inr ⟨ty, List.mem_append_right _ hty, hx⟩

/-- All that was mentioned is mentioned still. -/
theorem allMentions (h : s₀.Retains strict inner returns s) {x : Nat ⊕ Nat}
    (hx : s₀.allMentions.Has x) : s.allMentions.Has x :=
  Checker.allMentions_imp h.mentions h.symbols.mentions hx

/-- What is let go was made in the meantime. -/
theorem reclaim (h : s₀.Retains strict inner returns s) (hs₀ : s₀.Settled) :
    s₀.Retains strict inner returns s.reclaim :=
  h.withSymbols (hs₀.reclaim_induction h.symbols
    (fun _ ht _ hx => (h.withSymbols ht).allMentions hx)
    (fun _ _ hu _ => hu.dropBody) fun _ _ hu => hu.dropMembers)

/-- A frame that records only late classes is let go. -/
theorem discard (h : s₀.Retains strict inner returns s) (hs₀ : s₀.Settled) {f : Frame}
    (hf : f.Late s₀.symbols.classes.size) : s₀.Retains strict inner returns (s.discard f) :=
  (h.withSymbols (h.symbols.discard hf)).reclaim hs₀

/-- A function that was mentioned keeps its body when a frame is let go, also one that it has got in
the meantime. -/
theorem bodies_discard (h : s₀.Retains strict inner returns s) (hs₀ : s₀.Settled) {f : Frame}
    (hf : f.Late s₀.symbols.classes.size) {i : Nat} (hi : s₀.allMentions.Has (.inl i)) :
    (s.discard f).symbols.bodies[i]? = s.symbols.bodies[i]? := by
  let P (t : SymbolTable) : Prop :=
    s₀.symbols.Retains strict inner t ∧ t.bodies[i]? = s.symbols.bodies[i]?
  have hfirst : P (s.symbols.discard f) :=
    ⟨h.symbols.discard hf, by rw [SymbolTable.bodies_discard]⟩
  refine (hs₀.reclaim_induction (P := P) hfirst
    (fun _ ht _ hx => (h.withSymbols ht.1).allMentions hx)
    (fun u j hu hnot hj => ⟨hu.1.dropBody hj, ?_⟩) fun u j hu hj => ⟨hu.1.dropMembers hj, hu.2⟩).2
  have hne : j ≠ i := by
    rintro rfl
    exact hnot hi
  exact (SymbolTable.getElem?_bodies_dropBody hne).trans hu.2

/-- A scope is opened. -/
theorem opened (h : s₀.Retains strict inner returns s) (kind : FrameKind) :
    s₀.Retains strict (kind :: inner) returns (s.opened kind) :=
  ⟨h.symbols.push kind, h.resolutions, h.returns, h.held⟩

/-- A problem is recorded. -/
theorem reported (h : s₀.Retains strict inner returns s) (d : Diagnostic) :
    s₀.Retains strict inner returns (s.reported d) := by
  unfold Checker.reported
  split
  · split <;> exact ⟨h.symbols, h.resolutions, h.returns, h.held⟩
  · exact ⟨h.symbols, h.resolutions, h.returns, h.held⟩

/-- If there was nothing to let go, and all that has come to life is mentioned, there is still
nothing to let go. -/
theorem settled (h : s₀.Retains strict inner returns s) (hs₀ : s₀.Settled)
    (hbodies : ∀ i ∈ s.symbols.liveBodies, i ∈ s₀.symbols.liveBodies ∨ s.allMentions.Has (.inl i))
    (hclasses : ∀ i ∈ s.symbols.liveClasses,
      i ∈ s₀.symbols.liveClasses ∨ s.allMentions.Has (.inr i)) : s.Settled :=
  hs₀.mono hbodies hclasses fun _ => h.allMentions

end Checker.Retains

end CWithClasses
