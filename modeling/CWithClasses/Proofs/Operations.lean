import CWithClasses.Proofs.Bindings

/-!
# Operations on a symbol table

Whatever is done to a symbol table, in whatever order, it stays well formed: the global scope is at
the bottom, the frames of class bodies hold nothing themselves, no frame records a class twice, and
no name is in both tables of a class.

Beside the table, a `Session` keeps a journal of the insertions that were accepted, scope by scope.
The journal knows nothing of frames and member tables, and it says what a name means: the earliest
insertion of the name counts, in the innermost open scope that has one.
-/

namespace CWithClasses

/-- An operation on a symbol table, or on one of its classes. -/
inductive Operation where
  | push (kind : FrameKind)
  /-- The innermost scope is closed. Whoever closes it may keep it; otherwise it is gone for
  good. -/
  | pop (kept : Bool)
  | insert (name : String) (ty : Ty)
  | setAccess (access : Access)
  | newClass (name : String)
  | declareClass (cls : ClassRef)
  | addMember (cls : ClassRef) (name : String) (ty : Ty) (access : Access)
  | clear (cls : ClassRef)
  /-- A built-in name is inserted, after its type has been made. -/
  | builtin (entry : String × Builtin)

/-- The table after its innermost scope was closed. The last scope stays. -/
def SymbolTable.close (t : SymbolTable) (kept : Bool) : SymbolTable :=
  match t.pop? with
  | none => t
  | some (frame, rest) => if kept then rest else rest.discard frame

namespace Operation

/-- The table after an operation. One that is refused changes nothing. -/
def apply (t : SymbolTable) : Operation → SymbolTable
  | push kind => t.push kind
  | pop kept => t.close kept
  | insert name ty => (t.insert name ty).toOption.getD t
  | setAccess access => t.setAccess access
  | newClass name => (t.newClass name).2
  | declareClass cls => t.declareClass cls
  | addMember cls name ty access => (t.addMember cls name ty access).toOption.getD t
  | clear cls => t.clear cls
  | builtin entry => t.declareBuiltin entry

/-- The insertion that an operation asks for, and the table in which it is made. -/
def insertion? (t : SymbolTable) : Operation → Option (SymbolTable × String × Ty)
  | insert name ty => some (t, name, ty)
  | builtin (name, b) => some ((t.builtinTy name b).2, name, (t.builtinTy name b).1)
  | _ => none

/-- The insertion that an operation makes, unless it is refused. -/
def inserted (t : SymbolTable) (op : Operation) : Bindings :=
  match op.insertion? t with
  | some (t, name, ty) => if (t.insert name ty).toOption.isSome then [(name, ty)] else []
  | none => []

end Operation

/-- For each open scope, the innermost one first: what has been inserted since it was opened, the
earliest insertion first. -/
abbrev Journal := List Bindings

namespace Journal

/-- The journal with another entry for the innermost scope. -/
def enter (entry : Bindings) : Journal → Journal
  | [] => []
  | scope :: outer => (scope ++ entry) :: outer

/-- The journal after an operation that has made an insertion, or none. The last scope stays. -/
def after (j : Journal) (inserted : Bindings) : Operation → Journal
  | .push _ => [] :: j
  | .pop _ => if j.length ≤ 1 then j else j.tail
  | _ => j.enter inserted

/-- The earliest insertion of a name in the innermost scope that has one. -/
def earliest? (j : Journal) (name : String) : Option Ty :=
  j.findSome? fun scope => scope.lookup name

end Journal

/-- A symbol table together with the journal of its operations. -/
structure Session where
  table : SymbolTable
  journal : Journal

namespace Session

/-- A session after an operation. -/
def step (s : Session) (op : Operation) : Session :=
  ⟨op.apply s.table, s.journal.after (op.inserted s.table) op⟩

/-- A session after a sequence of operations. -/
def run (s : Session) (ops : List Operation) : Session := ops.foldl step s

/-- A session starts with an empty table, or with the built-in names of a configuration, which are
inserted one by one. -/
def start : Option Config → Session
  | none => ⟨.empty, [[]]⟩
  | some config => run ⟨.empty, [[]]⟩ (config.builtins.map .builtin)

/-- A table that starts with the built-in names is the populated one. -/
theorem table_start (config : Config) : (start (some config)).table = .populated config := by
  have hrun : ∀ (entries : List (String × Builtin)) (s : Session),
      (s.run (entries.map .builtin)).table = entries.foldl SymbolTable.declareBuiltin s.table := by
    intro entries
    induction entries with
    | nil => exact fun s => rfl
    | cons entry rest ih => exact fun s => ih (s.step (.builtin entry))
  exact hrun config.builtins _

end Session

/-! ### Closing a scope -/

namespace SymbolTable

variable {t t' : SymbolTable}

/-- The outermost scope is the last one of the stack. -/
theorem getLast?_frames (t : SymbolTable) : t.frames.getLast? = some t.outermost := by
  unfold frames outermost
  cases h : t.outer.getLast? with
  | none => simp [List.getLast?_eq_none_iff.mp h]
  | some f => simp [List.getLast?_cons, h]

/-- Only the last scope cannot be closed. -/
theorem pop?_eq_none_iff : t.pop? = none ↔ t.outer = [] := by
  unfold pop?
  split <;> simp_all

/-- A scope that can be closed is not the one at the bottom. -/
theorem outermost_pop {frame : Frame} (hpop : t.pop? = some (frame, t')) :
    t'.outermost = t.outermost ∧ t'.frames = t.frames.tail := by
  unfold pop? at hpop
  split at hpop
  · cases hpop
  next next outer houter =>
    cases hpop
    refine ⟨?_, by simp [frames, houter]⟩
    simp [outermost, houter, List.getLast?_cons]

/-- Closing a scope never takes the outermost one, and takes one scope otherwise. -/
theorem frames_close (t : SymbolTable) (kept : Bool) :
    (t.close kept).outermost = t.outermost ∧
    (t.close kept).frames = if t.outer = [] then t.frames else t.frames.tail := by
  unfold close
  cases hpop : t.pop? with
  | none => exact ⟨rfl, (if_pos (pop?_eq_none_iff.mp hpop)).symm⟩
  | some popped =>
    obtain ⟨frame, rest⟩ := popped
    have houter : t.outer ≠ [] := by
      intro hnil
      rw [pop?_eq_none_iff.mpr hnil] at hpop
      cases hpop
    obtain ⟨hbottom, hframes⟩ := outermost_pop hpop
    rw [if_neg houter, ← hbottom, ← hframes]
    cases kept with
    | true => exact ⟨rfl, rfl⟩
    | false =>
      have hdiscard := frames_discard rest frame
      have hsame := congrArg List.getLast? hdiscard
      rw [getLast?_frames, getLast?_frames] at hsame
      exact ⟨Option.some.inj hsame, hdiscard⟩

/-- What the scopes bind after one was closed. -/
theorem bound_close (t : SymbolTable) (kept : Bool) :
    (t.close kept).bound = if t.outer = [] then t.bound else t.bound.tail := by
  unfold bound
  rw [(t.frames_close kept).2]
  split
  · rfl
  · exact List.map_tail

end SymbolTable

/-! ### Well-formed tables -/

/-- A frame of a class body holds nothing itself, and no frame records a class twice. -/
structure Frame.Tidy (f : Frame) : Prop where
  classBody : f.isClassBody = true → f.bindings = [] ∧ f.classes = []
  recorded : (f.classes.map (·.id)).Nodup

/-- No name is in both tables of the class. -/
def ClassBody.Disjoint (b : ClassBody) : Prop :=
  ∀ name, b.publicMembers.lookup name = none ∨ b.privateMembers.lookup name = none

/-- A table whose scopes and classes are in order. -/
structure SymbolTable.WellFormed (t : SymbolTable) : Prop where
  bottom : t.outermost.kind = .global
  frames : ∀ f ∈ t.frames, f.Tidy
  classes : ∀ c, (t.classBody c).Disjoint

namespace Frame.Tidy

variable {f : Frame}

/-- A new frame is empty. -/
theorem new (kind : FrameKind) : Frame.Tidy { kind } := ⟨fun _ => ⟨rfl, rfl⟩, .nil⟩

/-- The access region of a frame does not matter. -/
theorem setAccess (h : f.Tidy) (access : Access) : Frame.Tidy { f with access } :=
  ⟨h.classBody, h.recorded⟩

/-- A frame that is no class body may bind anything. -/
theorem bind (h : f.Tidy) (hcls : f.cls? = none) (bindings : Bindings) :
    Frame.Tidy { f with bindings } := by
  refine ⟨fun hbody => ?_, h.recorded⟩
  have hbody' : f.isClassBody = true := hbody
  simp [isClassBody, hcls] at hbody'

/-- A frame that is no class body records a class once. -/
theorem record (h : f.Tidy) (hcls : f.isClassBody = false) (c : ClassRef) : (f.record c).Tidy := by
  unfold Frame.record
  split
  · exact h
  next hnew =>
    refine ⟨fun hbody => ?_, ?_⟩
    · have hbody' : f.isClassBody = true := hbody
      rw [hcls] at hbody'
      cases hbody'
    · have hfresh : c.id ∉ f.classes.map (·.id) := by
        simpa using hnew
      rw [List.map_append, List.nodup_append]
      refine ⟨h.recorded, by simp, ?_⟩
      rintro id hid other hother rfl
      rw [List.map_singleton, List.mem_singleton] at hother
      exact hfresh (hother ▸ hid)

end Frame.Tidy

namespace ClassBody.Disjoint

variable {b : ClassBody}

/-- A class without members has none in both tables. -/
theorem empty : ClassBody.Disjoint {} := fun _ => .inl rfl

/-- A name that is no member is in neither table. -/
theorem lookup_of_member? {name : String} (h : b.member? name = none) :
    b.publicMembers.lookup name = none ∧ b.privateMembers.lookup name = none := by
  unfold ClassBody.member? at h
  split at h
  · cases h
  next hpublic => exact ⟨hpublic, by simpa using h⟩

/-- A new member goes into one of the tables only. -/
theorem add {b' : ClassBody} (h : b.Disjoint) {name : String} {ty : Ty} {access : Access}
    (hadd : b.add name ty access = .ok b') : b'.Disjoint := by
  unfold ClassBody.add at hadd
  split at hadd
  · cases hadd
  next hmember =>
    obtain ⟨hpublic, hprivate⟩ := lookup_of_member? hmember
    intro other
    by_cases hother : other = name
    · cases access <;> cases hadd
      · exact .inr (hother ▸ hprivate)
      · exact .inl (hother ▸ hpublic)
    · have hne : (other == name) = false := beq_eq_false_iff_ne.mpr hother
      cases access <;> cases hadd <;> simp only [List.lookup_cons, hne] <;> exact h other

end ClassBody.Disjoint

namespace SymbolTable.WellFormed

variable {t t' : SymbolTable}

/-- What is at the bottom depends on the kinds of the scopes only. -/
theorem bottom_of_scopes (h : t.WellFormed) (hscopes : t'.scopes = t.scopes) :
    t'.outermost.kind = .global := by
  have hlast : ∀ t : SymbolTable,
      t.scopes.getLast? = some (t.outermost.kind, t.outermost.access) := by
    intro t
    simp [scopes, List.getLast?_map, getLast?_frames]
  have hsame := hlast t'
  rw [hscopes, hlast t, Option.some.injEq, Prod.mk.injEq] at hsame
  exact hsame.1.symm.trans h.bottom

/-- The members of a class after those of one class have been changed. -/
theorem disjoint_modify (h : t.WellFormed) (c : ClassRef) {f : ClassBody → ClassBody}
    (hf : (f (t.classBody c)).Disjoint) (d : ClassRef) :
    ((t.modifyClass c f).classBody d).Disjoint := by
  rcases classBody_modifyClass_cases t c f d with hsame | ⟨-, hchanged⟩
  · exact hsame ▸ h.classes d
  · exact hchanged ▸ hf

/-- A change to the members of one class that keeps its tables apart. -/
theorem modifyClass (h : t.WellFormed) (c : ClassRef) {f : ClassBody → ClassBody}
    (hf : (f (t.classBody c)).Disjoint) : (t.modifyClass c f).WellFormed :=
  ⟨h.bottom, h.frames, h.disjoint_modify c hf⟩

/-- An empty table. -/
theorem empty : SymbolTable.empty.WellFormed where
  bottom := rfl
  frames f hf := by
    rw [List.mem_singleton.mp hf]
    exact .new _
  classes _ := .empty

/-- Opening a scope. -/
theorem push (h : t.WellFormed) (kind : FrameKind) : (t.push kind).WellFormed where
  bottom := by
    have hlast := getLast?_frames (t.push kind)
    change (({ kind } : Frame) :: t.frames).getLast? = _ at hlast
    rw [List.getLast?_cons, getLast?_frames, Option.some.injEq] at hlast
    rw [← hlast]
    exact h.bottom
  frames f hf := by
    rcases List.mem_cons.mp hf with rfl | hrest
    · exact .new kind
    · exact h.frames f hrest
  classes := h.classes

/-- Closing a scope. -/
theorem pop (h : t.WellFormed) {frame : Frame} (hpop : t.pop? = some (frame, t')) :
    t'.WellFormed := by
  obtain ⟨hbottom, hframes⟩ := outermost_pop hpop
  refine ⟨hbottom ▸ h.bottom, fun f hf => h.frames f ?_, ?_⟩
  · rw [hframes] at hf
    exact List.mem_of_mem_tail hf
  · unfold classBody
    rw [(pop?_rest hpop).2.2.1]
    exact h.classes

/-- Taking the members of a class away. -/
theorem clear (h : t.WellFormed) (c : ClassRef) : (t.clear c).WellFormed :=
  h.modifyClass c fun _ => .inl rfl

/-- Letting go of a frame. -/
theorem discard (h : t.WellFormed) (f : Frame) : (t.discard f).WellFormed :=
  List.foldlRecOn _ _ h fun _ ht c _ => ht.clear c

/-- Closing a scope, and keeping it or letting go of it. -/
theorem close (h : t.WellFormed) (kept : Bool) : (t.close kept).WellFormed := by
  unfold SymbolTable.close
  split
  · exact h
  next frame rest hpop =>
    split
    · exact h.pop hpop
    · exact (h.pop hpop).discard frame

/-- Adding a member to a class. -/
theorem addMember (h : t.WellFormed) {c : ClassRef} {name : String} {ty : Ty} {access : Access}
    (hadd : t.addMember c name ty access = .ok t') : t'.WellFormed := by
  unfold SymbolTable.addMember at hadd
  split at hadd
  next b hb =>
    cases hadd
    exact h.modifyClass c ((h.classes c).add hb)
  next => cases hadd

/-- Binding a name. -/
theorem insert (h : t.WellFormed) {name : String} {ty : Ty} (hinsert : t.insert name ty = .ok t') :
    t'.WellFormed := by
  have hbottom := h.bottom_of_scopes (scopes_insert hinsert)
  rcases insert_cases hinsert with ⟨c, b, -, hb, rfl⟩ | ⟨hcls, -, rfl⟩
  · exact h.modifyClass c ((h.classes c).add hb)
  · refine ⟨hbottom, fun f hf => ?_, h.classes⟩
    rcases List.mem_cons.mp hf with rfl | hrest
    · exact (h.frames t.current List.mem_cons_self).bind hcls _
    · exact h.frames f (List.mem_cons_of_mem _ hrest)

/-- Choosing the access region. -/
theorem setAccess (h : t.WellFormed) (access : Access) : (t.setAccess access).WellFormed where
  bottom := by
    have hbottom := h.bottom
    unfold outermost at hbottom ⊢
    cases houter : t.outer.getLast? with
    | none => simpa [SymbolTable.setAccess, houter] using hbottom
    | some f => simpa [SymbolTable.setAccess, houter] using hbottom
  frames f hf := by
    rcases List.mem_cons.mp hf with rfl | hrest
    · exact (h.frames t.current List.mem_cons_self).setAccess access
    · exact h.frames f (List.mem_cons_of_mem _ hrest)
  classes := h.classes

/-- Making a class. -/
theorem newClass (h : t.WellFormed) (name : String) : (t.newClass name).2.WellFormed := by
  refine ⟨h.bottom, h.frames, fun c => ?_⟩
  have hold := h.classes c
  unfold classBody SymbolTable.newClass at *
  dsimp only
  rw [Array.getElem?_push]
  split
  · exact .empty
  · exact hold

/-- Recording a class in the innermost scope that is no class body. -/
theorem tidy_recordClass (c : ClassRef) {frames : List Frame} (h : ∀ f ∈ frames, f.Tidy) :
    ∀ f ∈ recordClass c frames, f.Tidy := by
  induction frames with
  | nil => exact h
  | cons f rest ih =>
    have hrest := ih fun g hg => h g (List.mem_cons_of_mem _ hg)
    unfold recordClass
    split
    next =>
      intro g hg
      rcases List.mem_cons.mp hg with rfl | hg
      · exact h g List.mem_cons_self
      · exact hrest g hg
    next hbody =>
      intro g hg
      rcases List.mem_cons.mp hg with rfl | hg
      · exact (h f List.mem_cons_self).record (by simpa using hbody) c
      · exact h g (List.mem_cons_of_mem _ hg)

/-- Recording a class. -/
theorem declareClass (h : t.WellFormed) (c : ClassRef) : (t.declareClass c).WellFormed := by
  refine ⟨h.bottom_of_scopes (scopes_declareClass t c), ?_, ?_⟩
  · rw [frames_declareClass]
    exact tidy_recordClass c h.frames
  · have hclasses : (t.declareClass c).classes = t.classes := by
      unfold SymbolTable.declareClass
      split <;> rfl
    unfold classBody
    rw [hclasses]
    exact h.classes

/-- Making the type of a built-in name. -/
theorem builtinTy (h : t.WellFormed) (name : String) (b : Builtin) :
    (t.builtinTy name b).2.WellFormed := by
  cases b with
  | value ty => exact h
  | newClass =>
    refine WellFormed.declareClass (WellFormed.modifyClass (h.newClass name) _ ?_) _
    exact (h.newClass name).classes _
  | objectOf cls => exact h
  | function result params => exact ⟨h.bottom, h.frames, h.classes⟩

/-- Declaring a built-in name. -/
theorem declareBuiltin (h : t.WellFormed) (entry : String × Builtin) :
    (t.declareBuiltin entry).WellFormed := by
  unfold SymbolTable.declareBuiltin
  dsimp only
  split
  next hinsert => exact (h.builtinTy _ _).insert hinsert
  next => exact h.builtinTy _ _

/-- Every operation. -/
theorem apply (h : t.WellFormed) (op : Operation) : (op.apply t).WellFormed := by
  cases op with
  | push kind => exact h.push kind
  | pop kept => exact h.close kept
  | insert name ty =>
    change ((t.insert name ty).toOption.getD t).WellFormed
    cases hinsert : t.insert name ty with
    | error _ => exact h
    | ok t' => exact h.insert hinsert
  | setAccess access => exact h.setAccess access
  | newClass name => exact h.newClass name
  | declareClass c => exact h.declareClass c
  | addMember c name ty access =>
    change ((t.addMember c name ty access).toOption.getD t).WellFormed
    cases hadd : t.addMember c name ty access with
    | error _ => exact h
    | ok t' => exact h.addMember hadd
  | clear c => exact h.clear c
  | builtin entry => exact h.declareBuiltin entry

end SymbolTable.WellFormed

/-! ### Journals -/

/-- The entries are what the scope binds, in the order in which it was bound. Nothing is said of
class bodies, whose members are kept elsewhere. -/
def Journal.Records (scope : FrameKind × Bindings) (entries : Bindings) : Prop :=
  (∀ c, scope.1 ≠ .classBody c) →
    scope.2 = entries.reverse ∧ (entries.map Prod.fst).Nodup

/-- The journal has the entries of each open scope. -/
def Journal.Covers (j : Journal) (t : SymbolTable) : Prop := List.Forall₂ Records t.bound j

/-- Names that occur once are found from either end. -/
theorem Bindings.lookup_reverse {b : Bindings} (h : (b.map Prod.fst).Nodup) (name : String) :
    b.reverse.lookup name = b.lookup name := by
  induction b with
  | nil => rfl
  | cons entry rest ih =>
    obtain ⟨key, ty⟩ := entry
    rw [List.map_cons, List.nodup_cons] at h
    rw [List.reverse_cons, List.lookup_append, ih h.2]
    by_cases hkey : name = key
    · subst hkey
      have hrest : rest.lookup name = none := by
        rw [List.lookup_eq_none_iff]
        intro entry hentry
        have hmem : entry.1 ∈ rest.map Prod.fst := List.mem_map_of_mem hentry
        have hne : name ≠ entry.1 := by
          rintro rfl
          exact h.1 hmem
        simpa using hne
      simp [hrest]
    · have hne : (name == key) = false := beq_eq_false_iff_ne.mpr hkey
      simp [List.lookup_cons, hne]

namespace Journal.Covers

variable {j : Journal} {t t' : SymbolTable}

/-- Nothing is entered. -/
theorem enter_nil (j : Journal) : j.enter [] = j := by
  cases j <;> simp [enter]

/-- Only what the scopes bind matters. -/
theorem congr (h : j.Covers t) (hbound : t'.bound = t.bound) : j.Covers t' := by
  unfold Covers
  rw [hbound]
  exact h

/-- An operation that binds nothing. -/
theorem unchanged (h : j.Covers t) (hbound : t'.bound = t.bound) : (j.enter []).Covers t' := by
  rw [enter_nil]
  exact h.congr hbound

/-- A journal has an innermost scope. -/
theorem exists_cons (h : j.Covers t) : ∃ entries outer, j = entries :: outer ∧
    Records (t.current.kind, t.current.bindings) entries ∧
    List.Forall₂ Records t.bound.tail outer := by
  unfold Covers at h
  rw [t.bound_eq] at h
  cases h with
  | cons hentries houter => exact ⟨_, _, rfl, hentries, houter⟩

/-- Opening a scope. -/
theorem push (h : j.Covers t) (kind : FrameKind) : Covers ([] :: j) (t.push kind) :=
  .cons (fun _ => ⟨rfl, .nil⟩) h

/-- Closing a scope. The journal of the last scope stays, as the scope does. -/
theorem close (h : j.Covers t) (kept : Bool) :
    (if j.length ≤ 1 then j else j.tail).Covers (t.close kept) := by
  have hlength : j.length = t.outer.length + 1 := by
    rw [← List.Forall₂.length_eq h]
    simp [SymbolTable.bound, SymbolTable.frames]
  unfold Covers
  rw [SymbolTable.bound_close]
  by_cases houter : t.outer = []
  · rw [if_pos houter, if_pos (by simp [hlength, houter])]
    exact h
  · have hpos : 0 < t.outer.length := List.length_pos_iff.mpr houter
    rw [if_neg houter, if_neg (by omega)]
    obtain ⟨entries, outer, rfl, -, hrest⟩ := h.exists_cons
    exact hrest

/-- An insertion, which is entered if it is accepted. -/
theorem insert (h : j.Covers t) (name : String) (ty : Ty) :
    (j.enter (if (t.insert name ty).toOption.isSome then [(name, ty)] else [])).Covers
      ((t.insert name ty).toOption.getD t) := by
  cases hinsert : t.insert name ty with
  | error e => exact h.unchanged rfl
  | ok t' =>
    obtain ⟨entries, outer, rfl, hentries, houter⟩ := h.exists_cons
    change List.Forall₂ Records t'.bound ((entries ++ [(name, ty)]) :: outer)
    obtain ⟨c, b, hcls, -, rfl⟩ | ⟨-, hfree, rfl⟩ := SymbolTable.insert_cases hinsert
    · -- The new name is a member, and the frame of the class is not looked at.
      have hbound : (t.modifyClass c fun _ => b).bound = t.bound := rfl
      rw [hbound, t.bound_eq]
      exact .cons (fun hother => absurd (Frame.kind_of_cls? hcls) (hother c)) houter
    · refine .cons (fun hother => ?_) houter
      obtain ⟨hbindings, hnodup⟩ := hentries hother
      change t.current.bindings = entries.reverse at hbindings
      refine ⟨by simp [hbindings], ?_⟩
      have hfresh : ∀ entry ∈ entries, entry.1 ≠ name := by
        intro entry hentry heq
        rw [hbindings, Bindings.lookup_reverse hnodup, List.lookup_eq_none_iff] at hfree
        simpa [heq] using hfree entry hentry
      rw [List.map_append, List.nodup_append]
      refine ⟨hnodup, by simp, ?_⟩
      intro key hkey other hother
      obtain ⟨entry, hentry, rfl⟩ := List.mem_map.mp hkey
      rw [List.map_singleton, List.mem_singleton] at hother
      exact hother ▸ hfresh entry hentry

/-- Making the type of a built-in name binds nothing. -/
theorem bound_builtinTy (t : SymbolTable) (name : String) (b : Builtin) :
    (t.builtinTy name b).2.bound = t.bound := by
  cases b with
  | newClass => exact SymbolTable.bound_declareClass _ _
  | _ => rfl

/-- A built-in name is declared by an insertion. -/
theorem declareBuiltin_eq (t : SymbolTable) (entry : String × Builtin) :
    t.declareBuiltin entry = (((t.builtinTy entry.1 entry.2).2.insert entry.1
      (t.builtinTy entry.1 entry.2).1).toOption.getD (t.builtinTy entry.1 entry.2).2) := by
  unfold SymbolTable.declareBuiltin
  dsimp only
  split <;> rename_i hinsert <;> rw [hinsert] <;> rfl

/-- Every operation. -/
theorem apply (h : j.Covers t) (op : Operation) :
    (j.after (op.inserted t) op).Covers (op.apply t) := by
  cases op with
  | push kind => exact h.push kind
  | pop kept => exact h.close kept
  | insert name ty => exact h.insert name ty
  | setAccess access => exact h.unchanged rfl
  | newClass name => exact h.unchanged rfl
  | declareClass c => exact h.unchanged (SymbolTable.bound_declareClass t c)
  | addMember c name ty access =>
    refine h.unchanged ?_
    change ((t.addMember c name ty access).toOption.getD t).bound = t.bound
    unfold SymbolTable.addMember
    split <;> rfl
  | clear c => exact h.unchanged rfl
  | builtin entry =>
    have hmade := h.congr (bound_builtinTy t entry.1 entry.2)
    change Covers _ (t.declareBuiltin entry)
    rw [declareBuiltin_eq]
    exact hmade.insert entry.1 _

/-- Without class bodies around, the journal says what a name means. -/
theorem lookup? (h : j.Covers t) (hplain : ∀ f ∈ t.frames, f.isClassBody = false)
    (name : String) : t.lookup? name = j.earliest? name := by
  have hframes : ∀ {frames : List Frame} {j : Journal},
      List.Forall₂ Records (frames.map fun f => (f.kind, f.bindings)) j →
      (∀ f ∈ frames, f.isClassBody = false) →
      (frames.findSome? fun f => t.findIn f name) = j.earliest? name := by
    intro frames
    induction frames with
    | nil =>
      rintro j ⟨⟩ _
      rfl
    | cons f rest ih =>
      rintro j (_ | ⟨hentries, hrest⟩) hplain
      rename_i entries outer
      have hcls : f.cls? = none := by
        simpa [Frame.isClassBody] using hplain f List.mem_cons_self
      have hkind : ∀ c, f.kind ≠ .classBody c := by
        intro c hkind
        simp [Frame.cls?, hkind] at hcls
      obtain ⟨hbindings, hnodup⟩ := hentries hkind
      change f.bindings = entries.reverse at hbindings
      have hfound : t.findIn f name = entries.lookup name := by
        unfold SymbolTable.findIn
        rw [hcls]
        exact hbindings ▸ Bindings.lookup_reverse hnodup name
      have hbelow := ih hrest fun g hg => hplain g (List.mem_cons_of_mem _ hg)
      unfold earliest? at hbelow ⊢
      rw [List.findSome?_cons, List.findSome?_cons, hfound, hbelow]
  exact hframes h hplain

end Journal.Covers

/-! ### Sessions -/

namespace Session

/-- The table of a session is well formed, and its journal has the entries of all open scopes. -/
structure Sound (s : Session) : Prop where
  table : s.table.WellFormed
  journal : s.journal.Covers s.table

variable {s : Session}

/-- One operation keeps a session sound. -/
theorem Sound.step (h : s.Sound) (op : Operation) : (s.step op).Sound :=
  ⟨h.table.apply op, h.journal.apply op⟩

/-- So does a sequence of them. -/
theorem Sound.run (h : s.Sound) (ops : List Operation) : (s.run ops).Sound :=
  List.foldlRecOn ops Session.step h fun _ hs op _ => hs.step op

/-- A session is sound from the start. -/
theorem sound_start (config : Option Config) : (start config).Sound := by
  have hempty : Sound ⟨.empty, [[]]⟩ := ⟨.empty, .cons (fun _ => ⟨rfl, .nil⟩) .nil⟩
  cases config with
  | none => exact hempty
  | some config => exact hempty.run _

/-- The sessions that some sequence of operations leads to. -/
def Reachable (s : Session) : Prop := ∃ config ops, s = (start config).run ops

/-- They are all sound. -/
theorem Reachable.sound (h : s.Reachable) : s.Sound := by
  obtain ⟨config, ops, rfl⟩ := h
  exact (sound_start config).run ops

end Session

/-- After any operations, the table is well formed, closing a scope leaves the global scope at the
bottom, and in a stack without class bodies a name means what was inserted first under that name in
the innermost scope that has it. -/
theorem Session.wellFormed_and_lookup_of_reachable {s : Session} (h : s.Reachable) :
    s.table.WellFormed ∧
    (∀ kept, (s.table.close kept).outermost = s.table.outermost ∧
      (s.table.close kept).frames =
        if s.table.outer = [] then s.table.frames else s.table.frames.tail) ∧
    ((∀ f ∈ s.table.frames, f.isClassBody = false) →
      ∀ name, s.table.lookup name =
        (s.journal.earliest? name).elim (.error (.notFound name)) .ok) := by
  refine ⟨h.sound.table, s.table.frames_close, ?_⟩
  intro hplain name
  have hlookup := h.sound.journal.lookup? hplain name
  unfold SymbolTable.lookup
  rw [← hlookup]
  cases s.table.lookup? name <;> rfl

/-- A name is bound outside, bound again in a block, refused there, used for a member of a class in
between, and bound in a scope that is closed again. -/
def shadowingOperations : List Operation :=
  [.insert "x" .int, .newClass "C", .declareClass ⟨0, "C"⟩, .push .block, .insert "x" .char,
   .insert "x" .bool, .push (.classBody ⟨0, "C"⟩), .setAccess .priv, .insert "x" .double,
   .addMember ⟨0, "C"⟩ "x" .int .pub, .newClass "D", .declareClass ⟨1, "D"⟩, .pop false,
   .push .block, .insert "x" .void, .insert "y" .int, .pop false]

/-- The name is found as it was bound in the innermost scope that is still open, and what was bound
in the closed one is not found any more. -/
theorem Session.lookup_shadowingOperations :
    ((start none).run shadowingOperations).table.WellFormed ∧
    (((start none).run shadowingOperations).table.lookup "x" = .ok .char) ∧
    (((start none).run shadowingOperations).table.lookup "y" = .error (.notFound "y")) := by
  have h := wellFormed_and_lookup_of_reachable ⟨none, shadowingOperations, rfl⟩
  have hplain : ∀ f ∈ ((start none).run shadowingOperations).table.frames,
      f.isClassBody = false := by decide
  exact ⟨h.1, h.2.2 hplain "x", h.2.2 hplain "y"⟩

end CWithClasses
