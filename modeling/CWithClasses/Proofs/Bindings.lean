import CWithClasses.Proofs.Logic.Bracket
import CWithClasses.Proofs.Nesting

/-!
# Bindings are kept

A name is always bound in the innermost scope, and only if it is not bound there yet. Scopes that
are opened are closed again. So whatever is checked, the scopes around the innermost one bind what
they bound before, the innermost one still binds what it did, and nothing that was reported or
resolved is taken back. This holds after a fault as well, apart from the scopes that it leaves open.

A function that a scope binds is mentioned by it. So it keeps its body as long as the scope is open,
whatever else goes.
-/

namespace CWithClasses

/-! ### Bindings -/

/-- All that the older bindings bind is bound alike by the newer ones. -/
def Bindings.Extends (new old : Bindings) : Prop :=
  ∀ name ty, old.lookup name = some ty → new.lookup name = some ty

namespace Bindings.Extends

/-- Bindings extend themselves. -/
theorem refl (b : Bindings) : Extends b b := fun _ _ h => h

/-- What is bound twice over is bound. -/
theorem trans {a b c : Bindings} (hab : Extends a b) (hbc : Extends b c) : Extends a c :=
  fun name ty h => hab name ty (hbc name ty h)

/-- A new name hides nothing. -/
theorem cons {b : Bindings} {name : String} (ty : Ty) (h : b.lookup name = none) :
    Extends ((name, ty) :: b) b := by
  intro other bound hother
  have hne : (other == name) = false := by
    rw [beq_eq_false_iff_ne]
    rintro rfl
    simp [h] at hother
  rw [List.lookup_cons, hne]
  exact hother

end Bindings.Extends

/-! ### Mentions -/

/-- What one of some things mentions is mentioned by all of them. -/
theorem Mentions.mem_functions_ofList {α : Type} {f : α → Mentions} {items : List α} {a : α}
    {id : Nat} (ha : a ∈ items) (hid : id ∈ (f a).functions) :
    id ∈ (Mentions.ofList f items).functions := by
  induction items with
  | nil => cases ha
  | cons b rest ih =>
    change id ∈ (f b).functions ++ (Mentions.ofList f rest).functions
    rcases List.mem_cons.mp ha with rfl | hrest
    · exact List.mem_append_left _ hid
    · exact List.mem_append_right _ (ih hrest)

/-- A type mentions the function that may be called through it. -/
theorem Ty.mem_mentions_of_asFunction {ty : Ty} {f : FunctionTy} (h : ty.asFunction? = some f) :
    f.id ∈ ty.mentions.functions := by
  have hfunction : ∀ (id required : Nat) (result : Ty) (params : List Ty),
      id ∈ (Ty.function id result params required).mentions.functions := by
    intro id required result params
    change id ∈ ([id] ++ result.mentions.functions) ++ (Ty.mentionsOf params).functions
    simp
  unfold Ty.asFunction? at h
  split at h
  next id result params required =>
    cases h
    exact hfunction id required result params
  next id result params required =>
    cases h
    exact hfunction id required result params
  next => cases h

namespace SymbolTable

/-! ### Letting go -/

/-- Letting go of a frame takes no function its body. -/
theorem bodies_discard (t : SymbolTable) (f : Frame) : (t.discard f).bodies = t.bodies := by
  unfold discard
  exact List.foldlRecOn (motive := fun t' : SymbolTable => t'.bodies = t.bodies) _ _ rfl
    fun _ h _ _ => h

/-- The functions that the open scopes mention. -/
def bindsFunction (t : SymbolTable) (id : Nat) : Prop :=
  id ∈ (Mentions.ofList Frame.mentions t.frames).functions

/-- What holds while bodies and members go that nothing mentioned when their round began holds after
all that is not mentioned is gone. The open scopes are the same throughout. -/
theorem reclaim_rounds {P : SymbolTable → Prop} {t : SymbolTable} (held : Mentions) (h : P t)
    (hbody : ∀ t u id, u.frames = t.frames → P t → P u → id ∈ t.staleBodies (held ++ t.mentions) →
      P (u.dropBody id))
    (hmembers : ∀ t u id, u.frames = t.frames → P t → P u →
      id ∈ t.staleClasses (held ++ t.mentions) → P (u.dropMembers id)) : P (t.reclaim held) := by
  unfold reclaim
  generalize t.bodies.size + t.classes.size = rounds
  induction rounds generalizing t with
  | zero => exact h
  | succ rounds ih =>
    unfold reclaimRounds
    dsimp only
    split
    · exact h
    · refine ih (List.foldlRecOn (motive := fun u => u.frames = t.frames ∧ P u) _ _ ?_ ?_).2
      · refine List.foldlRecOn (motive := fun u => u.frames = t.frames ∧ P u) _ _ ⟨rfl, h⟩ ?_
        rintro u ⟨hframes, hu⟩ id hid
        exact ⟨(frames_dropBody u id).trans hframes, hbody t u id hframes h hu hid⟩
      · rintro u ⟨hframes, hu⟩ id hid
        exact ⟨hframes, hmembers t u id hframes h hu hid⟩

/-- What holds while bodies go that no open scope mentions, and while members go, holds after all
that is not mentioned is gone. -/
theorem reclaim_induction {P : SymbolTable → Prop} {t : SymbolTable} (held : Mentions) (h : P t)
    (hbody : ∀ t id, ¬ t.bindsFunction id → P t → P (t.dropBody id))
    (hmembers : ∀ t id, P t → P (t.dropMembers id)) : P (t.reclaim held) := by
  refine reclaim_rounds held h ?_ fun _ u id _ _ hu _ => hmembers u id hu
  intro t u id hframes _ hu hid
  refine hbody u id (fun hbinds => ?_) hu
  unfold bindsFunction at hbinds
  rw [hframes] at hbinds
  have hnot : id ∉ (held ++ t.mentions).functions := by
    have hstale := (List.mem_filter.mp hid).2
    simp only [Bool.and_eq_true, Bool.not_eq_true', List.contains_eq_mem,
      decide_eq_false_iff_not] at hstale
    exact hstale.2
  have hmentioned : id ∈ t.mentions.functions :=
    List.mem_append_left _ (List.mem_append_left _ hbinds)
  exact hnot (List.mem_append_right _ hmentioned)

/-- Dropping the body of a function leaves the bodies of the others. -/
theorem getElem?_bodies_dropBody {t : SymbolTable} {id other : Nat} (hne : id ≠ other) :
    (t.dropBody id).bodies[other]? = t.bodies[other]? := by
  unfold dropBody
  split
  · rw [bodies_discard, Array.getElem?_modify, if_neg hne]
  · rfl

/-- A function that an open scope mentions keeps its body. -/
theorem getElem?_bodies_reclaim {t : SymbolTable} {id : Nat} (held : Mentions)
    (h : t.bindsFunction id) : (t.reclaim held).bodies[id]? = t.bodies[id]? := by
  refine (reclaim_induction (P := fun t' => t'.bindsFunction id ∧ t'.bodies[id]? = t.bodies[id]?)
    held ⟨h, rfl⟩ ?_ ?_).2
  · rintro t' other hother ⟨hbinds, hbody⟩
    have hne : other ≠ id := by
      rintro rfl
      exact hother hbinds
    refine ⟨?_, (getElem?_bodies_dropBody hne).trans hbody⟩
    unfold bindsFunction
    rw [frames_dropBody]
    exact hbinds
  · exact fun t' other h => h

/-! ### Scopes and what they bind -/

/-- What the open scopes bind, the innermost one first. -/
def bound (t : SymbolTable) : List (FrameKind × Bindings) :=
  t.frames.map fun f => (f.kind, f.bindings)

/-- Some open scope binds a name to the type. -/
def Binds (t : SymbolTable) (ty : Ty) : Prop :=
  ∃ scope ∈ t.bound, ∃ name, scope.2.lookup name = some ty

variable {t t₁ t' : SymbolTable}

/-- The innermost scope comes before those around it. -/
theorem bound_eq (t : SymbolTable) :
    t.bound = (t.current.kind, t.current.bindings) :: t.bound.tail :=
  rfl

/-- The functions that the open scopes bind are mentioned by them. -/
theorem Binds.bindsFunction {ty : Ty} {f : FunctionTy} (h : t.Binds ty)
    (hf : ty.asFunction? = some f) : t.bindsFunction f.id := by
  obtain ⟨scope, hscope, name, hname⟩ := h
  obtain ⟨frame, hframe, rfl⟩ := List.mem_map.mp hscope
  obtain ⟨front, back, hbindings, _⟩ := List.lookup_eq_some_iff.mp hname
  have hmem : (name, ty) ∈ frame.bindings := by
    change frame.bindings = _ at hbindings
    simp [hbindings]
  have hmention : f.id ∈ (Bindings.mentions frame.bindings).functions :=
    Mentions.mem_functions_ofList hmem (Ty.mem_mentions_of_asFunction hf)
  refine Mentions.mem_functions_ofList hframe ?_
  exact List.mem_append_left _ (List.mem_append_left _ hmention)

/-- A new scope hides nothing that is bound around it. -/
theorem Binds.push {ty : Ty} (h : t.Binds ty) (kind : FrameKind) : (t.push kind).Binds ty := by
  obtain ⟨scope, hscope, hname⟩ := h
  exact ⟨scope, List.mem_cons_of_mem _ hscope, hname⟩

/-- Letting go of a frame that is closed keeps what is bound. -/
theorem bound_discard (t : SymbolTable) (f : Frame) : (t.discard f).bound = t.bound := by
  rw [bound, frames_discard]
  rfl

/-- Letting go of what is not mentioned keeps what is bound. -/
theorem bound_reclaim (t : SymbolTable) (held : Mentions) : (t.reclaim held).bound = t.bound := by
  rw [bound, frames_reclaim]
  rfl

/-- A function that gets a body stays bound as it is. -/
theorem bound_define {f : FunctionTy} {body : Frame} (h : t.define? f body = some t') :
    t'.bound = t.bound := by
  rw [bound, (define?_rest h).2.1]
  rfl

/-- Recording a class binds nothing. -/
theorem bound_declareClass (t : SymbolTable) (c : ClassRef) :
    (t.declareClass c).bound = t.bound := by
  have hrecord : ∀ f : Frame,
      ((f.record c).kind, (f.record c).bindings) = (f.kind, f.bindings) := by
    intro f
    unfold Frame.record
    split <;> rfl
  have houter : ∀ frames : List Frame,
      (recordClass c frames).map (fun f => (f.kind, f.bindings)) =
        frames.map fun f => (f.kind, f.bindings) := by
    intro frames
    induction frames with
    | nil => rfl
    | cons f rest ih =>
      unfold recordClass
      split
      · simp [ih]
      · simp [hrecord f]
  unfold declareClass
  split
  · simp [bound, frames, houter]
  · simp [bound, frames, hrecord t.current]

/-- Outside of a class, what a name means is what the scope binds. -/
theorem lookupLocal?_eq (h : t.current.cls? = none) (name : String) :
    t.lookupLocal? name = t.current.bindings.lookup name := by
  unfold lookupLocal? findIn
  rw [h]

/-- A name is bound in the innermost scope, or becomes a member. -/
theorem bound_insert {name : String} {ty : Ty} (h : t.insert name ty = .ok t') :
    ∃ new : Bindings, t'.bound = (t.current.kind, new) :: t.bound.tail ∧
      new.Extends t.current.bindings := by
  obtain ⟨c, b, -, -, rfl⟩ | ⟨-, hnone, rfl⟩ := insert_cases h
  · exact ⟨t.current.bindings, rfl, .refl _⟩
  · exact ⟨(name, ty) :: t.current.bindings, rfl, .cons ty hnone⟩

/-- Binding a name makes nothing. -/
theorem insert_made {name : String} {ty : Ty} (h : t.insert name ty = .ok t') :
    t'.bodies = t.bodies ∧ t'.classes.size = t.classes.size := by
  obtain ⟨c, b, -, -, rfl⟩ | ⟨-, -, rfl⟩ := insert_cases h
  · exact ⟨rfl, Array.size_modify⟩
  · exact ⟨rfl, rfl⟩

/-- Closing a scope uncovers the ones around it. -/
theorem bound_pop {frame : Frame} (h : t.pop? = some (frame, t')) : t'.bound = t.bound.tail := by
  rw [bound, (pop?_rest h).2.1]
  rfl

/-- If there are scopes around the innermost one, it can be closed. -/
theorem exists_pop (h : t.bound.tail ≠ []) : ∃ frame rest, t.pop? = some (frame, rest) := by
  unfold pop?
  cases houter : t.outer with
  | nil => simp [bound, frames, houter] at h
  | cons next outer => exact ⟨_, _, rfl⟩

/-! ### What a table keeps -/

/-- From one table to a later one, with some scopes left open: the scopes bind what they bound, and
functions that they bind keep their bodies. Only the innermost scope may bind more. -/
structure Keeps (opened : List (FrameKind × Bindings)) (t t' : SymbolTable) : Prop where
  bound : ∃ new : Bindings, t'.bound = opened ++ (t.current.kind, new) :: t.bound.tail ∧
    new.Extends t.current.bindings
  defined : ∀ ty, t.Binds ty → t.isDefined ty = true → t'.isDefined ty = true

/-- Whether a function is defined depends on the bodies only. -/
theorem isDefined_congr (h : t'.bodies = t.bodies) (ty : Ty) :
    t'.isDefined ty = t.isDefined ty := by
  unfold isDefined body?
  rw [h]

/-- A function that gets a body has it, and all others are as before. -/
theorem body?_define {f g : FunctionTy} {body : Frame} (h : t.define? f body = some t') :
    t'.body? g = if g.id = f.id then some body else t.body? g := by
  have hplace : ∀ i : Nat, (t.bodies.rightpad (f.id + 1) none)[i]?.join = t.bodies[i]?.join := by
    intro i
    unfold Array.rightpad
    rw [Array.getElem?_append]
    split
    next => rfl
    next hsize =>
      have hnone : t.bodies[i]? = none := Array.getElem?_eq_none (Nat.le_of_not_lt hsize)
      rw [hnone, Array.getElem?_replicate]
      split <;> rfl
  unfold define? at h
  split at h
  · cases h
  · cases h
    change ((t.bodies.rightpad (f.id + 1) none).modify f.id fun _ => some body)[g.id]?.join = _
    rw [Array.getElem?_modify]
    split
    next heq =>
      have hlt : g.id < (t.bodies.rightpad (f.id + 1) none).size := by
        have hsize : (t.bodies.rightpad (f.id + 1) none).size =
            t.bodies.size + (f.id + 1 - t.bodies.size) := by simp [Array.rightpad]
        omega
      rw [Array.getElem?_eq_getElem hlt, if_pos heq.symm]
      rfl
    next hne =>
      rw [if_neg (Ne.symm hne)]
      exact hplace g.id

/-- A function stays defined if it keeps a body. -/
theorem isDefined_of_body {ty : Ty} (h : t.isDefined ty = true)
    (hbody : ∀ f, ty.asFunction? = some f → (t.body? f).isSome = true →
      (t'.body? f).isSome = true) : t'.isDefined ty = true := by
  unfold isDefined at h ⊢
  cases hf : ty.asFunction? with
  | none => simp [hf] at h
  | some f =>
    rw [hf] at h
    exact hbody f hf h

namespace Keeps

variable {opened : List (FrameKind × Bindings)}

/-- A table whose scopes and bodies have not changed. -/
theorem of_eq (hbound : t'.bound = t.bound) (hbodies : t'.bodies = t.bodies) : Keeps [] t t' where
  bound := ⟨t.current.bindings, hbound, .refl _⟩
  defined ty _ h := (isDefined_congr hbodies ty).trans h

/-- A table keeps what it has. -/
theorem refl (t : SymbolTable) : Keeps [] t t := of_eq rfl rfl

/-- What is bound stays bound. -/
theorem binds (h : Keeps opened t t') {ty : Ty} (hty : t.Binds ty) : t'.Binds ty := by
  obtain ⟨new, hbound, hextends⟩ := h.bound
  obtain ⟨scope, hscope, name, hname⟩ := hty
  rw [bound_eq] at hscope
  rcases List.mem_cons.mp hscope with rfl | houter
  · exact ⟨(t.current.kind, new), by simp [hbound], name, hextends name ty hname⟩
  · exact ⟨scope, by simp [hbound, houter], name, hname⟩

/-- What is kept twice over is kept. -/
theorem trans (h₁ : Keeps [] t t₁) (h₂ : Keeps opened t₁ t') : Keeps opened t t' where
  bound := by
    obtain ⟨new₁, hbound₁, hextends₁⟩ := h₁.bound
    obtain ⟨new₂, hbound₂, hextends₂⟩ := h₂.bound
    rw [bound_eq t₁, List.nil_append] at hbound₁
    obtain ⟨hhead, htail⟩ := List.cons.inj hbound₁
    obtain ⟨hkind, hbindings⟩ := Prod.mk.inj hhead
    rw [hkind, htail] at hbound₂
    rw [hbindings] at hextends₂
    exact ⟨new₂, hbound₂, hextends₂.trans hextends₁⟩
  defined ty hty h := h₂.defined ty (h₁.binds hty) (h₁.defined ty hty h)

/-- A function may get a body. -/
theorem define {f : FunctionTy} {body : Frame} (h : t.define? f body = some t') :
    Keeps [] t t' := by
  refine ⟨⟨t.current.bindings, bound_define h, .refl _⟩, fun ty _ hdefined => ?_⟩
  refine isDefined_of_body hdefined fun g _ hg => ?_
  rw [body?_define h]
  split
  · rfl
  · exact hg

/-- A fault in a scope of its own leaves one more scope open. -/
theorem of_push {kind : FrameKind} (h : Keeps opened (t.push kind) t') :
    ∃ more, Keeps more t t' := by
  obtain ⟨new, hbound, _⟩ := h.bound
  have hpush : (t.push kind).bound.tail = t.bound := rfl
  have hmore : t'.bound = (opened ++ [(kind, new)]) ++ t.bound := by
    rw [hbound, hpush]
    simp [SymbolTable.push]
  refine ⟨opened ++ [(kind, new)], ⟨t.current.bindings, hmore, .refl _⟩, ?_⟩
  exact fun ty hty hdefined => h.defined ty (hty.push kind) hdefined

/-- A scope that was opened is still there to be closed, and the scopes around it are as before. -/
theorem of_push_pop {kind : FrameKind} (h : Keeps [] (t.push kind) t₁) :
    ∃ frame rest, t₁.pop? = some (frame, rest) ∧ rest.bound = t.bound ∧ Keeps [] t rest := by
  obtain ⟨new, hbound, _⟩ := h.bound
  have htail : t₁.bound.tail = t.bound := by
    rw [hbound]
    rfl
  obtain ⟨frame, rest, hpop⟩ := exists_pop (t := t₁) (by rw [htail, bound_eq]; simp)
  have hrest : rest.bound = t.bound := (bound_pop hpop).trans htail
  have hbodies : rest.bodies = t₁.bodies := (pop?_rest hpop).2.2.2
  refine ⟨frame, rest, hpop, hrest, ⟨t.current.bindings, hrest, .refl _⟩, ?_⟩
  intro ty hty hdefined
  rw [isDefined_congr hbodies]
  exact h.defined ty (hty.push kind) hdefined

end Keeps

end SymbolTable

/-! ### What a step keeps -/

/-- From one state to a later one, with some scopes left open: the table keeps what it has, and
nothing that was reported or resolved is taken back. -/
structure Checker.Keeps (opened : List (FrameKind × Bindings)) (s s' : Checker) : Prop where
  symbols : s.symbols.Keeps opened s'.symbols
  diagnostics : s.diagnostics <+: s'.diagnostics
  resolutions : s.resolutions <+: s'.resolutions
  limit : s'.limit = s.limit

namespace Checker.Keeps

variable {opened : List (FrameKind × Bindings)} {s s₁ s' : Checker}

/-- A change of something else. -/
theorem of_eq (hsymbols : s'.symbols = s.symbols) (hdiagnostics : s'.diagnostics = s.diagnostics)
    (hresolutions : s'.resolutions = s.resolutions) (hlimit : s'.limit = s.limit) :
    Keeps [] s s' := by
  constructor
  · rw [hsymbols]
    exact .refl _
  · exact hdiagnostics ▸ List.prefix_rfl
  · exact hresolutions ▸ List.prefix_rfl
  · exact hlimit

/-- A state keeps what it has. -/
theorem refl (s : Checker) : Keeps [] s s := of_eq rfl rfl rfl rfl

/-- What is kept twice over is kept. -/
theorem trans (h₁ : Keeps [] s s₁) (h₂ : Keeps opened s₁ s') : Keeps opened s s' :=
  ⟨h₁.symbols.trans h₂.symbols, h₁.diagnostics.trans h₂.diagnostics,
    h₁.resolutions.trans h₂.resolutions, h₂.limit.trans h₁.limit⟩

/-- A change of the table only. -/
theorem of_symbols {t : SymbolTable} (h : s.symbols.Keeps [] t) :
    Keeps [] s { s with symbols := t } :=
  ⟨h, List.prefix_rfl, List.prefix_rfl, rfl⟩

/-- A report adds to what was reported. -/
theorem reported (s : Checker) (d : Diagnostic) : Keeps [] s (s.reported d) := by
  have hsame : s.withReportsOf (s.reported d) = s.reported d := s.withReportsOf_reported d
  have hsymbols : (s.reported d).symbols = s.symbols := by rw [← hsame]; rfl
  have hresolutions : (s.reported d).resolutions = s.resolutions := by rw [← hsame]; rfl
  refine ⟨hsymbols ▸ .refl _, ?_, hresolutions ▸ List.prefix_rfl, s.limit_reported d⟩
  rw [diagnostics_reported]
  split
  · exact List.prefix_rfl
  · exact List.prefix_append _ _

/-- A frame that is gone takes nothing with it that is bound. -/
theorem discard (s : Checker) (f : Frame) : Keeps [] s (s.discard f) := by
  let t := s.symbols.discard f
  have hdiscard : s.symbols.Keeps [] t :=
    .of_eq (s.symbols.bound_discard f) (s.symbols.bodies_discard f)
  have hreclaim : t.Keeps [] (t.reclaim s.mentions) := by
    refine ⟨⟨t.current.bindings, t.bound_reclaim s.mentions, .refl _⟩, fun ty hty h => ?_⟩
    refine SymbolTable.isDefined_of_body h fun f hf hbody => ?_
    unfold SymbolTable.body? at hbody ⊢
    rwa [SymbolTable.getElem?_bodies_reclaim _ (hty.bindsFunction hf)]
  exact ⟨hdiscard.trans hreclaim, List.prefix_rfl, List.prefix_rfl, rfl⟩

/-- A scope that was opened can be closed again, and nothing around it is lost. -/
theorem closed {kind : FrameKind} (h : Keeps [] (s.opened kind) s₁) :
    ∃ frame rest, s₁.symbols.pop? = some (frame, rest) ∧ rest.bound = s.symbols.bound ∧
      Keeps [] s ({ s₁ with symbols := rest }.logged (.poppedScope rest.depth)) := by
  obtain ⟨frame, rest, hpop, hbound, hkeeps⟩ := h.symbols.of_push_pop
  exact ⟨frame, rest, hpop, hbound, hkeeps, h.diagnostics, h.resolutions, h.limit⟩

end Checker.Keeps

/-- The step keeps what the state has. A fault may leave scopes open. -/
def Check.Keeps {α : Type} (x : Check α) : Prop :=
  ∀ s : Checker, match x s with
    | .ok _ s' => s.Keeps [] s'
    | .error _ s' => ∃ opened, s.Keeps opened s'

namespace Check.Keeps

variable {α β : Type}

/-- A change of the state. -/
theorem change {f : Checker → Checker} (h : ∀ s : Checker, s.Keeps [] (f s)) :
    Check.Keeps (modify f) :=
  h

/-- A step that only has a result. -/
theorem ret (a : α) : Check.Keeps (pure a) := fun s => .refl s

/-- One step after another, given what the first one yields. -/
theorem seq {x : Check α} {f : α → Check β} {R : α → Prop} (hR : x.Yields R) (hx : x.Keeps)
    (hf : ∀ a, R a → (f a).Keeps) : (x >>= f).Keeps := by
  intro s
  have hfirst := hx s
  cases hrun : x s with
  | error e s₁ =>
    rw [hrun] at hfirst
    rw [Check.bind_error hrun]
    exact hfirst
  | ok a s₁ =>
    rw [hrun] at hfirst
    rw [Check.bind_ok hrun]
    have hsecond := hf a (hR s a s₁ hrun) s₁
    cases hrest : f a s₁ with
    | ok b s' =>
      rw [hrest] at hsecond
      exact hfirst.trans hsecond
    | error e s' =>
      rw [hrest] at hsecond
      obtain ⟨opened, hopened⟩ := hsecond
      exact ⟨opened, hfirst.trans hopened⟩

/-- One step after another. -/
theorem bind {x : Check α} {f : α → Check β} (hx : x.Keeps) (hf : ∀ a, (f a).Keeps) :
    (x >>= f).Keeps :=
  seq (R := fun _ => True) (fun _ _ _ _ => trivial) hx fun a _ => hf a

/-- Adding an event to the log. -/
theorem log (e : Event) : (Check.log e).Keeps := fun _ => .of_eq rfl rfl rfl rfl

/-- A step that depends on the symbol table. -/
theorem onSymbols {k : SymbolTable → Check α}
    (hk : ∀ s : Checker, match k s.symbols s with
      | .ok _ s' => s.Keeps [] s'
      | .error _ s' => ∃ opened, s.Keeps opened s') :
    (Check.symbols >>= k).Keeps :=
  hk

/-- Binding a name. -/
theorem declare (name : String) (position : Position) (ty : Ty) :
    (Check.declare name position ty).Keeps := by
  refine onSymbols fun s => ?_
  cases hinsert : s.symbols.insert name ty with
  | error e => exact .reported s _
  | ok table =>
    refine .of_symbols ⟨SymbolTable.bound_insert hinsert, fun ty _ h => ?_⟩
    rwa [SymbolTable.isDefined_congr (SymbolTable.insert_made hinsert).1]

/-- Making a class. -/
theorem newClass (name : String) : (Check.newClass name).Keeps := by
  intro s
  refine .of_symbols (.of_eq (SymbolTable.bound_declareClass _ _) ?_)
  unfold SymbolTable.declareClass
  split <;> rfl

/-- Making a function, which has no body yet. -/
theorem newFunction (result : Ty) (params : List Ty) (required : Nat) :
    (Check.newFunction result params required).Keeps := by
  intro s
  refine .of_symbols ⟨⟨_, rfl, .refl _⟩, fun ty _ h => ?_⟩
  refine SymbolTable.isDefined_of_body h fun f _ hbody => ?_
  have hpush : ∀ bodies : Array (Option Frame),
      (bodies.push none)[f.id]?.join = bodies[f.id]?.join := by
    intro bodies
    rw [Array.getElem?_push]
    split
    next hlast => simp [hlast]
    next => rfl
  change ((s.symbols.bodies.push none)[f.id]?.join).isSome = true
  rw [hpush]
  exact hbody

/-- Letting go of a frame. -/
theorem discard (frame : Option Frame) : (Check.discard frame).Keeps := by
  cases frame with
  | none => exact ret ()
  | some f => exact change fun s => .discard s f

/-- Giving a function the scope of its body. -/
theorem attachScope (b : FunctionBody) (f : FunctionTy) (scope : Option Frame) :
    (b.attachScope f scope).Keeps := by
  unfold FunctionBody.attachScope
  split
  next frame _ =>
    refine onSymbols fun s => ?_
    cases hdefine : s.symbols.define? f frame with
    | none =>
      have hrefused : Check.Keeps (do
          Check.discard (some frame)
          Check.log (.alreadyDefined b.name)) :=
        (discard _).bind fun _ => log _
      exact hrefused s
    | some table => exact .of_symbols (.define hdefine)
  next => exact discard _

/-- A step in a scope of its own, after which the scopes are as before. -/
theorem bracket_bound (kind : FrameKind) {x : Check α} (hx : x.Keeps) (s : Checker) :
    match Check.bracket kind x s with
    | .ok _ s' => s.Keeps [] s' ∧ s'.symbols.bound = s.symbols.bound
    | .error _ s' => ∃ opened, s.Keeps opened s' := by
  have hinside := hx (s.opened kind)
  cases hrun : x (s.opened kind) with
  | error e s₁ =>
    rw [hrun] at hinside
    rw [Check.bracket_error hrun]
    obtain ⟨opened, hopened⟩ := hinside
    obtain ⟨more, hmore⟩ := hopened.symbols.of_push
    exact ⟨more, hmore, hopened.diagnostics, hopened.resolutions, hopened.limit⟩
  | ok a s₁ =>
    rw [hrun] at hinside
    obtain ⟨frame, rest, hpop, hbound, hkeeps⟩ := hinside.closed
    rw [Check.bracket_ok hrun hpop]
    exact ⟨hkeeps, hbound⟩

/-- A step in a scope of its own. -/
theorem bracket (kind : FrameKind) {x : Check α} (hx : x.Keeps) :
    (Check.bracket kind x).Keeps := by
  intro s
  have hrun := bracket_bound kind hx s
  cases hend : Check.bracket kind x s with
  | error e s' =>
    rw [hend] at hrun
    exact hrun
  | ok a s' =>
    rw [hend] at hrun
    exact hrun.1

/-- A step inside of loops and switches. -/
theorem nested (loops switches : Nat) {x : Check Unit} (hx : x.Keeps) :
    (Check.nested loops switches x).Keeps := by
  have henter : Check.Keeps (modify (·.nested loops switches)) := fun _ => .of_eq rfl rfl rfl rfl
  refine henter.bind fun _ => ?_
  intro s
  have hrun := hx s
  rw [Check.afterwards]
  cases hend : x s with
  | error e s' =>
    rw [hend] at hrun
    obtain ⟨opened, h⟩ := hrun
    exact ⟨opened, h.symbols, h.diagnostics, h.resolutions, h.limit⟩
  | ok a s' =>
    rw [hend] at hrun
    exact ⟨hrun.symbols, hrun.diagnostics, hrun.resolutions, hrun.limit⟩

/-- A switch without a body. -/
theorem missingBody (c : Clause) : c.missingBody.Keeps :=
  fun _ => ⟨[], .of_eq rfl rfl rfl rfl⟩

/-- A step inside of a function. -/
theorem inFunction (result : Ty) {x : Check Unit} (hx : x.Keeps) :
    (Check.inFunction result x).Keeps := by
  have henter : Check.Keeps (modify (·.enterFunction result)) := fun _ => .of_eq rfl rfl rfl rfl
  have hleave : Check.Keeps (modify (·.leaveFunction)) := fun _ => .of_eq rfl rfl rfl rfl
  exact henter.bind fun _ => hx.bind fun _ => hleave

end Check.Keeps

/-! ### All trees -/

/-- Every step of a check keeps what the state has. -/
def bindingsLogic : BracketLogic where
  holds := Check.Keeps
  ret := .ret
  seq := .seq
  fault _ := fun s => ⟨[], .refl s⟩
  symbols := fun s => .refl s
  nesting hk := fun s => hk s.loops s.switches s.returns s
  log := .log
  report _ _ _ := .change fun s => .reported s _
  resolve _ _ _ := .change fun _ => ⟨.refl _, List.prefix_rfl, List.prefix_append _ _, rfl⟩
  newClass := .newClass
  newFunction := .newFunction
  declare := .declare
  markComplete _ := .change fun _ => .of_symbols (.of_eq rfl rfl)
  setAccess _ := .change fun _ => .of_symbols (.of_eq rfl rfl)
  discard := .discard
  attachScope := .attachScope
  bracket := .bracket
  inFunction := .inFunction
  nested := .nested
  missingBody _ := .missingBody _

instance : Fact bindingsLogic.statements := ⟨trivial⟩

/-- Letting go of a frame, and of what only it mentions, keeps what is bound. -/
theorem Checker.bound_discard (s : Checker) (f : Frame) :
    (s.discard f).symbols.bound = s.symbols.bound :=
  (SymbolTable.bound_reclaim _ _).trans (s.symbols.bound_discard f)

/-- After a step in a scope of its own, the scopes bind exactly what they bound before. -/
theorem Check.Keeps.bound_inScope {α : Type} {kind : FrameKind} {x : Check α} {s s' : Checker}
    {a : α} (hx : x.Keeps) (h : Check.inScope kind x s = .ok a s') :
    s'.symbols.bound = s.symbols.bound := by
  rw [Check.inScope_eq] at h
  obtain ⟨⟨a', frame⟩, s₁, hbracket, hrest⟩ := Check.exists_of_bind h
  obtain ⟨_, s₂, hdiscard, hret⟩ := Check.exists_of_bind hrest
  cases hret
  have hbound := bracket_bound kind hx s
  rw [hbracket] at hbound
  refine Eq.trans ?_ hbound.2
  cases frame with
  | none =>
    cases hdiscard
    rfl
  | some f =>
    cases hdiscard
    exact Checker.bound_discard _ f

/-- Whatever tree is checked, from whatever state: the scopes around the innermost one bind exactly
what they bound, and the innermost one still binds what it did. What was reported and resolved
before comes first among what is reported and resolved afterwards. A fault may leave scopes open,
but does no more than that. A statement that opens a scope binds nothing outside of it. -/
theorem Node.check_keepsBindings (n : Node) (s : Checker) :
    match n.check s with
    | .ok _ s' => ∃ new : Bindings,
        s'.symbols.bound = (s.symbols.current.kind, new) :: s.symbols.bound.tail ∧
        (∀ name ty, s.symbols.current.bindings.lookup name = some ty →
          new.lookup name = some ty) ∧
        s.diagnostics <+: s'.diagnostics ∧ s.resolutions <+: s'.resolutions ∧
        (n.rule.opensScope = true → new = s.symbols.current.bindings)
    | .error _ s' => ∃ (opened : List (FrameKind × Bindings)) (new : Bindings),
        s'.symbols.bound = opened ++ (s.symbols.current.kind, new) :: s.symbols.bound.tail ∧
        (∀ name ty, s.symbols.current.bindings.lookup name = some ty →
          new.lookup name = some ty) ∧
        s.diagnostics <+: s'.diagnostics ∧ s.resolutions <+: s'.resolutions := by
  have hkeeps : n.check.Keeps := bindingsLogic.toStepLogic.check (p := True) (.inl trivial)
  have hrun := hkeeps s
  cases hend : n.check s with
  | error e s' =>
    rw [hend] at hrun
    obtain ⟨opened, hopened⟩ := hrun
    obtain ⟨new, hbound, hextends⟩ := hopened.symbols.bound
    exact ⟨opened, new, hbound, hextends, hopened.diagnostics, hopened.resolutions⟩
  | ok ty s' =>
    rw [hend] at hrun
    obtain ⟨new, hbound, hextends⟩ := hrun.symbols.bound
    refine ⟨new, hbound, hextends, hrun.diagnostics, hrun.resolutions, fun hrule => ?_⟩
    obtain ⟨body, hbody, hsound⟩ :=
      bindingsLogic.toStepLogic.scopedStatement (n := n) (.inl trivial) hrule
    have hexact : s'.symbols.bound = s.symbols.bound := by
      have hcheck : n.check = (do n.checkStatement; return .void) := by
        unfold Node.check
        cases hname : n.rule <;> simp_all [Rule.opensScope, Rule.category]
      rw [hcheck, hbody] at hend
      obtain ⟨_, s₁, hstatement, hret⟩ := Check.exists_of_bind hend
      cases hret
      exact Check.Keeps.bound_inScope (hsound True) hstatement
    rw [hexact, SymbolTable.bound_eq, List.nil_append] at hbound
    exact (Prod.mk.inj (List.cons.inj hbound).1).2.symm

end CWithClasses
