import CWithClasses.Proofs.Likeness.Lifetime
import CWithClasses.Proofs.Logic.Bracket
import CWithClasses.Proofs.Logic.Open
import CWithClasses.Proofs.Pairs.Running

/-!
# Growing states

As long as nothing is defined, a state only grows: names are bound in the innermost scope, functions
and classes are made, and uses of names are recorded. A block that is closed again leaves nothing
behind in the scopes around it. If nothing could have been let go when the block was opened, then
nothing can be let go when it is closed, since all that has been mentioned still is.

So two runs that start in states that match go the same way, even if these states hold different
bodies of functions, or list the members of a class in different orders.
-/

namespace CWithClasses

open Check

/-! ### States in which nothing is to go -/

/-- What a table mentions. -/
theorem SymbolTable.has_mentions {t : SymbolTable} {x : Nat ⊕ Nat} :
    t.mentions.Has x ↔ (∃ f ∈ t.frames, f.mentions.Has x) ∨ (∃ b ∈ t.classes, b.mentions.Has x) ∨
      ∃ f, (∃ i : Nat, t.bodies[i]?.join = some f) ∧ f.mentions.Has x := by
  unfold SymbolTable.mentions
  simp only [Mentions.has_append, Mentions.has_ofList, mem_filterMap_bodies, Array.mem_toList_iff,
    or_assoc]

namespace Checker

/-- All that a state mentions, in its symbol table and beside it. -/
def allMentions (s : Checker) : Mentions := s.mentions ++ s.symbols.mentions

/-- What is mentioned stays so if the state and its table do not forget it. -/
theorem allMentions_imp {s s₁ : Checker} {x : Nat ⊕ Nat}
    (hmentions : s.mentions.Has x → s₁.mentions.Has x)
    (htable : s.symbols.mentions.Has x → s₁.symbols.mentions.Has x) (hx : s.allMentions.Has x) :
    s₁.allMentions.Has x := by
  unfold allMentions at hx ⊢
  rw [Mentions.has_append] at hx ⊢
  exact hx.imp hmentions htable

/-- There is nothing to let go. -/
structure Settled (s : Checker) : Prop where
  bodies : ∀ i ∈ s.symbols.liveBodies, s.allMentions.Has (.inl i)
  classes : ∀ i ∈ s.symbols.liveClasses, s.allMentions.Has (.inr i)

/-- Letting go changes nothing if there is nothing to let go. -/
theorem Settled.reclaim_eq {s : Checker} (h : s.Settled) : s.reclaim = s := by
  have hstale : s.symbols.stale s.mentions = ([], []) := by
    refine Prod.ext (List.eq_nil_iff_forall_not_mem.mpr fun i hi => ?_)
      (List.eq_nil_iff_forall_not_mem.mpr fun i hi => ?_)
    · obtain ⟨hlive, hnot⟩ := SymbolTable.mem_staleBodies.mp hi
      exact hnot (h.bodies i hlive)
    · obtain ⟨hlive, hnot⟩ := SymbolTable.mem_staleClasses.mp hi
      exact hnot (h.classes i hlive)
  unfold reclaim SymbolTable.reclaim
  rw [SymbolTable.reclaimRounds_of_stale_eq hstale]

/-- If more is mentioned, and what has come to life is mentioned too, there is still nothing to let
go. -/
theorem Settled.mono {s s₁ : Checker} (h : s.Settled)
    (hbodies : ∀ i ∈ s₁.symbols.liveBodies, i ∈ s.symbols.liveBodies ∨ s₁.allMentions.Has (.inl i))
    (hclasses : ∀ i ∈ s₁.symbols.liveClasses, i ∈ s.symbols.liveClasses ∨
      s₁.allMentions.Has (.inr i))
    (hmentions : ∀ x, s.allMentions.Has x → s₁.allMentions.Has x) : s₁.Settled :=
  ⟨fun i hi => (hbodies i hi).elim (fun hi => hmentions _ (h.bodies i hi)) id,
    fun i hi => (hclasses i hi).elim (fun hi => hmentions _ (h.classes i hi)) id⟩

end Checker

/-! ### Growth -/

/-- New functions have no bodies. -/
theorem SymbolTable.join_append_none (bodies : Array (Option Frame)) (k i : Nat) :
    (bodies ++ Array.replicate k none)[i]?.join = bodies[i]?.join := by
  rw [Array.getElem?_append]
  split
  · rfl
  next hlt =>
    rw [Array.getElem?_eq_none (Nat.le_of_not_lt hlt), Array.getElem?_replicate]
    split <;> rfl

/-- The second table has new classes without members. -/
def SymbolTable.MoreClasses (t t₁ : SymbolTable) : Prop :=
  ∃ k, t₁.classes = t.classes ++ Array.replicate k ({} : ClassBody)

namespace SymbolTable.MoreClasses

variable {t t₁ t₂ : SymbolTable}

/-- No class is new. -/
theorem of_eq (h : t₁.classes = t.classes) : t.MoreClasses t₁ := ⟨0, by simp [h]⟩

/-- More and more classes. -/
theorem trans (h : t.MoreClasses t₁) (h' : t₁.MoreClasses t₂) : t.MoreClasses t₂ := by
  obtain ⟨k, hk⟩ := h
  obtain ⟨l, hl⟩ := h'
  exact ⟨k + l, by rw [hl, hk, Array.append_assoc, Array.replicate_append_replicate]⟩

/-- The number of classes. -/
theorem size_le (h : t.MoreClasses t₁) : t.classes.size ≤ t₁.classes.size := by
  obtain ⟨k, hk⟩ := h
  rw [hk, Array.size_append]
  exact Nat.le_add_right ..

/-- The classes have the members that they had. -/
theorem classBody_eq (h : t.MoreClasses t₁) (c : ClassRef) : t₁.classBody c = t.classBody c := by
  obtain ⟨k, hk⟩ := h
  unfold classBody
  rw [hk, Array.getElem?_append]
  split
  · rfl
  next hlt =>
    rw [Array.getElem?_eq_none (Nat.le_of_not_lt hlt), Array.getElem?_replicate]
    split <;> rfl

/-- The same classes have members. -/
theorem liveClasses_eq (h : t.MoreClasses t₁) : t₁.liveClasses = t.liveClasses := by
  obtain ⟨k, hk⟩ := h
  ext i
  rw [mem_liveClasses, mem_liveClasses, hk, Array.getElem?_append]
  split
  · rfl
  next hlt =>
    rw [Array.getElem?_eq_none (Nat.le_of_not_lt hlt), Array.getElem?_replicate]
    split <;> rfl

end SymbolTable.MoreClasses

/-- The second table has the same scopes, but for names and classes that are new in the innermost
one. There are new classes without members and new functions without bodies. -/
structure SymbolTable.Grows (t t₁ : SymbolTable) : Prop where
  outer : t₁.outer = t.outer
  kind : t₁.current.kind = t.current.kind
  bindings : ∃ new, t₁.current.bindings = new ++ t.current.bindings
  recorded : ∃ new, t₁.current.classes = t.current.classes ++ new ∧
    ∀ c ∈ new, t.classes.size ≤ c.id
  classes : t.MoreClasses t₁
  bodies : ∃ k, t₁.bodies = t.bodies ++ Array.replicate k none

/-- The second state has grown from the first one. -/
structure Checker.Grows (s s₁ : Checker) : Prop where
  symbols : s.symbols.Grows s₁.symbols
  resolutions : ∃ new, s₁.resolutions = s.resolutions ++ new
  returns : s₁.returns = s.returns
  loops : s₁.loops = s.loops
  switches : s₁.switches = s.switches
  suspended : s₁.suspended = s.suspended
  limit : s₁.limit = s.limit
  held : s₁.held = s.held

/-- Recording a class in a frame leaves its kind alone. -/
theorem Frame.record_kind (f : Frame) (c : ClassRef) : (f.record c).kind = f.kind := by
  unfold Frame.record
  split <;> rfl

/-- Recording a class leaves alone what there is, and what the innermost scope binds. -/
theorem SymbolTable.declareClass_rest (t : SymbolTable) (c : ClassRef) :
    (t.declareClass c).classes = t.classes ∧ (t.declareClass c).bodies = t.bodies ∧
      (t.declareClass c).current.bindings = t.current.bindings ∧
      (t.declareClass c).current.cls? = t.current.cls? := by
  unfold declareClass
  split
  · exact ⟨rfl, rfl, rfl, rfl⟩
  · refine ⟨rfl, rfl, t.current.record_bindings c, ?_⟩
    unfold Frame.cls?
    rw [Frame.record_kind]

/-- Making a class that belongs to some scope. -/
theorem SymbolTable.moreClasses_newClass (t : SymbolTable) (name : String) (c : ClassRef) :
    t.MoreClasses ((t.newClass name).2.declareClass c) :=
  ⟨1, by rw [(declareClass_rest ..).1]; simp [newClass]⟩

namespace SymbolTable.Grows

variable {t t₁ t₂ : SymbolTable}

/-- Nothing changes. -/
theorem refl (t : SymbolTable) : t.Grows t where
  outer := rfl
  kind := rfl
  bindings := ⟨[], rfl⟩
  recorded := ⟨[], (List.append_nil _).symm, fun _ hc => by cases hc⟩
  classes := .of_eq rfl
  bodies := ⟨0, by simp⟩

/-- One growth after another. -/
theorem trans (h : t.Grows t₁) (h' : t₁.Grows t₂) : t.Grows t₂ where
  outer := h'.outer.trans h.outer
  kind := h'.kind.trans h.kind
  bindings := by
    obtain ⟨new, hnew⟩ := h.bindings
    obtain ⟨new', hnew'⟩ := h'.bindings
    exact ⟨new' ++ new, by rw [hnew', hnew, List.append_assoc]⟩
  recorded := by
    obtain ⟨new, hnew, hsize⟩ := h.recorded
    obtain ⟨new', hnew', hsize'⟩ := h'.recorded
    refine ⟨new ++ new', by rw [hnew', hnew, List.append_assoc], fun c hc => ?_⟩
    rcases List.mem_append.mp hc with hc | hc
    · exact hsize c hc
    · exact h.classes.size_le.trans (hsize' c hc)
  classes := h.classes.trans h'.classes
  bodies := by
    obtain ⟨k, hk⟩ := h.bodies
    obtain ⟨l, hl⟩ := h'.bodies
    exact ⟨k + l, by rw [hl, hk, Array.append_assoc, Array.replicate_append_replicate]⟩

/-- The same functions have bodies. -/
theorem liveBodies_eq (h : t.Grows t₁) : t₁.liveBodies = t.liveBodies := by
  obtain ⟨k, hk⟩ := h.bodies
  ext i
  rw [mem_liveBodies, mem_liveBodies, hk, join_append_none]

/-- What the innermost scope mentions is still mentioned. -/
theorem mentions_current (h : t.Grows t₁) {x : Nat ⊕ Nat} (hx : t.current.mentions.Has x) :
    t₁.current.mentions.Has x := by
  obtain ⟨new, hnew⟩ := h.bindings
  obtain ⟨new', hnew', -⟩ := h.recorded
  have hcls : t₁.current.cls? = t.current.cls? := by
    unfold Frame.cls?
    rw [h.kind]
  unfold Frame.mentions Bindings.mentions at hx ⊢
  rw [hnew, hnew', hcls]
  simp only [Mentions.has_append, Mentions.has_ofList, List.mem_append] at hx ⊢
  rcases hx with (⟨entry, hentry, hx⟩ | ⟨c, hc, hx⟩) | hx
  · exact .inl (.inl ⟨entry, .inr hentry, hx⟩)
  · exact .inl (.inr ⟨c, .inl hc, hx⟩)
  · exact .inr hx

/-- What the table mentions is still mentioned. -/
theorem mentions (h : t.Grows t₁) {x : Nat ⊕ Nat} (hx : t.mentions.Has x) : t₁.mentions.Has x := by
  obtain ⟨k, hk⟩ := h.classes
  obtain ⟨l, hl⟩ := h.bodies
  rw [has_mentions] at hx ⊢
  unfold SymbolTable.frames at hx ⊢
  rcases hx with ⟨f, hf, hx⟩ | ⟨b, hb, hx⟩ | ⟨f, ⟨i, hi⟩, hx⟩
  · rcases List.mem_cons.mp hf with rfl | hf
    · exact .inl ⟨_, List.mem_cons_self, h.mentions_current hx⟩
    · exact .inl ⟨f, List.mem_cons_of_mem _ (h.outer ▸ hf), hx⟩
  · rw [hk]
    exact .inr (.inl ⟨b, Array.mem_append_left _ hb, hx⟩)
  · refine .inr (.inr ⟨f, ⟨i, ?_⟩, hx⟩)
    rwa [hl, join_append_none]

/-- A new class that belongs to the innermost scope. -/
theorem withClass (t : SymbolTable) (name : String) :
    t.Grows { t with
      classes := t.classes.push {}
      current := t.current.record ⟨t.classes.size, name⟩ } where
  outer := rfl
  kind := t.current.record_kind _
  bindings := ⟨[], t.current.record_bindings _⟩
  recorded := by
    unfold Frame.record
    split
    · exact (refl t).recorded
    · refine ⟨[⟨t.classes.size, name⟩], rfl, fun c hc => ?_⟩
      rw [List.mem_singleton.mp hc]
  classes := ⟨1, by simp⟩
  bodies := (refl t).bodies

end SymbolTable.Grows

namespace Checker.Grows

variable {s s₁ s₂ : Checker}

/-- Nothing changes. -/
theorem refl (s : Checker) : s.Grows s :=
  ⟨.refl _, ⟨[], (List.append_nil _).symm⟩, rfl, rfl, rfl, rfl, rfl, rfl⟩

/-- Only the table grows. -/
theorem of_symbols {t : SymbolTable} (h : s.symbols.Grows t) : s.Grows { s with symbols := t } :=
  { refl s with symbols := h }

/-- One growth after another. -/
theorem trans (h : s.Grows s₁) (h' : s₁.Grows s₂) : s.Grows s₂ where
  symbols := h.symbols.trans h'.symbols
  resolutions := by
    obtain ⟨new, hnew⟩ := h.resolutions
    obtain ⟨new', hnew'⟩ := h'.resolutions
    exact ⟨new ++ new', by rw [hnew', hnew, List.append_assoc]⟩
  returns := h'.returns.trans h.returns
  loops := h'.loops.trans h.loops
  switches := h'.switches.trans h.switches
  suspended := h'.suspended.trans h.suspended
  limit := h'.limit.trans h.limit
  held := h'.held.trans h.held

/-- What the state mentions beside its table is still mentioned. -/
theorem mentions (h : s.Grows s₁) {x : Nat ⊕ Nat} (hx : s.mentions.Has x) : s₁.mentions.Has x := by
  obtain ⟨new, hnew⟩ := h.resolutions
  unfold Checker.mentions at hx ⊢
  rw [h.held, hnew, h.returns]
  simp only [Mentions.has_append, Mentions.has_ofList, List.mem_append] at hx ⊢
  rcases hx with (hx | ⟨r, hr, hx⟩) | hx
  · exact .inl (.inl hx)
  · exact .inl (.inr ⟨r, .inl hr, hx⟩)
  · exact .inr hx

/-- What is mentioned is still mentioned. -/
theorem allMentions (h : s.Grows s₁) (x : Nat ⊕ Nat) (hx : s.allMentions.Has x) :
    s₁.allMentions.Has x :=
  allMentions_imp h.mentions h.symbols.mentions hx

/-- A state in which there is nothing to let go stays like this. -/
theorem settled (h : s.Grows s₁) (hs : s.Settled) : s₁.Settled :=
  hs.mono (fun _ hi => .inl (h.symbols.liveBodies_eq ▸ hi))
    (fun _ hi => .inl (h.symbols.classes.liveClasses_eq ▸ hi)) h.allMentions

end Checker.Grows

/-! ### Blocks -/

/-- A frame whose classes have no members is let go without a change. -/
theorem SymbolTable.discard_eq {t : SymbolTable} {f : Frame}
    (h : ∀ c ∈ f.classes, ∀ b, t.classes[c.id]? = some b → b.clear = b) : t.discard f = t := by
  have hclear : ∀ c ∈ f.classes, t.clear c = t := by
    intro c hc
    have hclasses : t.classes.modify c.id ClassBody.clear = t.classes := by
      refine Array.ext_getElem? fun i => ?_
      rw [Array.getElem?_modify]
      split
      next heq =>
        subst heq
        cases hb : t.classes[c.id]? with
        | none => rfl
        | some b => exact congrArg some (h c hc b hb)
      next => rfl
    unfold clear modifyClass
    rw [hclasses]
  unfold discard
  generalize f.classes = classes at hclear
  induction classes with
  | nil => rfl
  | cons c rest ih =>
    rw [List.foldl_cons, hclear c List.mem_cons_self]
    exact ih fun c hc => hclear c (List.mem_cons_of_mem _ hc)

namespace Checker

/-- Letting go of such a frame changes nothing if there is nothing else to let go. -/
theorem Settled.discard_eq {s : Checker} {f : Frame} (h : s.Settled)
    (hf : s.symbols.discard f = s.symbols) : s.discard f = s := by
  unfold discard
  rw [hf]
  exact h.reclaim_eq

variable {s s₂ : Checker} {kind : FrameKind}

/-- What is mentioned is still mentioned in a scope that is opened. -/
theorem allMentions_opened {x : Nat ⊕ Nat} (hx : s.allMentions.Has x) (kind : FrameKind) :
    (s.opened kind).allMentions.Has x := by
  refine allMentions_imp (s := s) id (fun hx => ?_) hx
  change (s.symbols.push kind).mentions.Has x
  rw [SymbolTable.has_mentions] at hx ⊢
  exact hx.imp_left fun ⟨f, hf, hx⟩ => ⟨f, List.mem_cons_of_mem _ hf, hx⟩

/-- Opening a scope leaves nothing to let go. -/
theorem Settled.opened (h : s.Settled) (kind : FrameKind) : (s.opened kind).Settled :=
  h.mono (fun _ => .inl) (fun _ => .inl) fun _ hx => allMentions_opened hx kind

/-- What is mentioned is still mentioned in a function that is entered. -/
theorem allMentions_enterFunction {x : Nat ⊕ Nat} (hx : s.allMentions.Has x) (result : Ty) :
    (s.enterFunction result).allMentions.Has x := by
  refine allMentions_imp (s := s) (fun hx => ?_) id hx
  unfold Checker.mentions at hx ⊢
  rw [Mentions.has_append, Mentions.has_ofList] at hx ⊢
  exact hx.imp_right fun ⟨ty, hty, hx⟩ => ⟨ty, List.mem_cons_of_mem _ hty, hx⟩

/-- Entering a function leaves nothing to let go. -/
theorem Settled.enterFunction (h : s.Settled) (result : Ty) : (s.enterFunction result).Settled :=
  h.mono (fun _ => .inl) (fun _ => .inl) fun _ hx => allMentions_enterFunction hx result

/-- The table after a scope was closed that was opened in the first state. -/
def closedTable (s s₂ : Checker) : SymbolTable :=
  { s.symbols with classes := s₂.symbols.classes, bodies := s₂.symbols.bodies }

/-- After a scope was closed, the state has grown. -/
theorem Grows.close (h : (s.opened kind).Grows s₂) (log : List Event) :
    s.Grows { s₂ with symbols := s.closedTable s₂, log } :=
  { h with
    symbols := { SymbolTable.Grows.refl s.symbols with
      classes := h.symbols.classes
      bodies := h.symbols.bodies } }

/-- The scope that was opened is the innermost one. -/
theorem Grows.pop?_eq (h : (s.opened kind).Grows s₂) :
    s₂.symbols.pop? = some (s₂.symbols.current, s.closedTable s₂) := by
  unfold SymbolTable.pop?
  rw [h.symbols.outer]
  rfl

/-- The classes that were declared in a scope have no members, so nothing is lost when it goes. -/
theorem Grows.discard_eq (h : (s.opened kind).Grows s₂) :
    (s.closedTable s₂).discard s₂.symbols.current = s.closedTable s₂ := by
  obtain ⟨new, hnew, hsize⟩ := h.symbols.recorded
  obtain ⟨k, hk⟩ := h.symbols.classes
  refine SymbolTable.discard_eq fun c hc b hb => ?_
  have hle : s.symbols.classes.size ≤ c.id := by
    rw [hnew] at hc
    exact hsize c hc
  change s₂.symbols.classes[c.id]? = some b at hb
  rw [hk] at hb
  change (s.symbols.classes ++ _)[c.id]? = some b at hb
  rw [Array.getElem?_append_right hle, Array.getElem?_replicate] at hb
  split at hb <;> cases hb
  rfl

/-- Closing a scope for good in which a state has grown. -/
theorem Grows.dropScope_eq (h : (s.opened kind).Grows s₂) (hs : s.Settled) :
    ∃ log, dropScope s₂ = .ok () { s₂ with symbols := s.closedTable s₂, log } := by
  refine ⟨s₂.log ++ [.poppedScope (s.closedTable s₂).depth], ?_⟩
  have hsettled := (h.close (s₂.log ++ [.poppedScope (s.closedTable s₂).depth])).settled hs
  unfold dropScope
  rw [bind_ok (popScope_eq h.pop?_eq)]
  exact congrArg (EStateM.Result.ok ()) (hsettled.discard_eq h.discard_eq)

end Checker

end CWithClasses
