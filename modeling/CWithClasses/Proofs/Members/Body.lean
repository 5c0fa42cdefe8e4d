import CWithClasses.Proofs.Bindings
import CWithClasses.Proofs.Members.Declare
import CWithClasses.Proofs.Members.Matching

/-!
# Bodies of methods

The body of a method is checked in a scope of its own, which the function then keeps. Around it,
nothing has changed but that the function has a body: `Checker.Attached` says so. In states that
match, the same is reported for a body, whichever other bodies have been checked before.
-/

namespace CWithClasses

open Check

/-! ### Functions that have got a body -/

/-- The second state is the first one after some functions have got bodies, given by their numbers.
More may have been made and mentioned inside of these bodies. -/
structure Checker.Attached (s : Checker) (ids : List Nat) (s₁ : Checker) : Prop where
  current : s₁.symbols.current = s.symbols.current
  outer : s₁.symbols.outer = s.symbols.outer
  classes : s.symbols.MoreClasses s₁.symbols
  size : s.symbols.bodies.size ≤ s₁.symbols.bodies.size
  live : ∀ i, i ∈ s₁.symbols.liveBodies ↔ i ∈ s.symbols.liveBodies ∨ i ∈ ids
  mentions : ∀ x, s.allMentions.Has x → s₁.allMentions.Has x
  returns : s₁.returns = s.returns
  loops : s₁.loops = s.loops
  switches : s₁.switches = s.switches
  limit : s₁.limit = s.limit

namespace Checker.Attached

variable {s s₁ s₂ : Checker} {ids ids' : List Nat}

/-- No function has got a body. -/
theorem refl (s : Checker) : s.Attached [] s :=
  ⟨rfl, rfl, .of_eq rfl, le_rfl, fun _ => by simp, fun _ hx => hx, rfl, rfl, rfl, rfl⟩

/-- Some functions after others. -/
theorem trans (h : s.Attached ids s₁) (h' : s₁.Attached ids' s₂) : s.Attached (ids ++ ids') s₂ where
  current := h'.current.trans h.current
  outer := h'.outer.trans h.outer
  classes := h.classes.trans h'.classes
  size := h.size.trans h'.size
  live i := by rw [h'.live, h.live, List.mem_append, or_assoc]
  mentions x hx := h'.mentions x (h.mentions x hx)
  returns := h'.returns.trans h.returns
  loops := h'.loops.trans h.loops
  switches := h'.switches.trans h.switches
  limit := h'.limit.trans h.limit

/-- If the functions are mentioned, there is still nothing to let go. -/
theorem settled (h : s.Attached ids s₁) (hs : s.Settled)
    (hids : ∀ i ∈ ids, s.allMentions.Has (.inl i)) : s₁.Settled := by
  refine hs.mono (fun i hi => ?_) (fun i hi => .inl (h.classes.liveClasses_eq ▸ hi)) h.mentions
  exact ((h.live i).mp hi).imp_right fun hi => h.mentions _ (hids i hi)

end Checker.Attached

/-- A function that gets a body takes nothing away from what is mentioned. -/
theorem SymbolTable.mentions_define {t t₁ : SymbolTable} {f : FunctionTy} {body : Frame}
    (h : t.define? f body = some t₁) {x : Nat ⊕ Nat} (hx : t.mentions.Has x) :
    t₁.mentions.Has x := by
  obtain ⟨hfree, hframes, hclasses, -⟩ := define?_rest h
  rw [has_mentions] at hx ⊢
  rw [hframes, hclasses]
  refine hx.imp_right (Or.imp_right ?_)
  rintro ⟨g, ⟨i, hi⟩, hx⟩
  refine ⟨g, ⟨i, ?_⟩, hx⟩
  change t.body? { f with id := i } = some g at hi
  change t₁.body? { f with id := i } = some g
  rw [body?_define h]
  split
  next heq =>
    have hsame : t.body? { f with id := i } = t.body? f := by
      unfold body?
      rw [show ({ f with id := i } : FunctionTy).id = f.id from heq]
    rw [hsame, hfree] at hi
    cases hi
  next => exact hi

namespace Checker.Grows

variable {s s₂ : Checker} {b : FunctionBody}

/-- The scope of a body that was checked goes to its function. If the function already has a body,
the scope is let go. -/
theorem attach (h : (s.opened .function).Grows s₂) (hs : s.Settled) (hb : b.attach = true)
    (f : FunctionTy) (log : List Event) :
    ∃ s₁, b.attachScope f (some s₂.symbols.current) { s₂ with symbols := s.closedTable s₂, log } =
      .ok () s₁ ∧ s.Attached [f.id] s₁ ∧ s₁.diagnostics = s₂.diagnostics := by
  have hgrows := h.close log
  have hsettled := hgrows.settled hs
  generalize hclosed : ({ s₂ with symbols := s.closedTable s₂, log } : Checker) =
    s₁ at hgrows hsettled ⊢
  have hcurrent : s₁.symbols.current = s.symbols.current := by rw [← hclosed]; rfl
  have hdiscard : s₁.symbols.discard s₂.symbols.current = s₁.symbols := by
    rw [← hclosed]
    exact h.discard_eq
  have hdiagnostics : s₁.diagnostics = s₂.diagnostics := by rw [← hclosed]
  have hmentions := hgrows.allMentions
  have hsize : s.symbols.bodies.size ≤ s₁.symbols.bodies.size := by
    obtain ⟨k, hk⟩ := hgrows.symbols.bodies
    rw [hk, Array.size_append]
    exact Nat.le_add_right ..
  unfold FunctionBody.attachScope
  rw [hb]
  dsimp only
  rw [bind_symbols]
  cases hdefine : s₁.symbols.define? f s₂.symbols.current with
  | none =>
    have hlive : f.id ∈ s₁.symbols.liveBodies := by
      rw [SymbolTable.mem_liveBodies]
      exact SymbolTable.isSome_of_define? hdefine
    have hkept : Check.discard (some s₂.symbols.current) s₁ = .ok () s₁ :=
      congrArg (EStateM.Result.ok ()) (hsettled.discard_eq hdiscard)
    refine ⟨s₁.logged (.alreadyDefined b.name), ?_, ?_, hdiagnostics⟩
    · dsimp only
      rw [bind_ok hkept]
      rfl
    · refine ⟨hcurrent, hgrows.symbols.outer, hgrows.symbols.classes, hsize, fun i => ?_, hmentions,
        hgrows.returns, hgrows.loops, hgrows.switches, hgrows.limit⟩
      change i ∈ s₁.symbols.liveBodies ↔ _
      rw [hgrows.symbols.liveBodies_eq] at hlive ⊢
      simp only [List.mem_singleton]
      exact ⟨.inl, fun hi => hi.elim id fun heq => heq ▸ hlive⟩
  | some t =>
    obtain ⟨-, hframes, hclasses', hsize'⟩ := SymbolTable.define?_rest hdefine
    obtain ⟨hcurrent', houter'⟩ := List.cons.inj hframes
    refine ⟨{ s₁ with symbols := t }, rfl, ?_, hdiagnostics⟩
    refine ⟨hcurrent'.trans hcurrent, houter'.trans hgrows.symbols.outer,
      hgrows.symbols.classes.trans (.of_eq hclasses'), hsize.trans hsize',
      fun i => ?_, fun x hx => ?_, hgrows.returns, hgrows.loops, hgrows.switches, hgrows.limit⟩
    · rw [← hgrows.symbols.liveBodies_eq, SymbolTable.mem_liveBodies, SymbolTable.mem_liveBodies]
      change (t.body? { f with id := i }).isSome = true ↔
        (s₁.symbols.body? { f with id := i }).isSome = true ∨ _
      rw [SymbolTable.body?_define hdefine, List.mem_singleton]
      split
      next heq => exact iff_of_true rfl (.inr heq)
      next hne => exact (or_iff_left hne).symm
    · exact allMentions_imp (s := s₁) id (SymbolTable.mentions_define hdefine) (hmentions x hx)

end Checker.Grows

namespace FunctionBody.Inline

variable {s s₁ : Checker} {b : FunctionBody} {E : Effect} {f : FunctionTy}

/-- The body of a method, if all goes well inside of it. -/
theorem check_ok (hb : b.Inline E) (hf : b.ty.asFunction? = some f) (hs : s.Settled)
    (hgrows : (s.opened .function).Grows s₁)
    (hrun : b.checkStatements f (s.opened .function) = .ok () s₁) :
    ∃ s₂, b.check s = .ok () s₂ ∧ s.Attached [f.id] s₂ ∧ s₂.diagnostics = s₁.diagnostics := by
  have hscope : b.scope f s = .ok (some s₁.symbols.current) { s₁ with
      symbols := s.closedTable s₁, log := s₁.log ++ [.poppedScope (s.closedTable s₁).depth] } := by
    unfold FunctionBody.scope
    rw [hb.cls]
    dsimp only
    rw [bind_ok (bracket_ok hrun hgrows.pop?_eq)]
    rfl
  obtain ⟨s₂, hattach, h, hreports⟩ := hgrows.attach hs hb.attach f
    (s₁.log ++ [.poppedScope (s.closedTable s₁).depth])
  refine ⟨s₂.logged (.definedFunction b.name b.ty), ?_, ?_, hreports⟩
  · rw [FunctionBody.check_eq hf, bind_ok hscope, bind_ok hattach]
    rfl
  · exact ⟨h.current, h.outer, h.classes, h.size, h.live, h.mentions, h.returns,
      h.loops, h.switches, h.limit⟩

/-- A fault inside of the body of a method. -/
theorem check_error {e : Fault} (hb : b.Inline E) (hf : b.ty.asFunction? = some f)
    (hrun : b.checkStatements f (s.opened .function) = .error e s₁) : b.check s = .error e s₁ := by
  have hscope : b.scope f s = .error e s₁ := by
    unfold FunctionBody.scope
    rw [hb.cls]
    dsimp only
    rw [bind_error (bracket_error hrun)]
  rw [FunctionBody.check_eq hf, bind_error hscope]

end FunctionBody.Inline

/-! ### Bodies in states that match -/

namespace Renaming

open Checker RunningPairs

variable {σ : Renaming} {s s' : Checker} {b : FunctionBody} {E : Effect}

/-- A step inside of a function. -/
theorem inFunction (result : Ty) {x y : Check Unit} (h : σ.rules.pair x y fun _ _ => True) :
    σ.rules.pair (Check.inFunction result x) (Check.inFunction (result.rename σ) y)
      fun _ _ => True := by
  intro s s' hm hs
  have hleave : ∀ {s s₂ : Checker} {result : Ty}, (s.enterFunction result).Grows s₂ →
      s.Grows s₂.leaveFunction := by
    intro s s₂ result h
    have hsuspended : s₂.suspended = (s.loops, s.switches) :: s.suspended := h.suspended
    refine ⟨h.symbols, h.resolutions, ?_, ?_, ?_, ?_, h.limit, h.held⟩
    · exact congrArg List.tail h.returns
    · change (s₂.suspended.headD (0, 0)).1 = _
      rw [hsuspended]
      rfl
    · change (s₂.suspended.headD (0, 0)).2 = _
      rw [hsuspended]
      rfl
    · exact congrArg List.tail hsuspended
  have hentered : (s.enterFunction result).Matches σ (s'.enterFunction (result.rename σ)) :=
    ⟨hm.seen, ⟨rfl, rfl, .cons rfl hm.around.returns⟩, hm.nextClass,
      hm.nextFunction, hm.limits, hm.settled.1.enterFunction _, hm.settled.2.enterFunction _⟩
  have hends := h _ _ hentered hs
  have henter : ∀ (s : Checker) (result : Ty),
      (modify (·.enterFunction result) : Check Unit) s = .ok () (s.enterFunction result) :=
    fun _ _ => rfl
  unfold Check.inFunction
  rw [bind_ok (henter s result), bind_ok (henter s' _)]
  generalize hx : x (s.enterFunction result) = r at hends
  generalize hy : y (s'.enterFunction (result.rename σ)) = r' at hends
  cases hends with
  | error =>
    rw [bind_error hx, bind_error hy]
    exact .error
  | ok h₁ _ =>
    rw [bind_ok hx, bind_ok hy]
    refine .ok ⟨hleave h₁.left, hleave h₁.right, ?_, h₁.reports⟩ trivial
    exact hm.grow (hleave h₁.left) (hleave h₁.right) h₁.after.seen.current h₁.after.nextClass
      h₁.after.nextFunction

/-- A tree in which nothing is defined runs alike. -/
theorem runs {n : Node} (hn : n.definesNothing = true) :
    n.phrase.Throughout (Phrase.Runs σ.running) := by
  unfold Node.definesNothing at hn
  rw [List.all_eq_true] at hn
  refine Node.throughout_phrase fun m hm hparts => ?_
  have hnot := hn m hm
  simp only [Bool.and_eq_true, bne_iff_ne] at hnot
  refine Node.runs hparts (fun _ _ _ _ => List.not_mem_nil) (fun hrule => ?_) ?_
  · exact absurd hrule hnot.1.1
  · rintro (hrule | hrule)
    · exact absurd hrule hnot.1.2
    · exact absurd hrule hnot.2

/-- What the body of a method does, inside its scope. -/
theorem checkStatements (hb : b.Inline E) (f : FunctionTy) :
    σ.rules.pair (b.checkStatements f) ((b.rename σ).checkStatements (f.rename σ))
      fun _ _ => True := by
  rw [b.checkStatements_eq, (b.rename σ).checkStatements_eq]
  have hparameters : List.Forall₂ (Parameter.Alike σ.view) b.parameters
      (b.rename σ).parameters := by
    change List.Forall₂ _ b.parameters (b.parameters.map _)
    rw [List.forall₂_map_right_iff]
    exact List.forall₂_same.mpr fun p _ =>
      ⟨rfl, rfl, rfl, fun _ _ => ⟨List.not_mem_nil, fun _ _ => List.not_mem_nil⟩⟩
  refine σ.rules.seq (bindParameters (L := σ.running) hparameters f.params) fun _ _ _ => ?_
  refine inFunction f.result ?_
  change σ.rules.pair b.run b.run _
  obtain ⟨n, hn, hbody⟩ := hb.body
  have hblock : σ.rules.pair b.body.functionBlock b.body.functionBlock fun _ _ => True := by
    rw [hbody]
    exact functionBlock (L := σ.running) (runs hn)
  unfold FunctionBody.run
  cases hinit : b.ctorInit with
  | none => exact hblock
  | some init =>
    obtain ⟨m, hm, rfl⟩ := hb.ctorInit init hinit
    exact σ.rules.seq (ctorInit (L := σ.running) (runs hm)) fun _ _ _ => hblock

/-- Checking the body of a method in states that match: the same is reported, or the same fault is
met. -/
theorem check (hb : b.Inline E) {f : FunctionTy} (hf : b.ty.asFunction? = some f)
    (hm : s.Matches σ s') :
    (∃ s₁ s₁' new, b.check s = .ok () s₁ ∧ (b.rename σ).check s' = .ok () s₁' ∧
      s.Attached [f.id] s₁ ∧ s'.Attached [σ.fn f.id] s₁' ∧
      s₁.diagnostics = s.diagnostics ++ new ∧ s₁'.diagnostics = s'.diagnostics ++ new) ∨
    ∃ e s₁ s₁', b.check s = .error e s₁ ∧ (b.rename σ).check s' = .error e s₁' := by
  have hf' : (b.rename σ).ty.asFunction? = some (f.rename σ) := by
    change (b.ty.rename σ).asFunction? = _
    rw [Ty.asFunction?_rename, hf]
    rfl
  have hends := checkStatements (σ := σ) hb f _ _ (hm.opened .function rfl) rfl
  generalize hx : b.checkStatements f (s.opened .function) = r at hends
  generalize hy : (b.rename σ).checkStatements (f.rename σ) (s'.opened .function) = r' at hends
  cases hends with
  | @error e s₁ s₁' =>
    exact .inr ⟨e, s₁, s₁', hb.check_error hf hx, (hb.rename σ).check_error hf' hy⟩
  | ok h₂ _ =>
    obtain ⟨s₁, hrun, hattached, hreports⟩ := hb.check_ok hf hm.settled.1 h₂.left hx
    obtain ⟨s₁', hrun', hattached', hreports'⟩ :=
      (hb.rename σ).check_ok hf' hm.settled.2 h₂.right hy
    obtain ⟨new, hnew, hnew'⟩ := h₂.reports
    exact .inl ⟨s₁, s₁', new, hrun, hrun', hattached, hattached', hreports.trans hnew,
      hreports'.trans hnew'⟩

end Renaming

end CWithClasses
