import CWithClasses.Proofs.Members.Growth

/-!
# Two runs in states that match

Two states match if they are seen alike and will number what is made next alike. Then the same
statements lead to states that match again, as long as they define nothing: both states have grown,
and the same was reported. `Renaming.running` shows this for all statements.
-/

namespace CWithClasses

open Check

namespace Checker

variable {σ : Renaming} {s s' s₁ s₁' s₂ s₂' : Checker}

/-- States that are seen alike, in which the next classes and functions get their new numbers, and
in which there is nothing to let go. The number of reports is not limited. -/
structure Matches (σ : Renaming) (s s' : Checker) : Prop where
  seen : s.symbols.Seen σ.view s'.symbols
  around : s.Encloses σ.view.ty s'
  nextClass : ∀ k, σ.cls (s.symbols.classes.size + k) = s'.symbols.classes.size + k
  nextFunction : ∀ k, σ.fn (s.symbols.bodies.size + k) = s'.symbols.bodies.size + k
  limits : s.limit = none ∧ s'.limit = none
  settled : s.Settled ∧ s'.Settled

/-- Both states have grown to states that match, and the same was reported. -/
structure Follows (σ : Renaming) (s s' s₁ s₁' : Checker) : Prop where
  left : s.Grows s₁
  right : s'.Grows s₁'
  after : s₁.Matches σ s₁'
  reports : ∃ new, s₁.diagnostics = s.diagnostics ++ new ∧ s₁'.diagnostics = s'.diagnostics ++ new

namespace Matches

/-- States that have grown in the same way match again. -/
theorem grow (h : s.Matches σ s') (hs : s.Grows s₁) (hs' : s'.Grows s₁')
    (hcurrent : s₁.symbols.current.Seen σ.view s₁'.symbols.current)
    (hclass : ∀ k, σ.cls (s₁.symbols.classes.size + k) = s₁'.symbols.classes.size + k)
    (hfunction : ∀ k, σ.fn (s₁.symbols.bodies.size + k) = s₁'.symbols.bodies.size + k) :
    s₁.Matches σ s₁' where
  seen := by
    refine ⟨?_, fun c => ?_, fun _ _ => not_false⟩
    · have hframes := h.seen.frames
      unfold SymbolTable.frames at hframes ⊢
      rw [hs.symbols.outer, hs'.symbols.outer]
      cases hframes with
      | cons _ houter => exact .cons hcurrent houter
    · rw [hs.symbols.classes.classBody_eq, hs'.symbols.classes.classBody_eq]
      exact h.seen.classBody c
  around := by
    refine ⟨?_, ?_, ?_⟩
    · rw [hs.loops, hs'.loops, h.around.loops]
    · rw [hs.switches, hs'.switches, h.around.switches]
    · rw [hs.returns, hs'.returns]
      exact h.around.returns
  nextClass := hclass
  nextFunction := hfunction
  limits := ⟨hs.limit.trans h.limits.1, hs'.limit.trans h.limits.2⟩
  settled := ⟨hs.settled h.settled.1, hs'.settled h.settled.2⟩

/-- Opening a scope in both states. -/
theorem opened (h : s.Matches σ s') (kind : FrameKind) (hkind : kind.rename σ = kind) :
    (s.opened kind).Matches σ (s'.opened kind) where
  seen := ⟨.cons ⟨hkind.symm, fun _ _ => rfl⟩ h.seen.frames, h.seen.classBody, fun _ _ => not_false⟩
  around := ⟨h.around.loops, h.around.switches, h.around.returns⟩
  nextClass := h.nextClass
  nextFunction := h.nextFunction
  limits := h.limits
  settled := ⟨h.settled.1.opened kind, h.settled.2.opened kind⟩

end Matches

namespace Follows

/-- Nothing happens. -/
theorem refl (h : s.Matches σ s') : Follows σ s s' s s' :=
  ⟨.refl s, .refl s', h, [], (List.append_nil _).symm, (List.append_nil _).symm⟩

/-- One step after another. -/
theorem trans (h : Follows σ s s' s₁ s₁') (h' : Follows σ s₁ s₁' s₂ s₂') :
    Follows σ s s' s₂ s₂' := by
  obtain ⟨new, hnew, hnew'⟩ := h.reports
  obtain ⟨more, hmore, hmore'⟩ := h'.reports
  refine ⟨h.left.trans h'.left, h.right.trans h'.right, h'.after, new ++ more, ?_, ?_⟩
  · rw [hmore, hnew, List.append_assoc]
  · rw [hmore', hnew', List.append_assoc]

/-- Closing the scopes that were opened. -/
theorem close (h : s.Matches σ s') {kind : FrameKind}
    (h₂ : Follows σ (s.opened kind) (s'.opened kind) s₂ s₂') (log log' : List Event) :
    Follows σ s s' { s₂ with symbols := s.closedTable s₂, log }
      { s₂' with symbols := s'.closedTable s₂', log := log' } where
  left := h₂.left.close log
  right := h₂.right.close log'
  after := h.grow (h₂.left.close log) (h₂.right.close log') h.seen.current h₂.after.nextClass
    h₂.after.nextFunction
  reports := h₂.reports

end Follows

/-! ### Loops and switches -/

/-- Going into loops and switches and out of them again. -/
theorem Grows.unnested {loops switches : Nat} (h : (s.nested loops switches).Grows s₁) :
    s.Grows (s₁.unnested loops switches) :=
  { h with
    loops := by
      change s₁.loops - loops = s.loops
      rw [h.loops]
      exact Nat.add_sub_cancel ..
    switches := by
      change s₁.switches - switches = s.switches
      rw [h.switches]
      exact Nat.add_sub_cancel .. }

end Checker

/-! ### Pairs of steps -/

namespace Renaming

open Checker

variable {σ : Renaming} {α β : Type} {R : α → β → Prop}

/-- Two runs follow one another to related results, or meet the same fault. -/
inductive Ends (σ : Renaming) (s s' : Checker) {α β : Type} (R : α → β → Prop) :
    EStateM.Result Fault Checker α → EStateM.Result Fault Checker β → Prop
  | ok {a : α} {b : β} {s₁ s₁' : Checker} (h : Follows σ s s' s₁ s₁') (hab : R a b) :
      Ends σ s s' R (.ok a s₁) (.ok b s₁')
  | error {e : Fault} {s₁ s₁' : Checker} : Ends σ s s' R (.error e s₁) (.error e s₁')

/-- Steps in states that match, outside of class bodies. -/
def rules (σ : Renaming) : PairRules where
  pair x y R := ∀ s s', s.Matches σ s' → s.symbols.current.isClassBody = false →
    σ.Ends s s' R (x s) (y s')
  ret hab := fun _ _ h _ => .ok (.refl h) hab
  seq := by
    intro α β γ δ x y f g P Q hx hf s s' h hs
    have hends := hx s s' h hs
    change σ.Ends s s' Q (EStateM.bind x f s) (EStateM.bind y g s')
    unfold EStateM.bind
    generalize x s = r at hends
    generalize y s' = r' at hends
    cases hends with
    | @ok a b s₁ s₁' h₁ hab =>
      have hs₁ : s₁.symbols.current.isClassBody = false := by
        unfold Frame.isClassBody Frame.cls? at hs ⊢
        rwa [h₁.left.symbols.kind]
      have hrest := hf a b hab s₁ s₁' h₁.after hs₁
      dsimp only
      generalize f a s₁ = r at hrest
      generalize g b s₁' = r' at hrest
      cases hrest with
      | ok h₂ hcd => exact .ok (h₁.trans h₂) hcd
      | error => exact .error
    | error => exact .error
  fault _ := fun _ _ _ _ => .error

/-- Reading the tables. -/
theorem symbols {k : SymbolTable → Check α} {k' : SymbolTable → Check β}
    (hk : ∀ t u, t.Seen σ.view u → σ.rules.pair (k t) (k' u) R) :
    σ.rules.pair (Check.symbols >>= k) (Check.symbols >>= k') R :=
  fun s s' h hs => hk s.symbols s'.symbols h.seen s s' h hs

/-- Reading the states. -/
theorem read {k : Checker → Check α} {k' : Checker → Check β}
    (hk : ∀ s s', s.Encloses σ.view.ty s' → σ.rules.pair (k s) (k' s') R) :
    σ.rules.pair (get >>= k) (get >>= k') R :=
  fun s s' h hs => hk s s' h.around s s' h hs

/-- Writing to the logs. -/
theorem log (e e' : Event) : σ.rules.pair (Check.log e) (Check.log e') fun _ _ => True := by
  intro s s' h _
  have hlog : ∀ (s : Checker) (e : Event), s.Grows (s.logged e) := fun s _ =>
    { Grows.refl s with }
  refine .ok ⟨hlog s e, hlog s' e', ?_, [], ?_, ?_⟩ trivial
  · exact h.grow (hlog s e) (hlog s' e') h.seen.current h.nextClass h.nextFunction
  · exact (List.append_nil _).symm
  · exact (List.append_nil _).symm

/-- Recording a problem. -/
theorem report (e : Problem) (position : Position) :
    σ.rules.pair (Check.report e position) (Check.report e position) fun _ _ => True := by
  intro s s' h _
  have hgrows : ∀ {s : Checker}, s.limit = none →
      s.Grows (s.reported ⟨e, position⟩) ∧
        (s.reported ⟨e, position⟩).symbols = s.symbols ∧
        (s.reported ⟨e, position⟩).diagnostics = s.diagnostics ++ [⟨e, position⟩] := by
    intro s hlimit
    rw [reported_eq hlimit]
    exact ⟨{ Grows.refl s with }, rfl, rfl⟩
  obtain ⟨hgrows₁, hsymbols, hreports⟩ := hgrows h.limits.1
  obtain ⟨hgrows₁', hsymbols', hreports'⟩ := hgrows h.limits.2
  refine .ok ⟨hgrows₁, hgrows₁', h.grow hgrows₁ hgrows₁' ?_ ?_ ?_, _, hreports, hreports'⟩ trivial
  · rw [hsymbols, hsymbols']
    exact h.seen.current
  · rw [hsymbols, hsymbols']
    exact h.nextClass
  · rw [hsymbols, hsymbols']
    exact h.nextFunction

/-- Recording the use of a name. -/
theorem resolve (name : String) (position : Position) (ty : Ty) :
    σ.rules.pair (Check.resolve name position ty)
      (Check.resolve name position (ty.rename σ)) fun _ _ => True := by
  intro s s' h _
  have hgrows : ∀ (s : Checker) (r : Resolution),
      s.Grows { s with resolutions := s.resolutions ++ [r] } := fun s r =>
    { Grows.refl s with resolutions := ⟨[r], rfl⟩ }
  refine .ok ⟨hgrows s _, hgrows s' _, ?_, [], ?_, ?_⟩ trivial
  · exact h.grow (hgrows s _) (hgrows s' _) h.seen.current h.nextClass h.nextFunction
  · exact (List.append_nil _).symm
  · exact (List.append_nil _).symm

/-- Changing both tables so that they grow. -/
theorem modifySymbols {s s' : Checker} (h : s.Matches σ s') {t t' : SymbolTable}
    (ht : s.symbols.Grows t) (ht' : s'.symbols.Grows t')
    (hcurrent : t.current.Seen σ.view t'.current)
    (hclass : ∀ k, σ.cls (t.classes.size + k) = t'.classes.size + k)
    (hfunction : ∀ k, σ.fn (t.bodies.size + k) = t'.bodies.size + k) :
    Follows σ s s' { s with symbols := t } { s' with symbols := t' } :=
  ⟨.of_symbols ht, .of_symbols ht', h.grow (.of_symbols ht) (.of_symbols ht') hcurrent
    hclass hfunction, [], (List.append_nil _).symm, (List.append_nil _).symm⟩

/-- Making a function. -/
theorem newFunction (result : Ty) (params : List Ty) (required : Nat) :
    σ.rules.pair (Check.newFunction result params required)
      (Check.newFunction (result.rename σ) (params.map (Ty.rename σ)) required) σ.view.ty := by
  intro s s' h _
  have hgrows : ∀ t : SymbolTable,
      t.Grows { t with bodies := t.bodies ++ Array.replicate 1 none } :=
    fun t => { SymbolTable.Grows.refl t with bodies := ⟨1, rfl⟩ }
  rw [newFunction_eq, newFunction_eq]
  refine .ok (modifySymbols h (hgrows _) (hgrows _) h.seen.current h.nextClass fun k => ?_) ?_
  · have hnext := h.nextFunction (1 + k)
    simpa [Nat.add_assoc] using hnext
  · change _ = (Ty.function _ _ _ _).rename σ
    rw [Ty.rename_function, show σ.fn s.symbols.bodies.size = _ from h.nextFunction 0]
    rfl

/-- Making a class. -/
theorem newClass (name : String) :
    σ.rules.pair (Check.newClass name) (Check.newClass name) fun c d => d = c.rename σ := by
  intro s s' h hs
  have hrun : ∀ s : Checker, s.symbols.current.isClassBody = false → Check.newClass name s =
      .ok ⟨s.symbols.classes.size, name⟩ { s with symbols := { s.symbols with
        classes := s.symbols.classes.push {}
        current := s.symbols.current.record ⟨s.symbols.classes.size, name⟩ } } := by
    intro s hs
    change EStateM.Result.ok _ { s with symbols := SymbolTable.declareClass _ _ } = _
    unfold SymbolTable.declareClass
    dsimp only
    rw [hs]
    rfl
  rw [hrun s hs, hrun s' (h.seen.current.isClassBody_eq.trans hs)]
  refine .ok (modifySymbols h (.withClass _ name) (.withClass _ name) ⟨?_, ?_⟩ (fun k => ?_)
    h.nextFunction) ?_
  · rw [Frame.record_kind, Frame.record_kind]
    exact h.seen.current.kind
  · rw [Frame.record_bindings, Frame.record_bindings]
    exact h.seen.current.bindings
  · have hnext := h.nextClass (1 + k)
    simpa [Nat.add_assoc] using hnext
  · change (⟨_, name⟩ : ClassRef) = ⟨σ.cls s.symbols.classes.size, name⟩
    rw [show σ.cls s.symbols.classes.size = _ from h.nextClass 0]
    rfl

/-- Binding a name. -/
theorem declare (name : String) (position : Position) (ty : Ty) :
    σ.rules.pair (Check.declare name position ty)
      (Check.declare name position (ty.rename σ)) fun _ _ => True := by
  intro s s' h hs
  have hcls : ∀ {s : Checker}, s.symbols.current.isClassBody = false →
      s.symbols.current.cls? = none := by
    intro s hs
    simpa [Frame.isClassBody] using hs
  have hfirst := hcls hs
  have hsecond := hcls (h.seen.current.isClassBody_eq.trans hs)
  have hlookup := h.seen.current.bindings name List.not_mem_nil
  unfold Check.declare
  rw [bind_symbols, bind_symbols]
  unfold SymbolTable.insert
  rw [hfirst, hsecond, hlookup]
  cases s.symbols.current.bindings.lookup name with
  | some existing => exact report _ position s s' h hs
  | none =>
    have hgrows : ∀ (t : SymbolTable) (ty : Ty), t.Grows { t with current :=
        { t.current with bindings := (name, ty) :: t.current.bindings } } := fun t ty =>
      { SymbolTable.Grows.refl t with bindings := ⟨[(name, ty)], rfl⟩ }
    refine .ok (modifySymbols h (hgrows _ _) (hgrows _ _) ?_ h.nextClass h.nextFunction) trivial
    exact ⟨h.seen.current.kind, h.seen.current.bindings.cons name ty⟩

/-! ### Blocks, loops and switches -/

/-- A step in a block of its own. -/
theorem block {x : Check α} {y : Check β} (h : σ.rules.pair x y R) :
    σ.rules.pair (Check.inScope .block x) (Check.inScope .block y) R := by
  intro s s' hm _
  have hopen : ∀ s, pushScope .block s = .ok () (s.opened .block) := fun _ => rfl
  have hends := h _ _ (hm.opened .block rfl) rfl
  unfold Check.inScope
  rw [bind_ok (hopen s), bind_ok (hopen s')]
  generalize hx : x (s.opened .block) = r at hends
  generalize hy : y (s'.opened .block) = r' at hends
  cases hends with
  | error =>
    rw [bind_error hx, bind_error hy]
    exact .error
  | ok hfollows hab =>
    obtain ⟨log, hdrop⟩ := hfollows.left.dropScope_eq hm.settled.1
    obtain ⟨log', hdrop'⟩ := hfollows.right.dropScope_eq hm.settled.2
    rw [bind_ok hx, bind_ok hy, bind_ok hdrop, bind_ok hdrop']
    exact .ok (.close hm hfollows log log') hab

/-- A step inside of loops and switches. -/
theorem nested (loops switches : Nat) {x y : Check Unit} (h : σ.rules.pair x y fun _ _ => True) :
    σ.rules.pair (Check.nested loops switches x) (Check.nested loops switches y)
      fun _ _ => True := by
  intro s s' hm hs
  have hnested : (s.nested loops switches).Matches σ (s'.nested loops switches) :=
    { hm with
      around := ⟨congrArg (· + loops) hm.around.loops, congrArg (· + switches) hm.around.switches,
        hm.around.returns⟩
      settled := ⟨⟨hm.settled.1.bodies, hm.settled.1.classes⟩,
        ⟨hm.settled.2.bodies, hm.settled.2.classes⟩⟩ }
  have hends := h _ _ hnested hs
  change σ.Ends s s' _ (afterwards x _ (s.nested loops switches))
    (afterwards y _ (s'.nested loops switches))
  unfold afterwards
  generalize x (s.nested loops switches) = r at hends
  generalize y (s'.nested loops switches) = r' at hends
  cases hends with
  | error => exact .error
  | ok h₁ hab =>
    have hleft := h₁.left.unnested
    have hright := h₁.right.unnested
    refine .ok ⟨hleft, hright, ?_, h₁.reports⟩ hab
    exact hm.grow hleft hright h₁.after.seen.current h₁.after.nextClass h₁.after.nextFunction

/-- All steps of declarations and statements. -/
def running (σ : Renaming) : RunningPairs where
  toView := σ.view
  toPairRules := σ.rules
  report := report
  newFunction := newFunction
  symbols := symbols
  log := log
  resolve := resolve
  newClass := newClass
  declare _ := declare _
  unveiled _ := not_false
  nests := ⟨read, block, nested, fun _ _ _ _ _ => .error⟩

end Renaming

end CWithClasses
