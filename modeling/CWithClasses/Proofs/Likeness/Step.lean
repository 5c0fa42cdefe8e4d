import CWithClasses.Proofs.Likeness.Lifetime
import CWithClasses.Proofs.Logic.Open
import CWithClasses.Proofs.Pairs.Running

/-!
# Steps in states that are alike

Two states of a check are alike if their tables are, and if they have found out the same: the same
diagnostics, and the same uses of names, up to the numbers in their types. The steps of a check keep
states alike, and give results that differ in these numbers only.

Steps that let go of something need that no class is veiled: what the private members of a veiled
class mention may differ from one state to the other.
-/

namespace CWithClasses

variable {L : Likeness}

/-- The use of a name, with new numbers in its type. -/
def Resolution.rename (σ : Renaming) (r : Resolution) : Resolution := { r with ty := r.ty.rename σ }

/-- States that are alike. The log does not matter. -/
structure Checker.Alike (L : Likeness) (s s' : Checker) : Prop where
  symbols : s.symbols.Alike L s'.symbols
  diagnostics : s'.diagnostics = s.diagnostics
  resolutions : s'.resolutions = s.resolutions.map (Resolution.rename L.toRenaming)
  returns : s'.returns = s.returns.map (Ty.rename L.toRenaming)
  loops : s'.loops = s.loops
  switches : s'.switches = s.switches
  suspended : s'.suspended = s.suspended
  limit : s'.limit = s.limit
  held : s.held.Alike L.toRenaming s'.held

namespace Checker.Alike

variable {s s' : Checker}

/-- Replacing the tables. -/
theorem withSymbols (h : s.Alike L s') {t u : SymbolTable} (htu : t.Alike L u) :
    Checker.Alike L { s with symbols := t } { s' with symbols := u } :=
  ⟨htu, h.diagnostics, h.resolutions, h.returns, h.loops, h.switches, h.suspended, h.limit, h.held⟩

/-- The logs may differ. -/
theorem logged (h : s.Alike L s') (e e' : Event) : (s.logged e).Alike L (s'.logged e') :=
  ⟨h.symbols, h.diagnostics, h.resolutions, h.returns, h.loops, h.switches, h.suspended, h.limit,
    h.held⟩

/-- A problem is kept on both sides, or on none. -/
theorem reported (h : s.Alike L s') (d : Diagnostic) : (s.reported d).Alike L (s'.reported d) := by
  have hlimit : (s'.reported d).limit = (s.reported d).limit := by
    rw [limit_reported, limit_reported, h.limit]
  have hdiagnostics : (s'.reported d).diagnostics = (s.reported d).diagnostics := by
    rw [diagnostics_reported, diagnostics_reported, h.limit, h.diagnostics]
  rw [← s.withReportsOf_reported d, ← s'.withReportsOf_reported d]
  exact ⟨h.symbols, hdiagnostics, h.resolutions, h.returns, h.loops, h.switches,
    h.suspended, hlimit, h.held⟩

/-- Recording the use of a name. -/
theorem resolved (h : s.Alike L s') (r : Resolution) :
    Checker.Alike L { s with resolutions := s.resolutions ++ [r] }
      { s' with resolutions := s'.resolutions ++ [r.rename L.toRenaming] } where
  symbols := h.symbols
  diagnostics := h.diagnostics
  resolutions := by
    dsimp only
    rw [h.resolutions, List.map_append]
    rfl
  returns := h.returns
  loops := h.loops
  switches := h.switches
  suspended := h.suspended
  limit := h.limit
  held := h.held

/-- What the states mention beside their tables. -/
theorem mentions (h : s.Alike L s') : s.mentions.Alike L.toRenaming s'.mentions := by
  unfold Checker.mentions
  rw [h.resolutions, h.returns]
  refine (h.held.append (.ofList ?_)).append (.ofList ?_)
  · rw [List.forall₂_map_right_iff]
    exact List.forall₂_same.mpr fun r _ => r.ty.mentions_alike _
  · rw [List.forall₂_map_right_iff]
    exact List.forall₂_same.mpr fun t _ => t.mentions_alike _

/-- Letting go of a frame. -/
theorem discard (h : s.Alike L s') (hveil : ∀ i, ¬ L.veiled i) {f g : Frame} (hfg : f.Alike L g) :
    (s.discard f).Alike L (s'.discard g) :=
  h.withSymbols ((h.symbols.discard hfg).reclaim hveil h.mentions)

/-- Entering the body of a function. -/
theorem enterFunction (h : s.Alike L s') (result : Ty) :
    (s.enterFunction result).Alike L (s'.enterFunction (result.rename L.toRenaming)) where
  symbols := h.symbols
  diagnostics := h.diagnostics
  resolutions := h.resolutions
  returns := congrArg (result.rename L.toRenaming :: ·) h.returns
  loops := rfl
  switches := rfl
  suspended := by
    change (s'.loops, s'.switches) :: s'.suspended = _
    rw [h.loops, h.switches, h.suspended]
    rfl
  limit := h.limit
  held := h.held

/-- Leaving the body of a function. -/
theorem leaveFunction (h : s.Alike L s') : s.leaveFunction.Alike L s'.leaveFunction where
  symbols := h.symbols
  diagnostics := h.diagnostics
  resolutions := h.resolutions
  returns := by
    change s'.returns.tail = s.returns.tail.map _
    rw [h.returns, List.map_tail]
  loops := by
    change (s'.suspended.headD (0, 0)).1 = (s.suspended.headD (0, 0)).1
    rw [h.suspended]
  switches := by
    change (s'.suspended.headD (0, 0)).2 = (s.suspended.headD (0, 0)).2
    rw [h.suspended]
  suspended := congrArg List.tail h.suspended
  limit := h.limit
  held := h.held

end Checker.Alike

/-! ### Pairs of steps -/

namespace Likeness

open Check

variable {α β γ δ : Type} {R : α → β → Prop}

/-- Two runs end alike: with related results, or with the same fault. -/
inductive Ends (L : Likeness) {α β : Type} (R : α → β → Prop) :
    EStateM.Result Fault Checker α → EStateM.Result Fault Checker β → Prop
  | ok {a : α} {b : β} {s s' : Checker} (h : s.Alike L s') (hab : R a b) :
      Ends L R (.ok a s) (.ok b s')
  | error {e : Fault} {s s' : Checker} (h : s.Alike L s') : Ends L R (.error e s) (.error e s')

/-- Steps that keep states alike. -/
def rules (L : Likeness) : PairRules where
  pair x y R := ∀ s s', s.Alike L s' → L.Ends R (x s) (y s')
  ret hab := fun _ _ h => .ok h hab
  seq := by
    intro α β γ δ x y f g P Q hx hf s s' h
    have hends := hx s s' h
    change L.Ends Q (EStateM.bind x f s) (EStateM.bind y g s')
    unfold EStateM.bind
    generalize x s = r at hends
    generalize y s' = r' at hends
    cases hends with
    | ok h₁ hab => exact hf _ _ hab _ _ h₁
    | error h₁ => exact .error h₁
  fault _ := fun _ _ h => .error h

/-- Changing both states. -/
theorem change {f g : Checker → Checker} (hfg : ∀ s s', s.Alike L s' → (f s).Alike L (g s')) :
    L.rules.pair (modify f : Check Unit) (modify g : Check Unit) fun _ _ => True :=
  fun s s' h => .ok (hfg s s' h) trivial

/-- Changing both states after a step, whatever has happened. -/
theorem afterwards {x : Check α} {y : Check β} {f g : Checker → Checker} (hx : L.rules.pair x y R)
    (hfg : ∀ s s', s.Alike L s' → (f s).Alike L (g s')) :
    L.rules.pair (Check.afterwards x f) (Check.afterwards y g) R := by
  intro s s' h
  have hends := hx s s' h
  unfold Check.afterwards
  generalize x s = r at hends
  generalize y s' = r' at hends
  cases hends with
  | ok h₁ hab => exact .ok (hfg _ _ h₁) hab
  | error h₁ => exact .error (hfg _ _ h₁)

/-- Reading the tables. -/
theorem symbols {k : SymbolTable → Check α} {k' : SymbolTable → Check β}
    (hk : ∀ t u, t.Alike L u → L.rules.pair (k t) (k' u) R) :
    L.rules.pair (Check.symbols >>= k) (Check.symbols >>= k') R :=
  fun s s' h => hk s.symbols s'.symbols h.symbols s s' h

/-- Reading the states. -/
theorem read {k : Checker → Check α} {k' : Checker → Check β}
    (hk : ∀ s s', s.Alike L s' → L.rules.pair (k s) (k' s') R) :
    L.rules.pair (get >>= k) (get >>= k') R :=
  fun s s' h => hk s s' h s s' h

/-- Writing to the logs. -/
theorem log (e e' : Event) : L.rules.pair (Check.log e) (Check.log e') fun _ _ => True :=
  change fun _ _ h => h.logged e e'

/-- Recording a problem. -/
theorem report (e : Problem) (position : Position) :
    L.rules.pair (Check.report e position) (Check.report e position) fun _ _ => True :=
  change fun _ _ h => h.reported _

/-- Recording the use of a name. -/
theorem resolve (name : String) (position : Position) (ty : Ty) :
    L.rules.pair (Check.resolve name position ty)
      (Check.resolve name position (ty.rename L.toRenaming)) fun _ _ => True :=
  change fun _ _ h => h.resolved ⟨name, position, ty⟩

/-! ### Scopes -/

/-- Changing both tables. -/
theorem modifySymbols {f g : SymbolTable → SymbolTable}
    (hfg : ∀ t u, t.Alike L u → (f t).Alike L (g u)) :
    L.rules.pair (Check.modifySymbols f) (Check.modifySymbols g) fun _ _ => True :=
  change fun _ _ h => h.withSymbols (hfg _ _ h.symbols)

/-- Opening a scope, which is not the body of a veiled class. -/
theorem pushScope (kind : FrameKind) (hkind : ∀ c, kind = .classBody c → ¬ L.veiled c.id) :
    L.rules.pair (Check.pushScope kind) (Check.pushScope (kind.rename L.toRenaming))
      fun _ _ => True := by
  unfold Check.pushScope
  refine L.rules.seq (modifySymbols fun _ _ h => h.push kind hkind) fun _ _ _ => ?_
  exact symbols fun _ _ _ => log _ _

/-- Closing a scope. -/
theorem popScope : L.rules.pair Check.popScope Check.popScope (Option.Rel (Frame.Alike L)) := by
  unfold Check.popScope
  refine symbols fun t u h => ?_
  have hpop := h.pop?
  generalize t.pop? = p at hpop
  generalize u.pop? = q at hpop
  cases hpop with
  | none => exact L.rules.seq (log _ _) fun _ _ _ => L.rules.ret .none
  | some hframes =>
    refine L.rules.seq (modifySymbols fun _ _ _ => hframes.2) fun _ _ _ => ?_
    exact L.rules.seq (log _ _) fun _ _ _ => L.rules.ret (.some hframes.1)

/-- Letting go of a scope that was handed over, if no class is veiled. -/
theorem discard (hveil : ∀ i, ¬ L.veiled i) {f g : Option Frame}
    (hfg : Option.Rel (Frame.Alike L) f g) :
    L.rules.pair (Check.discard f) (Check.discard g) fun _ _ => True := by
  cases hfg with
  | none => exact L.rules.ret trivial
  | some hframes => exact change fun _ _ h => h.discard hveil hframes

/-- Closing a scope for good, if no class is veiled. -/
theorem dropScope (hveil : ∀ i, ¬ L.veiled i) :
    L.rules.pair Check.dropScope Check.dropScope fun _ _ => True :=
  L.rules.seq popScope fun _ _ hframes => discard hveil hframes

/-- A step in a scope of its own, if no class is veiled. -/
theorem inScope (hveil : ∀ i, ¬ L.veiled i) (kind : FrameKind) {x : Check α} {y : Check β}
    (h : L.rules.pair x y R) :
    L.rules.pair (Check.inScope kind x) (Check.inScope (kind.rename L.toRenaming) y) R := by
  unfold Check.inScope
  refine L.rules.seq (pushScope kind fun c _ => hveil c.id) fun _ _ _ => ?_
  refine L.rules.seq h fun _ _ hab => ?_
  exact L.rules.seq (dropScope hveil) fun _ _ _ => L.rules.ret hab

/-- Making a class. -/
theorem newClass (name : String) :
    L.rules.pair (Check.newClass name) (Check.newClass name)
      fun c d => d = c.rename L.toRenaming := by
  intro s s' h
  have hmade := h.symbols.newClass name
  have hnumber := h.symbols.rename_newClass name
  refine .ok (h.withSymbols ?_) hnumber
  change SymbolTable.Alike L ((s.symbols.newClass name).2.declareClass (s.symbols.newClass name).1)
    ((s'.symbols.newClass name).2.declareClass (s'.symbols.newClass name).1)
  rw [hnumber]
  exact hmade.declareClass _

/-- Making a function. -/
theorem newFunction (result : Ty) (params : List Ty) (required : Nat) :
    L.rules.pair (Check.newFunction result params required)
      (Check.newFunction (result.rename L.toRenaming)
        (params.map (Ty.rename L.toRenaming)) required)
      L.ty := by
  intro s s' h
  have hmade : SymbolTable.Alike L (s.symbols.newFunction result params required).2
      (s'.symbols.newFunction (result.rename L.toRenaming) (params.map (Ty.rename L.toRenaming))
        required).2 :=
    h.symbols.newFunction required
  exact .ok (h.withSymbols hmade) (h.symbols.rename_newFunction result params required)

/-- Binding a name that is not hidden. -/
theorem declare {name : String} (hname : name ∉ L.hidden) (position : Position) (ty : Ty) :
    L.rules.pair (Check.declare name position ty)
      (Check.declare name position (ty.rename L.toRenaming)) fun _ _ => True := by
  unfold Check.declare
  refine symbols fun t u h => ?_
  obtain ⟨t', u', ht, hu, htu⟩ | ⟨e, ht, hu⟩ := h.insert hname ty
  · rw [ht, hu]
    exact modifySymbols fun _ _ _ => htu
  · rw [ht, hu]
    exact report e position

/-! ### All steps -/

/-- Steps that look up names keep states alike. -/
def reading (L : Likeness) : ReadingPairs where
  toView := L.toView
  toPairRules := L.rules
  report := report
  newFunction := newFunction
  symbols hk := symbols fun t u h => hk t u h.seen
  log := log
  resolve := resolve
  newClass := newClass
  declare := declare

/-- The states inside of loops and switches. -/
theorem enter (loops switches : Nat) (s s' : Checker) (h : s.Alike L s') :
    (s.nested loops switches).Alike L (s'.nested loops switches) :=
  { h with
    loops := congrArg (· + loops) h.loops
    switches := congrArg (· + switches) h.switches }

/-- The states after loops and switches. -/
theorem leave (loops switches : Nat) (s s' : Checker) (h : s.Alike L s') :
    (s.unnested loops switches).Alike L (s'.unnested loops switches) :=
  { h with
    loops := congrArg (· - loops) h.loops
    switches := congrArg (· - switches) h.switches }

/-- All steps keep states alike, if no class is veiled. -/
def running (L : Likeness) (hveil : ∀ i, ¬ L.veiled i) : RunningPairs where
  toReadingPairs := L.reading
  unveiled := hveil
  nests := {
    read := fun hk => read fun s s' h => hk s s' ⟨h.loops, h.switches, by
      rw [h.returns, List.forall₂_map_right_iff]
      exact List.forall₂_same.mpr fun _ _ => rfl⟩
    block := inScope hveil .block
    nested := fun loops switches _ _ hx => L.rules.seq (change (enter loops switches)) fun _ _ _ =>
      afterwards hx (leave loops switches)
    missingBody := fun _ => L.rules.seq (change (enter 0 1)) fun _ _ _ => L.rules.fault _ }

end Likeness

end CWithClasses
