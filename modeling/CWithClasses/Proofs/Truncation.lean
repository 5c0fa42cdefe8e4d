import CWithClasses.Proofs.Logic.Open
import CWithClasses.Proofs.Logic.Tree

/-!
# The limit only truncates

A check under a limit on its diagnostics runs in step with the check without one. After each step
the two states differ only in what has been reported, and the limited one holds the first
diagnostics of the other. So no decision of a check depends on the limit.
-/

namespace CWithClasses

open Node (word)

namespace Checker

/-- The second state is the first one, under a limit on the diagnostics. -/
structure Truncates (limit : Nat) (s t : Checker) : Prop where
  same : s.withReportsOf t = t
  unlimited : s.limit = none
  limited : t.limit = some limit
  diagnostics : t.diagnostics = s.diagnostics.take limit

namespace Truncates

variable {limit : Nat} {s t : Checker}

/-- The two states bind the same names. -/
theorem symbols_eq (h : s.Truncates limit t) : t.symbols = s.symbols := by
  rw [← h.same]
  rfl

/-- The two states are inside of the same loops, switches and functions. -/
theorem nesting_eq (h : s.Truncates limit t) :
    t.loops = s.loops ∧ t.switches = s.switches ∧ t.returns = s.returns := by
  rw [← h.same]
  exact ⟨rfl, rfl, rfl⟩

/-- A change that has nothing to do with the reports may be made on both sides. -/
theorem change (h : s.Truncates limit t) {f : Checker → Checker} (hf : Quiet f) :
    (f s).Truncates limit (f t) where
  same := by
    have hft : f t = (f s).withReportsOf t := by rw [← hf s t, h.same]
    rw [hft]
    rfl
  unlimited := (hf.reports_eq s).1.trans h.unlimited
  limited := (hf.reports_eq t).1.trans h.limited
  diagnostics := by rw [(hf.reports_eq t).2, (hf.reports_eq s).2, h.diagnostics]

/-- The outcomes differ in nothing but the number of diagnostics. -/
theorem outcome_eq (h : s.Truncates limit t) (ty : Ty) :
    t.outcome ty = { s.outcome ty with diagnostics := (s.outcome ty).diagnostics.take limit } := by
  rw [← h.same]
  change { s.outcome ty with diagnostics := t.diagnostics } = _
  rw [h.diagnostics]
  rfl

/-- The log does not matter. -/
theorem logged (h : s.Truncates limit t) (e : Event) :
    (s.logged e).Truncates limit (t.logged e) where
  same := congrArg (·.logged e) h.same
  unlimited := h.unlimited
  limited := h.limited
  diagnostics := h.diagnostics

/-- Beyond the limit, diagnostics are dropped on one side only. -/
theorem reported (h : s.Truncates limit t) (d : Diagnostic) :
    (s.reported d).Truncates limit (t.reported d) where
  same := by
    calc (s.reported d).withReportsOf (t.reported d)
      _ = (s.withReportsOf t).withReportsOf (t.reported d) := by
        rw [← s.withReportsOf_reported d]
        rfl
      _ = t.reported d := by rw [h.same, withReportsOf_reported]
  unlimited := (s.limit_reported d).trans h.unlimited
  limited := (t.limit_reported d).trans h.limited
  diagnostics := by
    have hall : (s.reported d).diagnostics = s.diagnostics ++ [d] := by
      rw [diagnostics_reported, h.unlimited]
      rfl
    have hfirst : (t.reported d).diagnostics =
        if limit ≤ s.diagnostics.length then s.diagnostics.take limit
        else s.diagnostics.take limit ++ [d] := by
      rw [diagnostics_reported, h.limited, h.diagnostics]
      have hlength : limit ≤ min limit s.diagnostics.length ↔ limit ≤ s.diagnostics.length := by
        omega
      simp only [Option.any_some, List.length_take, hlength, decide_eq_true_eq]
    rw [hall, hfirst]
    split
    next hreached => exact (List.take_append_of_le_length hreached).symm
    next hroom =>
      have hfits : (s.diagnostics ++ [d]).length ≤ limit := by
        rw [List.length_append, List.length_singleton]
        omega
      rw [List.take_of_length_le (by omega), List.take_of_length_le hfits]

end Truncates

/-- Two runs that end alike: with the same result, or with the same fault. -/
inductive EndsAlike (limit : Nat) {α : Type} :
    EStateM.Result Fault Checker α → EStateM.Result Fault Checker α → Prop
  | ok {a : α} {s t : Checker} (h : s.Truncates limit t) : EndsAlike limit (.ok a s) (.ok a t)
  | error {e : Fault} {s t : Checker} : EndsAlike limit (.error e s) (.error e t)

end Checker

open Checker

/-- Steps that run alike with a limit and without one. -/
def truncationRules (limit : Nat) : StepRules where
  triple _ x _ := ∀ s t, s.Truncates limit t → EndsAlike limit (x s) (x t)
  ret _ _ := fun _ _ h => .ok h
  seq := by
    intro α β p x f R P Q hR hx hf s t h
    have hends := hx s t h
    change EndsAlike limit (EStateM.bind x f s) (EStateM.bind x f t)
    unfold EStateM.bind
    generalize hs : x s = r at hends
    generalize x t = r' at hends
    cases hends with
    | ok h₁ => exact hf _ (hR s _ _ hs) _ _ h₁
    | error => exact .error
  conseq hx _ _ := fun s t h => hx s t h

/-- No step of a check depends on the limit. -/
def truncationLogic (limit : Nat) : OpenLogic where
  toStepRules := truncationRules limit
  faults := True
  fault _ _ := fun _ _ _ => .error
  symbols := by
    intro p s t h
    change EndsAlike limit (.ok s.symbols s) (.ok t.symbols t)
    rw [h.symbols_eq]
    exact .ok h
  nesting := by
    intro α p k Q hk s t h
    obtain ⟨hloops, hswitches, hreturns⟩ := h.nesting_eq
    change EndsAlike limit (k s.loops s.switches s.returns s) (k t.loops t.switches t.returns t)
    rw [hloops, hswitches, hreturns]
    exact hk _ _ _ s t h
  log e := fun _ _ h => .ok (h.logged e)
  report e position _ := fun _ _ h => .ok (h.reported _)
  change hquiet _ := fun _ _ h => .ok (h.change hquiet)
  afterwards := by
    intro α p x f Q hquiet _ hx s t h
    have hends := hx s t h
    unfold Check.afterwards
    generalize x s = r at hends
    generalize x t = r' at hends
    cases hends with
    | ok h₁ => exact .ok (h₁.change hquiet)
    | error => exact .error

instance (limit : Nat) : Fact (truncationLogic limit).toStepLogic.statements := ⟨trivial⟩

/-- A limit changes nothing about a check but that the diagnostics end there: it meets the same
fault, or else finds the same types and binds the same names. -/
theorem typeCheck_withMaxDiagnostics (root : Node) {config : Config} (limit : Nat)
    (h : config.maxDiagnostics = none) :
    typeCheck root (config.withMaxDiagnostics limit) =
      (typeCheck root config).map fun o => { o with diagnostics := o.diagnostics.take limit } := by
  have hstart : (Checker.start config).Truncates limit
      (Checker.start (config.withMaxDiagnostics limit)) :=
    ⟨rfl, h, rfl, List.take_nil.symm⟩
  have hends : EndsAlike limit (root.check (.start config))
      (root.check (.start (config.withMaxDiagnostics limit))) :=
    (truncationLogic limit).toStepLogic.check (p := True) (.inl trivial) _ _ hstart
  rw [typeCheck_eq, typeCheck_eq]
  generalize root.check (.start config) = r at hends
  generalize root.check (.start (config.withMaxDiagnostics limit)) = r' at hends
  cases hends with
  | error => rfl
  | @ok ty s t h₁ =>
    exact congrArg Except.ok (h₁.outcome_eq ty)

/-- Two uses of names that are not declared: `a, b`. -/
def undeclaredPair : Node :=
  { rule := .comma, children := [word .identifier "a", word .identifier "b"] }

/-- Under a limit of one, the second problem of the pair is not among the diagnostics. -/
theorem typeCheck_undeclaredPair_withMaxDiagnostics :
    Config.bare.maxDiagnostics = none ∧
      (typeCheck undeclaredPair .bare).toOption.map (·.diagnostics.length) = some 2 ∧
      typeCheck undeclaredPair (Config.bare.withMaxDiagnostics 1) =
        (typeCheck undeclaredPair .bare).map fun o =>
          { o with diagnostics := o.diagnostics.take 1 } :=
  ⟨rfl, by decide +kernel, typeCheck_withMaxDiagnostics _ 1 rfl⟩

end CWithClasses
