import CWithClasses.Proofs.Logic.Open
import CWithClasses.Proofs.Logic.Tree

/-!
# Unknown types are explained

The unknown type stands for what could not be made sense of, and every time it arises a problem
is reported. So if nothing has been reported, nothing is unknown: neither the type of the tree, nor
a resolution, nor anything that is bound.

A limit of zero is the exception, since under it problems are reported without a trace.
-/

namespace CWithClasses

open Node (word tree)

/-! ### Built-in declarations -/

/-- A declaration that does not depend on earlier ones, and introduces known types only. -/
def Builtin.Static : Builtin → Prop
  | .value ty => ty.Known
  | .newClass => True
  | .objectOf _ => False
  | .function result params => result.Known ∧ ∀ t ∈ params, t.Known

/-- Only the stream objects depend on earlier declarations. -/
theorem Header.static_builtins {h : Header} (hne : h ≠ .iostream) :
    ∀ entry ∈ h.builtins, entry.2.Static := by
  cases h with
  | iostream => exact absurd rfl hne
  | _ => simp [Header.builtins, Builtin.Static, Builtin.text]

namespace SymbolTable

variable {t : SymbolTable}

/-- A declaration keeps a table known. The class of an object has to be there already. -/
theorem Known.declareBuiltin (ht : t.Known) {entry : String × Builtin}
    (h : entry.2.Static ∨ ∃ cls ty, entry.2 = .objectOf cls ∧ t.lookup? cls = some ty) :
    (t.declareBuiltin entry).Known := by
  obtain ⟨name, builtin⟩ := entry
  have hty : (t.builtinTy name builtin).1.Known ∧ (t.builtinTy name builtin).2.Known := by
    rcases h with hstatic | ⟨cls, ty, rfl, hfound⟩
    · cases builtin with
      | value ty => exact ⟨hstatic, ht⟩
      | newClass =>
        refine ⟨Ty.known_object _, ?_⟩
        exact ((ht.newClass name).markComplete _).declareClass _
      | objectOf cls => exact hstatic.elim
      | function result params =>
        exact ⟨Ty.known_function.mpr hstatic, ht.newFunction result params _⟩
    · refine ⟨?_, ht⟩
      change ((t.lookup? cls).getD .unknown).Known
      rw [hfound]
      exact ht.lookup hfound
  unfold SymbolTable.declareBuiltin
  dsimp only
  split
  next hinsert => exact hty.2.insert hty.1 hinsert
  next => exact hty.2

/-- The declarations of the streams find the classes that they are objects of. -/
theorem known_iostream :
    (Header.iostream.builtins.foldl SymbolTable.declareBuiltin
      (empty.declareBuiltin ("NULL", .value (.pointer .void)))).Known := by
  have hstatic : ∀ (name : String) (builtin : Builtin) {t : SymbolTable}, t.Known →
      builtin.Static → (t.declareBuiltin (name, builtin)).Known :=
    fun _ _ _ ht h => ht.declareBuiltin (.inl h)
  have hobject : ∀ (name cls : String) {t : SymbolTable}, t.Known → (t.lookup? cls).isSome →
      (t.declareBuiltin (name, .objectOf cls)).Known := by
    intro name cls t ht h
    obtain ⟨ty, hty⟩ := Option.isSome_iff_exists.mp h
    exact ht.declareBuiltin (.inr ⟨cls, ty, rfl, hty⟩)
  have hnull := hstatic "NULL" (.value (.pointer .void)) known_empty (by simp [Builtin.Static])
  have hostream := hstatic "ostream" .newClass hnull trivial
  have histream := hstatic "istream" .newClass hostream trivial
  have hcout := hobject "cout" "ostream" histream (by decide +kernel)
  have hcerr := hobject "cerr" "ostream" hcout (by decide +kernel)
  have hcin := hobject "cin" "istream" hcerr (by decide +kernel)
  have hendl := hstatic "endl" (.value Builtin.text) hcin (by simp [Builtin.Static, Builtin.text])
  simpa only [Header.builtins, List.foldl_cons, List.foldl_nil] using hendl

/-- At the start, nothing is unknown. -/
theorem known_populated (config : Config) : (populated config).Known := by
  have hstatic : ∀ (headers : List Header), .iostream ∉ headers → ∀ {t : SymbolTable}, t.Known →
      ((headers.flatMap Header.builtins).foldl SymbolTable.declareBuiltin t).Known := by
    intro headers hheaders t ht
    refine List.foldlRecOn (motive := SymbolTable.Known) _ _ ht fun t' ht' entry hentry => ?_
    obtain ⟨h, hh, hmem⟩ := List.mem_flatMap.mp hentry
    exact ht'.declareBuiltin (.inl (Header.static_builtins (fun heq => hheaders (heq ▸ hh)) _ hmem))
  have hnull : (empty.declareBuiltin ("NULL", .value (.pointer .void))).Known :=
    known_empty.declareBuiltin (.inl (by simp [Builtin.Static]))
  have hrest : .iostream ∉ [Header.cstdlib, .cstring, .cmath].filter config.includes := by simp
  unfold populated Config.builtins Header.all
  rw [List.foldl_cons, List.filter_cons]
  split
  · rw [List.flatMap_cons, List.foldl_append]
    exact hstatic _ hrest known_iostream
  · exact hstatic _ hrest hnull

end SymbolTable

/-! ### The logic of known types -/

/-- The step keeps the limit and takes no report back. -/
def Check.Reports {α : Type} (x : Check α) : Prop :=
  ∀ s a s', x s = .ok a s' → s'.limit = s.limit ∧ (s'.diagnostics = [] → s.diagnostics = [])

/-- If nothing is reported up to the end of the step, all types stay known, and the result
satisfies a condition. -/
def Check.Explains {α : Type} (x : Check α) (Q : α → Prop) : Prop :=
  ∀ s a s', x s = .ok a s' → s.limit ≠ some 0 → s'.diagnostics = [] → s.Known → s'.Known ∧ Q a

/-- Steps that report whatever they do not know. -/
def knownRules : StepRules where
  triple p x Q := x.Reports ∧ (p → x.Explains Q)
  ret a ha := by
    refine ⟨fun s b s' h => ?_, fun hp s b s' h _ _ hs => ?_⟩
    · cases h
      exact ⟨rfl, fun h => h⟩
    · cases h
      exact ⟨hs, ha hp⟩
  seq := by
    intro α β p x f R P Q hR hx hf
    constructor
    · intro s b s' h
      obtain ⟨a, s₁, hrun, hrest⟩ := Check.exists_of_bind h
      obtain ⟨hlimit, hback⟩ := hx.1 s a s₁ hrun
      obtain ⟨hlimit', hback'⟩ := (hf a (hR s a s₁ hrun)).1 s₁ b s' hrest
      exact ⟨hlimit'.trans hlimit, fun hclean => hback (hback' hclean)⟩
    · intro hp s b s' h hlimit hclean hs
      obtain ⟨a, s₁, hrun, hrest⟩ := Check.exists_of_bind h
      obtain ⟨hreports, hexplains⟩ := hf a (hR s a s₁ hrun)
      have hclean₁ : s₁.diagnostics = [] := (hreports s₁ b s' hrest).2 hclean
      obtain ⟨hs₁, ha⟩ := hx.2 hp s a s₁ hrun hlimit hclean₁ hs
      have hlimit₁ : s₁.limit ≠ some 0 := (hx.1 s a s₁ hrun).1 ▸ hlimit
      exact hexplains ⟨hp, ha⟩ s₁ b s' hrest hlimit₁ hclean hs₁
  conseq hx hq hQ :=
    ⟨hx.1, fun hp s a s' h hlimit hclean hs =>
      (hx.2 (hq hp) s a s' h hlimit hclean hs).imp_right (hQ a hp)⟩

/-- A report is only without a trace if the limit is zero. -/
theorem Checker.reported_ne_nil {s : Checker} (d : Diagnostic) (hlimit : s.limit ≠ some 0) :
    (s.reported d).diagnostics ≠ [] := by
  rw [diagnostics_reported]
  split
  next hreached =>
    obtain ⟨limit, hsome, hle⟩ := (Option.any_eq_true _ _).mp hreached
    intro hnil
    rw [hnil] at hle
    have hzero : limit = 0 := by simpa using hle
    exact hlimit (hzero ▸ hsome)
  next => simp

/-- A report takes no other one back. -/
theorem Checker.diagnostics_of_reported {s : Checker} {d : Diagnostic}
    (h : (s.reported d).diagnostics = []) : s.diagnostics = [] := by
  rw [diagnostics_reported] at h
  split at h
  next => exact h
  next => simp at h

/-- In every step of a check, an unknown type is explained by a report. -/
def knownLogic : OpenLogic where
  toStepRules := knownRules
  faults := True
  fault e _ := by
    refine ⟨fun s a s' h => ?_, fun _ s a s' h => ?_⟩
    · cases h
    · cases h
  symbols := by
    refine ⟨fun s a s' h => ?_, fun _ s a s' h _ _ hs => ?_⟩
    · cases h
      exact ⟨rfl, fun h => h⟩
    · cases h
      exact ⟨hs, hs.symbols⟩
  nesting hk :=
    ⟨fun s => (hk s.loops s.switches s.returns).1 s,
      fun hp s => (hk s.loops s.switches s.returns).2 hp s⟩
  log e := by
    refine ⟨fun s a s' h => ?_, fun _ s a s' h _ _ hs => ?_⟩
    · cases h
      exact ⟨rfl, fun h => h⟩
    · cases h
      exact ⟨⟨hs.symbols, hs.resolutions⟩, trivial⟩
  report e position _ := by
    refine ⟨fun s a s' h => ?_, fun _ s a s' h hlimit hclean hs => ?_⟩
    · cases h
      exact ⟨s.limit_reported _, Checker.diagnostics_of_reported⟩
    · cases h
      exact absurd hclean (Checker.reported_ne_nil _ hlimit)
  change hquiet hknown := by
    refine ⟨fun s a s' h => ?_, fun hp s a s' h _ _ hs => ?_⟩
    · cases h
      obtain ⟨hlimit, hdiagnostics⟩ := hquiet.reports_eq s
      exact ⟨hlimit, fun h => hdiagnostics ▸ h⟩
    · cases h
      exact ⟨hknown hp s hs, trivial⟩
  afterwards := by
    intro α p x f Q hquiet hknown hx
    refine ⟨fun s a s' h => ?_, fun hp s a s' h hlimit hclean hs => ?_⟩
    · obtain ⟨s₁, hrun, rfl⟩ := Check.exists_of_afterwards h
      obtain ⟨hlimit, hdiagnostics⟩ := hquiet.reports_eq s₁
      rw [hlimit, hdiagnostics]
      exact hx.1 s a s₁ hrun
    · obtain ⟨s₁, hrun, rfl⟩ := Check.exists_of_afterwards h
      rw [(hquiet.reports_eq s₁).2] at hclean
      exact (hx.2 hp s a s₁ hrun hlimit hclean hs).imp_left (hknown s₁)

instance : Fact knownLogic.toStepLogic.statements := ⟨trivial⟩

/-! ### No unexplained unknown -/

/-- If a check under a limit other than zero finds nothing to report, nothing is unknown: not the
type of the tree, nor any resolution, binding or member, nor anything these types are made of. -/
theorem known_of_typeCheck {root : Node} {config : Config} {o : Outcome}
    (hlimit : config.maxDiagnostics ≠ some 0) (hok : typeCheck root config = .ok o)
    (hclean : o.diagnostics = []) :
    o.ty.Known ∧ (∀ r ∈ o.resolutions, r.ty.Known) ∧ o.symbols.Known := by
  rw [typeCheck_eq] at hok
  split at hok
  next ty s hrun =>
    cases hok
    have hexplains : root.check.Explains Ty.Known :=
      (knownLogic.toStepLogic.check (p := True) (.inl trivial)).2 trivial
    have hstart : (Checker.start config).Known :=
      ⟨SymbolTable.known_populated config, fun r hr => by cases hr⟩
    obtain ⟨hs, hty⟩ := hexplains _ ty s hrun hlimit hclean hstart
    exact ⟨hty, hs.resolutions, hs.symbols⟩
  next => cases hok

/-- A class, an object of it and a use of its member: `struct S { int n; }; S s; int m = s.n;`. -/
def memberProgram : Node :=
  let cls := tree .classSpec [tree .classHead [word .structKey "struct", word .identifier "S"],
    tree .memberDecl [word .intType "int", word .identifier "n"]]
  let access := tree .dotField [word .identifier "s", word .identifier "n"]
  { rule := .program
    children := [tree .declSeq [
      tree .simpleDecl [cls],
      tree .simpleDecl [word .className "S", word .identifier "s"],
      tree .simpleDecl [word .intType "int", tree .initDecl [word .identifier "m", access]]]] }

/-- The program is clean, so that the uses of its object and of the member have known types. -/
theorem known_memberProgram :
    ∃ o, typeCheck memberProgram = .ok o ∧ o.diagnostics = [] ∧ o.resolutions.length = 2 ∧
      o.ty.Known ∧ (∀ r ∈ o.resolutions, r.ty.Known) ∧ o.symbols.Known := by
  have hclean : ((typeCheck memberProgram).toOption.map fun o =>
      (o.diagnostics.length, o.resolutions.length)) = some (0, 2) := by decide +kernel
  cases h : typeCheck memberProgram with
  | error e =>
    rw [h] at hclean
    cases hclean
  | ok o =>
    rw [h] at hclean
    obtain ⟨hdiagnostics, hresolutions⟩ := Prod.mk.inj (Option.some.inj hclean)
    have hnone : o.diagnostics = [] := List.eq_nil_of_length_eq_zero hdiagnostics
    exact ⟨o, rfl, hnone, hresolutions, known_of_typeCheck (by decide) h hnone⟩

end CWithClasses
