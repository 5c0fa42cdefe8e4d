import CWithClasses.Proofs.Grounding.Bodies
import CWithClasses.Proofs.Upkeep.Names

/-!
# The course of a check

In the course of a check, nothing dangles: all that is mentioned has been made, and there is nothing
to let go. So the states that a class may be specified in are all grounded, wherever the class
stands: in other classes, in the bodies of functions and methods, in parameters and conditions.

`Checker.ComesTo` lists what a check does from one state to another. Beside whole constructs and
their parts these are the steps that are made between them, and the scopes that are open around
them.
-/

namespace CWithClasses

open Check

/-! ### The steps of a check -/

/-- What a check does in a state. The types that a step is given mention only what has been made. -/
inductive Checker.Step (s : Checker) : {α : Type} → Check α → Prop
  | check (n : Node) : s.Step n.check
  | expression (n : Node) : s.Step n.phrase.roles.expression
  | specifier (n : Node) : s.Step n.phrase.roles.specifier
  | declarator (n : Node) {base : Ty} : base.Within s.symbols.Made →
      s.Step (n.phrase.roles.declarator base)
  | declaration (n : Node) : s.Step n.phrase.roles.declaration
  | statement (n : Node) : s.Step n.phrase.roles.statement
  | classHead (n : Node) : s.Step n.phrase.classHead
  | classSpec (n : Node) : s.Step n.checkClassSpec
  | function (n : Node) : s.Step n.clause.declareFunctionDef
  | report (e : Problem) (position : Position) : s.Step (Check.report e position)
  | log (e : Event) : s.Step (Check.log e)
  | newClass (name : String) : s.Step (Check.newClass name)
  | declare (name : String) (position : Position) {ty : Ty} : ty.Within s.symbols.Made →
      s.Step (Check.declare name position ty)
  | setAccess (access : Access) : s.Step (modifySymbols (·.setAccess access))
  | markComplete (c : ClassRef) : s.Step (modifySymbols (·.markComplete c))

/-- A check may come from the first state to the second one. The body of a function may be checked
at any time after the function was declared. -/
inductive Checker.ComesTo : Checker → Checker → Prop
  | refl (s : Checker) : ComesTo s s
  | step {s s₁ s₂ : Checker} {α : Type} {x : Check α} {a : α} : ComesTo s s₁ → s₁.Step x →
      x s₁ = .ok a s₂ → ComesTo s s₂
  | body {n : Node} {b : FunctionBody} {s s₀ s₁ s₂ s₃ : Checker} : ComesTo s s₀ →
      n.clause.declareFunctionDef s₀ = .ok b s₁ → ComesTo s₁ s₂ → b.check s₂ = .ok () s₃ →
      ComesTo s s₃
  | opened {s s₁ : Checker} {kind : FrameKind} : ComesTo s s₁ →
      (∀ c, kind = .classBody c → c.id < s₁.symbols.classes.size) → ComesTo s (s₁.opened kind)
  | entered {s s₁ : Checker} {result : Ty} : ComesTo s s₁ → result.Within s₁.symbols.Made →
      ComesTo s (s₁.enterFunction result)
  | counted {s s₁ : Checker} (loops switches : Nat) : ComesTo s s₁ →
      ComesTo s { s₁ with loops, switches }

namespace Node

variable (n : Node) (P : Nat ⊕ Nat → Prop)

/-- A tree mentions only what has been made, and so does all that it is made of. -/
theorem upholds_rooting : n.phrase.Throughout (Phrase.Upholds (rootingLogic P)) :=
  upholds_throughout (namesObjects fun _ _ => trivial)

/-- The parts of a tree mention only what has been made. -/
theorem upholds_rooting_clause : n.clause.Throughout (Phrase.Upholds (rootingLogic P)) := by
  rw [← n.phrase_clause]
  exact (n.upholds_rooting P).clause

end Node

namespace Checker.Step

variable {s : Checker} {α : Type} {x : Check α}

/-- Each step leads to steady states. -/
theorem steadies (hx : s.Step x) : x.Steadies (fun _ => True) fun _ _ => True := by
  cases hx with
  | check n => exact n.steadies_check
  | expression n => exact n.runs_steady.self.expression.1
  | specifier n => exact n.runs_steady.self.specifier.1
  | declarator n _ => exact (n.runs_steady.self.declarator _).1
  | declaration n => exact n.runs_steady.self.declaration.1
  | statement n => exact n.runs_steady.self.statement.1
  | classHead n => exact (RunningPairs.classHead n.runs_steady).1
  | classSpec n =>
    unfold Node.checkClassSpec
    rw [n.phrase_clause]
    exact (Steadies.classSpec n.runs_steady_clause).1
  | function n =>
    have hdeclare := Steadies.declareFunctionDef n.runs_steady_clause
    exact hdeclare.conseq (fun _ h => h) fun _ _ _ => trivial
  | report e position => exact .report e position
  | log e => exact .log e
  | newClass name => exact .newClass name
  | declare name position _ => exact .declare name position _
  | setAccess access => exact .setAccess access
  | markComplete c => exact .markComplete c

/-- Each step mentions only what has been made. -/
theorem roots {P : Nat ⊕ Nat → Prop} (hx : s.Step x) (hP : ∀ y, s.symbols.Made y → P y) :
    x.Roots P True fun _ => True := by
  let L := rootingLogic P
  have hwithin : ∀ {ty : Ty}, ty.Within s.symbols.Made → ty.Within P := fun h y hy => hP y (h y hy)
  cases hx with
  | check n => exact Node.check_upholds (L := L) (Node.namesObjects fun _ _ => trivial) True
  | expression n => exact (n.upholds_rooting P).self.expression True
  | specifier n => exact L.post ((n.upholds_rooting P).self.specifier True) fun _ _ _ => trivial
  | declarator n hbase =>
    have hdeclarator := (n.upholds_rooting P).self.declarator True _ fun _ => hwithin hbase
    exact L.post hdeclarator fun _ _ _ => trivial
  | declaration n => exact (n.upholds_rooting P).self.declaration True
  | statement n => exact (n.upholds_rooting P).self.statement True
  | classHead n => exact L.post DeclaringLogic.classHead fun _ _ _ => trivial
  | classSpec n =>
    unfold Node.checkClassSpec
    rw [n.phrase_clause]
    exact L.post (DeclaringLogic.classSpec (n.upholds_rooting_clause P)) fun _ _ _ => trivial
  | function n =>
    exact L.post (DeclaringLogic.declareFunctionDef (n.upholds_rooting_clause P))
      fun _ _ _ => trivial
  | report e position => exact .report e position
  | log e => exact L.log e
  | newClass name => exact L.post (.newClass name) fun _ _ _ => trivial
  | declare name position hty =>
    exact .declare name position fun _ => ⟨hwithin hty, fun _ _ => .inr trivial⟩
  | setAccess access => exact L.setAccess access
  | markComplete c => exact L.markComplete c

end Checker.Step

/-! ### Grounded states -/

namespace Checker.Grounded

variable {s s' : Checker}

/-- Grounded states are steady. -/
theorem steady (h : s.Grounded) : s.Steady := by
  refine ⟨h.settled, fun c hc => ?_⟩
  obtain ⟨f, hf, hkind⟩ := List.mem_map.mp hc
  have hcls : f.cls? = some c := by
    unfold Frame.cls?
    rw [hkind]
  exact h.made (SymbolTable.mentioned_of_cls? hf hcls)

/-- What scopes and members mention has been made. -/
theorem rootedIn (h : s.Grounded) {P : Nat ⊕ Nat → Prop} (hP : ∀ x, s.symbols.Made x → P x) :
    s.symbols.RootedIn P := by
  refine ⟨fun x hx => hP x (h.made hx), fun i hi => ?_⟩
  rw [Array.getElem?_eq_none (Nat.le_of_not_lt fun hlt => hi (hP (.inl i) hlt))]
  rfl

/-- A step that leads to steady states and mentions only what has been made. -/
theorem of_step (h : s.Grounded) {α : Type} {x : Check α} {a : α} {p : Checker → Prop}
    {Q : α → Checker → Prop} {R : (Nat ⊕ Nat → Prop) → α → Prop}
    (hsteady : x.Steadies p Q) (hp : p s)
    (hroots : ∀ P : Nat ⊕ Nat → Prop, (∀ y, s.symbols.Made y → P y) → x.Roots P True (R P))
    (hrun : x s = .ok a s') :
    s'.Grounded ∧ s.Retains False [] [] s' ∧ s.symbols.KeepsMade s'.symbols ∧ Q a s' ∧
      R s'.symbols.Made a := by
  have hretains := hsteady.lasting.retains h.settled hrun
  obtain ⟨hs', hQ⟩ := hsteady.settled s a s' h.steady hp hrun
  have hkeeps := (hroots (fun _ => True) fun _ _ => trivial).made s a s' hrun
  have hmade : ∀ y, s.symbols.Made y → s'.symbols.Made y := fun y hy => hkeeps.made hy
  obtain ⟨hrooted, hR⟩ := (hroots _ hmade).holds trivial s a s' (h.rootedIn hmade) hrun
    ⟨fun _ _ hi => hi, fun _ _ hc => hc⟩
  refine ⟨⟨⟨?_, ?_, ?_⟩, hs', ?_⟩, hretains, hkeeps, hQ, hR⟩
  · exact fun f hf x hx => hrooted.mentioned x (.inl ⟨f, hf, hx⟩)
  · exact fun b hb x hx => hrooted.mentioned x (.inr ⟨b, hb, hx⟩)
  · rw [hretains.returns]
    exact fun ty hty x hx => hmade x (h.returns ty hty x hx)
  · obtain ⟨f, hf, houtside⟩ := h.outside
    have hkind : f.kind ∈ s'.symbols.frames.map Frame.kind := by
      rw [hretains.symbols.kinds]
      exact List.mem_map_of_mem hf
    obtain ⟨f', hf', hkind⟩ := List.mem_map.mp hkind
    refine ⟨f', hf', ?_⟩
    unfold Frame.isClassBody Frame.cls? at houtside ⊢
    rwa [hkind]

/-- Each step of a check leads from a grounded state to another one. -/
theorem step (h : s.Grounded) {α : Type} {x : Check α} {a : α} (hx : s.Step x)
    (hrun : x s = .ok a s') :
    s'.Grounded ∧ s.Retains False [] [] s' ∧ s.symbols.KeepsMade s'.symbols := by
  obtain ⟨hs', hretains, hmade, -⟩ :=
    h.of_step (R := fun _ _ => True) hx.steadies trivial (fun _ => hx.roots) hrun
  exact ⟨hs', hretains, hmade⟩

/-- A scope is opened, that of a class only if the class has been made. -/
theorem opened (h : s.Grounded) {kind : FrameKind}
    (hkind : ∀ c, kind = .classBody c → c.id < s.symbols.classes.size) :
    (s.opened kind).Grounded := by
  have hrooted := (h.rootedIn fun _ hx => hx).push hkind
  refine ⟨⟨fun f hf x hx => ?_, h.members, h.returns⟩, h.settled.opened kind, ?_⟩
  · exact hrooted.mentioned x (.inl ⟨f, hf, hx⟩)
  · obtain ⟨f, hf, houtside⟩ := h.outside
    exact ⟨f, List.mem_cons_of_mem _ hf, houtside⟩

/-- A function is entered whose result mentions only what has been made. -/
theorem enterFunction (h : s.Grounded) {result : Ty} (hresult : result.Within s.symbols.Made) :
    (s.enterFunction result).Grounded := by
  refine ⟨⟨h.scopes, h.members, fun ty hty => ?_⟩, h.settled.enterFunction result, h.outside⟩
  rcases List.mem_cons.mp hty with rfl | hty
  · exact hresult
  · exact h.returns ty hty

end Checker.Grounded

/-- A function that mentions only what has been made does so later on. -/
theorem FunctionBody.Sound.mono {P P' : Nat ⊕ Nat → Prop} {b : FunctionBody}
    (h : b.Sound (.rooted P) fun _ => True) (hP : ∀ x, P x → P' x) :
    b.Sound (.rooted P') fun _ => True where
  toAgrees := h.toAgrees
  types f hf ty hty x hx := hP x (h.types f hf ty hty x hx)
  objects _ _ _ _ _ _ _ _ := trivial
  permitted f hf := hP _ (h.permitted f hf)
  whole x hx := hP x (h.whole x hx)
  cls c hc := hP _ (h.cls c hc)

namespace Checker.ComesTo

variable {s s' : Checker}

/-- In the course of a check, states stay grounded. What has been made is not unmade, and what is
mentioned is not forgotten, so a function body can still be checked later on. -/
theorem keeps (h : s.ComesTo s') (hs : s.Grounded) :
    s'.Grounded ∧ s.symbols.KeepsMade s'.symbols ∧
      ∀ x, s.allMentions.Has x → s'.allMentions.Has x := by
  induction h with
  | refl => exact ⟨hs, .refl _, fun _ hx => hx⟩
  | step _ hx hrun ih =>
    obtain ⟨hs₁, hmade, hmentions⟩ := ih hs
    obtain ⟨hs₂, hretains, hmade₂⟩ := hs₁.step hx hrun
    exact ⟨hs₂, hmade.trans hmade₂, fun x hx => hretains.allMentions (hmentions x hx)⟩
  | @body n b _ _ s₁ s₂ _ _ hdeclare _ hcheck ih ih₂ =>
    obtain ⟨hs₀, hmade, hmentions⟩ := ih hs
    obtain ⟨hs₁, hretains, hmade₁, hanchored, hsound⟩ :=
      hs₀.of_step (R := fun P => FunctionBody.Sound (.rooted P) fun _ => True)
        (Steadies.declareFunctionDef n.runs_steady_clause) trivial
        (fun P _ => DeclaringLogic.declareFunctionDef (n.upholds_rooting_clause P)) hdeclare
    obtain ⟨hs₂, hmade₂, hmentions₂⟩ := ih₂ hs₁
    have hruns := Clause.declareFunctionDef_yields n.runs_steady_clause _ b s₁ hdeclare
    have hsteady := FunctionBody.steadies_check (FunctionBody.steadies_run hruns)
    have hroots : ∀ P, (∀ x, s₂.symbols.Made x → P x) → b.check.Roots P True fun _ => True := by
      intro P hP
      have hupholds := n.upholds_rooting_clause P
      have hbody := DeclaringLogic.declareFunctionDef_yields hupholds _ b s₁ hdeclare
      exact DeclaringLogic.checkBody hbody fun _ => hsound.mono fun x hx => hP x (hmade₂.made hx)
    obtain ⟨hs₃, hretains₃, hmade₃, -⟩ := hs₂.of_step (R := fun _ _ => True) hsteady
      (hanchored.mono hmade₂.classes hmentions₂) hroots hcheck
    refine ⟨hs₃, ((hmade.trans hmade₁).trans hmade₂).trans hmade₃, fun x hx => ?_⟩
    exact hretains₃.allMentions (hmentions₂ x (hretains.allMentions (hmentions x hx)))
  | opened _ hkind ih =>
    obtain ⟨hs₁, hmade, hmentions⟩ := ih hs
    exact ⟨hs₁.opened hkind, ⟨hmade.functions, hmade.classes⟩,
      fun x hx => allMentions_opened (hmentions x hx) _⟩
  | entered _ hresult ih =>
    obtain ⟨hs₁, hmade, hmentions⟩ := ih hs
    exact ⟨hs₁.enterFunction hresult, hmade, fun x hx =>
      allMentions_enterFunction (hmentions x hx) _⟩
  | counted loops switches _ ih =>
    obtain ⟨hs₁, hmade, hmentions⟩ := ih hs
    exact ⟨⟨⟨hs₁.scopes, hs₁.members, hs₁.returns⟩, ⟨hs₁.settled.bodies, hs₁.settled.classes⟩,
      hs₁.outside⟩, hmade, hmentions⟩

end Checker.ComesTo

/-- Every state that a check comes to is grounded. -/
theorem Checker.grounded_of_comesTo {config : Config} {s : Checker}
    (h : (Checker.start config).ComesTo s) : s.Grounded :=
  (h.keeps (grounded_start config)).1

end CWithClasses
