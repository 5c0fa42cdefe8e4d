import CWithClasses.Proofs.Logic.Open
import CWithClasses.Proofs.Logic.Tree

/-!
# Conforming trees are checked to the end

A fault stands for a tree that breaks the grammar, and for nothing else. Whatever is wrong with
the meaning of a tree is reported, and the check goes on. So a tree that conforms to the layout of
its class never leads to a fault.
-/

namespace CWithClasses

open Node (word tree)

/-- Whatever the state, the step has a result. -/
def Check.Succeeds {α : Type} (x : Check α) : Prop :=
  ∀ s, ∃ a s', x s = .ok a s'

/-- Steps that have a result. -/
def successRules : StepRules where
  triple _ x _ := x.Succeeds
  ret a _ := fun s => ⟨a, s, rfl⟩
  seq := by
    intro α β p x f R P Q hR hx hf s
    obtain ⟨a, s₁, hrun⟩ := hx s
    obtain ⟨b, s', hrest⟩ := hf a (hR s a s₁ hrun) s₁
    refine ⟨b, s', ?_⟩
    change EStateM.bind x f s = .ok b s'
    unfold EStateM.bind
    rw [hrun]
    exact hrest
  conseq hx _ _ := fun s => hx s

/-- Apart from the faults of the grammar, every step of a check has a result. -/
def successLogic : OpenLogic where
  toStepRules := successRules
  faults := False
  fault _ h := h.elim
  symbols := fun s => ⟨s.symbols, s, rfl⟩
  nesting hk := fun s => hk s.loops s.switches s.returns s
  log e := fun s => ⟨(), s.logged e, rfl⟩
  report e position _ := fun s => ⟨(), s.reported ⟨e, position⟩, rfl⟩
  change {_ f} _ _ := fun s => ⟨(), f s, rfl⟩
  afterwards := by
    intro α p x f Q _ _ hx s
    obtain ⟨a, s', hrun⟩ := hx s
    refine ⟨a, f s', ?_⟩
    unfold Check.afterwards
    rw [hrun]

instance : Fact successLogic.toStepLogic.statements := ⟨trivial⟩

/-- A tree that conforms to the class it is checked as has an outcome, whatever is declared in it
or used. -/
theorem exists_outcome_of_conforms {root : Node} (config : Config)
    (h : root.conforms root.rule.start = true) : ∃ o, typeCheck root config = .ok o := by
  have hsucceeds : root.check.Succeeds :=
    successLogic.toStepLogic.check (p := True) (.inr h)
  obtain ⟨ty, s, hrun⟩ := hsucceeds (.start config)
  refine ⟨s.outcome ty, ?_⟩
  rw [typeCheck_eq, hrun]

/-- A program in which nothing is right but the grammar:
`int x = missing; int x[99999999999999999999]; int f() { break; return "text" * x; }`. -/
def mistakenProgram : Node :=
  let int := word .intType "int"
  let x := word .identifier "x"
  let huge := word .intConst "99999999999999999999"
  { rule := .program
    children := [tree .declSeq [
      tree .simpleDecl [int, tree .initDecl [x, tree .initializer [word .identifier "missing"]]],
      tree .simpleDecl [int, tree .arrayDeclarator [x, huge]],
      tree .functionDef [int, tree .functionDeclarator [word .identifier "f", none],
        tree .compound [tree .statementSeq [
          tree .breakJump [],
          tree .returnJump [tree .multiply [word .stringLit "text", x]]]]]]] }

/-- The problems of the program are reported, and its check comes to an end. -/
theorem exists_outcome_mistakenProgram :
    mistakenProgram.conforms mistakenProgram.rule.start = true ∧
      (typeCheck mistakenProgram).toOption.map (·.errorNames) =
        some ["UnknownIdentifierError", "TypeMismatchError", "RedeclarationError",
          "IllegalJumpError", "TypeMismatchError"] ∧
      ∃ o, typeCheck mistakenProgram = .ok o :=
  ⟨by decide, by decide +kernel, exists_outcome_of_conforms {} (by decide)⟩

end CWithClasses
