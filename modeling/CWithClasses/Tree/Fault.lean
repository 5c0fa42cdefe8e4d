import CWithClasses.Tree.Position
import CWithClasses.Tree.Rule

/-!
# Faults of a tree

A tree that does not follow the grammar stops the check: a mandatory child is missing, or a
production stands where it has no meaning. Such faults say nothing about the checked program;
they are kept apart from its semantic errors.
-/

namespace CWithClasses

/-- A place where a tree breaks the grammar. -/
inductive Fault where
  /-- A production, or its token, has no meaning in the given context. -/
  | unexpectedRule (rule : Rule) (context : String) (position : Position)
  /-- A child that the production always has is missing. -/
  | missingChild (rule : Rule) (index : Nat) (position : Position)
  deriving DecidableEq, Repr

namespace Fault

/-- The wording of a fault. -/
def message : Fault → String
  | unexpectedRule rule context position =>
      s!"{position.render}: no {context} handler for rule {rule.tag}"
  | missingChild rule index position =>
      s!"{position.render}: rule {rule.tag} is missing child {index}"

end Fault

end CWithClasses
