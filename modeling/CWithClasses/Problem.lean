import CWithClasses.Text.Quoted
import CWithClasses.Tree.Position

/-!
# Semantic errors

What can be wrong with a checked program, and how it is said. Semantic errors are collected
while the check goes on; `Diagnostic` puts a problem to the place where it was found.
-/

namespace CWithClasses

open Text (quote)

/-- The kinds of semantic errors. Types are given by their texts. -/
inductive Problem where
  | redeclaration (name : String)
  | notFound (name : String)
  | unknownIdentifier (name : String)
  | typeMismatch (expected received : String)
  | returnMismatch (expected received : String)
  | arityMismatch (expected : String) (received : Nat)
  | privateMember (cls member : String)
  | illegalJump (statement : String)
  | unsupported (construct : String)
  deriving DecidableEq, Repr

namespace Problem

/-- The name of the kind of a problem. -/
def name : Problem → String
  | redeclaration _ => "RedeclarationError"
  | notFound _ => "NotFoundError"
  | unknownIdentifier _ => "UnknownIdentifierError"
  | typeMismatch _ _ => "TypeMismatchError"
  | returnMismatch _ _ => "RetTypeMismatchError"
  | arityMismatch _ _ => "ArityMismatchError"
  | privateMember _ _ => "AccessError"
  | illegalJump _ => "IllegalJumpError"
  | unsupported _ => "UnsupportedError"

/-- The plain wording of a problem. -/
def message : Problem → String
  | redeclaration name => quote name ++ " redeclared in the same scope"
  | notFound name => quote name ++ " not found"
  | unknownIdentifier name => "unknown identifier " ++ quote name
  | typeMismatch expected received =>
      "types do not match: expected " ++ quote expected ++ ", received " ++ quote received
  | returnMismatch expected received =>
      "return type does not match: expected " ++ quote expected ++ ", received " ++
        quote received
  | arityMismatch expected received =>
      "wrong number of arguments: expected " ++ quote expected ++ ", received " ++
        toString received
  | privateMember cls member => "member " ++ quote member ++ " of " ++ quote cls ++ " is private"
  | illegalJump statement => statement ++ " outside of a loop or switch"
  | unsupported construct => construct ++ " is not supported"

/-- The advice that goes with a problem. Nothing can be advised on an unsupported construct. -/
def tip? : Problem → Option String
  | redeclaration name => some s!"`{name}` is already declared in this scope"
  | notFound name => some s!"`{name}` is not declared here"
  | unknownIdentifier name => some s!"`{name}` is not declared, did you misspell it?"
  | typeMismatch expected received => some s!"Expected type `{expected}`, received `{received}`"
  | returnMismatch expected received =>
      some s!"Function returns `{expected}`, but `{received}` is returned here"
  | arityMismatch expected received =>
      some s!"Expected {expected} arguments, received {received}"
  | privateMember cls member => some s!"`{member}` is a private member of `{cls}`"
  | illegalJump statement =>
      some s!"`{statement}` is not inside a loop or switch that it can apply to"
  | unsupported _ => none

end Problem

/-- A problem at its place. -/
structure Diagnostic where
  problem : Problem
  position : Position
  deriving DecidableEq, Repr

namespace Diagnostic

/-- A diagnostic gives the advice on its problem, or else its plain wording. -/
def render (d : Diagnostic) : String :=
  d.position.render ++ ": semantic error: " ++ d.problem.name ++ ": " ++
    d.problem.tip?.getD d.problem.message

end Diagnostic

end CWithClasses
