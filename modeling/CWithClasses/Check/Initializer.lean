import CWithClasses.Check.Call

/-!
# Initializers

An object is initialized by a value, by arguments in parentheses or by a list in braces. An
array whose size is left open takes it from the list.
-/

namespace CWithClasses

open Check

/-- Records that a list has more items than the declared type has room for. -/
def reportSurplus (declared : Ty) (count : Nat) (position : Position) : Check Unit :=
  report (.typeMismatch declared.render s!"{count} initializers") position

/-- Checks all items of a list against one type. -/
def initializeAll (ty : Ty) (items : List Phrase) : Check Unit :=
  items.forM fun item => do let _ ← item.roles.initializer ty

/-- Checks a list in braces. The items for an object of a class are not compared with its
members. -/
def checkBraces (declared : Ty) (items : List Phrase) (position : Position) : Check Ty :=
  match declared with
  | .array element size => do
      initializeAll element items
      if size = 0 then return .array element items.length
      else
        if size < items.length then reportSurplus declared items.length position
        return declared
  | .object _ => do
      initializeAll .unknown items
      return declared
  | _ => do
      initializeAll declared items
      if 1 < items.length then reportSurplus declared items.length position
      return declared

/-- The meaning of an initializer, which may be an expression. -/
def Clause.initializer (c : Clause) (expression : Check Ty) (declared : Ty) : Check Ty :=
  match c.rule with
  | .initializer | .constantInit => do (← c.part 0).roles.initializer declared
  | .braceInit => checkBraces declared (Phrase.flatten? (c.part? 0)) c.position
  | .parenInit => do
      let arguments ← checkArguments (c.part? 0)
      checkConstruction declared arguments c.position
      return declared
  | _ => do
      let value ← expression
      unless declared.isUnknown || initializable declared value do
        report (.typeMismatch declared.render value.render) c.position
      return declared

end CWithClasses
