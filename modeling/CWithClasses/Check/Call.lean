import CWithClasses.Check.Phrase
import CWithClasses.Type.Compatible

/-!
# Calls and constructions

The arguments of a call are checked against the parameters of the function. An object of a
class is constructed by a call of the member that has the name of the class; any other object
is constructed from at most one value.
-/

namespace CWithClasses

/-- An argument of a call. -/
structure Argument where
  ty : Ty
  position : Position

/-- Checks arguments one by one. -/
def checkArguments (p : Option Phrase) : Check (List Argument) :=
  (Phrase.flatten? p).mapM fun argument => do
    return ⟨← argument.roles.expression, argument.position⟩

/-- The wording of the number of arguments that a function takes. -/
def FunctionTy.arity (f : FunctionTy) : String :=
  if f.required = f.params.length then toString f.params.length
  else s!"{f.required} to {f.params.length}"

/-- Whether a function takes the given number of arguments. -/
def FunctionTy.takes (f : FunctionTy) (n : Nat) : Bool :=
  f.required ≤ n && n ≤ f.params.length

/-- Checks one argument against its parameter. -/
def checkArgument (param : Ty) (argument : Argument) : Check Unit :=
  unless compatible param argument.ty do
    Check.report (.typeMismatch param.render argument.ty.render) argument.position

/-- Checks number and types of the arguments of a call. The types are looked at only if the
number is right. -/
def checkCall (f : FunctionTy) (arguments : List Argument) (position : Position) : Check Unit :=
  if f.takes arguments.length then
    (f.params.zip arguments).forM fun (param, argument) => checkArgument param argument
  else Check.report (.arityMismatch f.arity arguments.length) position

/-- Whether the arguments are a single object of the class. -/
def isCopy (c : ClassRef) : List Argument → Bool
  | [argument] => argument.ty.objectClass?.any fun d => d.id == c.id
  | _ => false

/-- Checks the construction of an object of a class. A class without a constructor allows
only default and copy construction. -/
def checkConstructor (c : ClassRef) (arguments : List Argument) (position : Position) :
    Check Unit := do
  let table ← Check.symbols
  match table.memberLookup c c.name (table.insideClass c) with
  | .ok ty =>
      match ty.function? with
      | some f => checkCall f arguments position
      | none => return
  | .error (.notFound _) =>
      unless arguments.isEmpty || isCopy c arguments do
        Check.report (.arityMismatch "0" arguments.length) position
  | .error p => Check.report p position

/-- Checks the construction of an object of any type. -/
def checkConstruction (ty : Ty) (arguments : List Argument) (position : Position) :
    Check Unit :=
  if ty.isUnknown then return
  else
    match ty.objectClass? with
    | some c => checkConstructor c arguments position
    | none =>
        match arguments with
        | [] => return
        | [argument] =>
            unless initializable ty argument.ty do
              Check.report (.typeMismatch ty.render argument.ty.render) argument.position
        | _ => Check.report (.arityMismatch "0 to 1" arguments.length) position

end CWithClasses
