/-!
# Types

A type is built from the primitive types and classes by pointers, arrays and functions. Two
classes of one name are different types, so a class is known by an identity beside its name.
A function type has an identity too: it tells whether that very function has a body.

`unknown` stands for the type of anything that has already been reported as wrong.
-/

namespace CWithClasses

/-- The identity of a class, together with the name that it was declared under. -/
structure ClassRef where
  id : Nat
  name : String
  deriving DecidableEq, Repr

/-- The types of the language. An array of size zero has no stated size. The first `required`
parameters of a function have no default argument. -/
inductive Ty where
  | int
  | double
  | char
  | bool
  | void
  | unknown
  | object (cls : ClassRef)
  | array (element : Ty) (size : Nat)
  | function (id : Nat) (result : Ty) (params : List Ty) (required : Nat)
  | pointer (target : Ty)
  deriving Repr, Inhabited

/-- The parts of a function type. -/
structure FunctionTy where
  id : Nat
  result : Ty
  params : List Ty
  required : Nat

namespace Ty

/-- The function type with the given parts. -/
def ofFunction (f : FunctionTy) : Ty := .function f.id f.result f.params f.required

/-- A type behind `n` pointers. -/
def pointers : Nat → Ty → Ty
  | 0, t => t
  | n + 1, t => .pointer (pointers n t)

/-- The type without its outermost pointers. -/
def base : Ty → Ty
  | .pointer t => t.base
  | t => t

/-- The number of outermost pointers. -/
def indirection : Ty → Nat
  | .pointer t => t.indirection + 1
  | _ => 0

/-- The name of the shape of a type behind its pointers. -/
def kindName : Ty → String
  | .int => "Int"
  | .double => "Double"
  | .char => "Char"
  | .bool => "Bool"
  | .void => "Void"
  | .unknown => "Unknown"
  | .object _ => "Class"
  | .array _ _ => "Array"
  | .function _ _ _ _ => "Function"
  | .pointer t => t.kindName

/-- Whether a type is a pointer. -/
def isPointer : Ty → Bool
  | .pointer _ => true
  | _ => false

/-- Whether nothing is known about a type, apart from how many pointers lead to it. -/
def isUnknown : Ty → Bool
  | .unknown => true
  | .pointer t => t.isUnknown
  | _ => false

/-- Whether a type is `void` itself. -/
def isVoid : Ty → Bool
  | .void => true
  | _ => false

/-- Whether a type is the pointer that is compatible with all others. -/
def isVoidPointer : Ty → Bool
  | .pointer .void => true
  | _ => false

/-- The rank of an arithmetic type; a type of higher rank holds the values of a lower one. -/
def rank? : Ty → Option Nat
  | .double => some 4
  | .int => some 3
  | .char => some 2
  | .bool => some 1
  | _ => none

/-- Whether a type has a rank. -/
def isArithmetic (t : Ty) : Bool := t.rank?.isSome

/-- Whether a type is arithmetic without fractions. -/
def isIntegral : Ty → Bool
  | .int | .char | .bool => true
  | _ => false

/-- The type of a value once it is used: an array becomes a pointer to its first element and
a function a pointer to itself. -/
def decay : Ty → Ty
  | .array element _ => .pointer element
  | .function id result params required => .pointer (.function id result params required)
  | t => t

/-- What a type points to once it has decayed. -/
def pointee? (t : Ty) : Option Ty :=
  match t.decay with
  | .pointer target => some target
  | _ => none

/-- Whether a value of the type can be tested for truth. -/
def isScalar (t : Ty) : Bool := t.isArithmetic || t.decay.isPointer

/-- The function that a value of the type calls: the function itself or the one that a single
pointer leads to. -/
def asFunction? : Ty → Option FunctionTy
  | .function id result params required => some ⟨id, result, params, required⟩
  | .pointer (.function id result params required) => some ⟨id, result, params, required⟩
  | _ => none

/-- The class behind any number of pointers. -/
def asClass? : Ty → Option ClassRef
  | .object c => some c
  | .pointer t => t.asClass?
  | _ => none

/-- The class of a type that is no pointer. -/
def objectClass? : Ty → Option ClassRef
  | .object c => some c
  | _ => none

/-- The function of a type that is no pointer. -/
def function? : Ty → Option FunctionTy
  | .function id result params required => some ⟨id, result, params, required⟩
  | _ => none

/-- Whether a type is one of the stream classes, told by its name. -/
def isStream : Ty → Bool
  | .object c => c.name == "ostream" || c.name == "istream"
  | _ => false

end Ty

end CWithClasses
