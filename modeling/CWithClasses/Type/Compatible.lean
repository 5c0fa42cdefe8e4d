import CWithClasses.Type.Basic

/-!
# Equality and compatibility of types

Two types are the same if they are built alike from the same classes; the identity of a
function and its default arguments take no part. A type is compatible with an expected one if
a value of it may be used in its place.

* `sameType`: equality of types.
* `compatible`: use of a value where another type is expected.
* `commonArithmetic?`, `commonType?`: the type of two operands taken together.
* `initializable`: use of a value to initialize an object.
-/

namespace CWithClasses

mutual

/-- Whether two types are the same. -/
def sameType : Ty → Ty → Bool
  | .int, .int | .double, .double | .char, .char | .bool, .bool | .void, .void
  | .unknown, .unknown => true
  | .object c, .object d => c.id == d.id
  | .array s m, .array t n => m == n && sameType s t
  | .function _ r ps _, .function _ s qs _ => sameType r s && sameTypes ps qs
  | .pointer s, .pointer t => sameType s t
  | _, _ => false

/-- Whether two rows of types are the same, one by one. -/
def sameTypes : List Ty → List Ty → Bool
  | [], [] => true
  | s :: ss, t :: ts => sameType s t && sameTypes ss ts
  | _, _ => false

end

/-- Whether two arrays differ at most in a size that one of them leaves open. -/
def sameArray : Ty → Ty → Bool
  | .array s m, .array t n => (m == n || m == 0 || n == 0) && sameType s t
  | _, _ => false

/-- Whether an expected arithmetic type is at least as wide as the actual one. Nothing if one
of the two is not arithmetic. -/
def widens? (expected actual : Ty) : Option Bool := do
  let wide ← expected.rank?
  let narrow ← actual.rank?
  return narrow ≤ wide

/-- Whether nothing is known about one of two types, or they are the same. -/
def agree (expected actual : Ty) : Bool :=
  expected.isUnknown || actual.isUnknown || sameType expected actual

mutual

/-- Whether a value of the second type may be used where the first is expected. -/
def compatible : Ty → Ty → Bool
  | .pointer expected, actual =>
      agree (.pointer expected) actual ||
        match actual.decay with
        | .pointer target =>
            expected.isVoid || target.isVoid || compatibleTargets expected target
        | _ => false
  | .function i r ps m, actual =>
      agree (.function i r ps m) actual ||
        match actual with
        | .function _ s qs _ => compatible r s && compatibleParams ps qs
        | _ => false
  | expected, actual =>
      agree expected actual ||
        match widens? expected actual with
        | some wide => wide
        | none => sameArray expected actual

/-- Whether two pointers may stand for one another, given what they point to: pointers to
functions if the functions are compatible, any other pointers if their targets are the same. -/
def compatibleTargets : Ty → Ty → Bool
  | .pointer expected, .pointer actual => compatibleTargets expected actual
  | .function _ r ps _, .function _ s qs _ => compatible r s && compatibleParams ps qs
  | expected, actual => sameType expected actual

/-- Whether two rows of parameters are compatible, one by one. -/
def compatibleParams : List Ty → List Ty → Bool
  | [], [] => true
  | e :: es, a :: as => compatible e a && compatibleParams es as
  | _, _ => false

end

/-- Whether a function may be used where another is expected: the results and the parameters
are compatible, one by one. -/
def functionsCompatible (expected actual : FunctionTy) : Bool :=
  compatible expected.result actual.result && compatibleParams expected.params actual.params

/-- The wider of two arithmetic types; unknown if one of them is. -/
def commonArithmetic? (a b : Ty) : Option Ty :=
  if a.isUnknown || b.isUnknown then some .unknown
  else do
    let m ← a.rank?
    let n ← b.rank?
    return if n ≤ m then a else b

/-- The type that two branches have in common. -/
def commonType? (a b : Ty) : Option Ty :=
  match commonArithmetic? a b with
  | some t => some t
  | none =>
      if compatible a b then some a.decay
      else if compatible b a then some b.decay
      else none

/-- Whether a value may initialize an object of the declared type. Beyond compatible values, a
string literal fills an array of characters. -/
def initializable (declared value : Ty) : Bool :=
  compatible declared value ||
    match declared, value with
    | .array .char _, .pointer .char => true
    | _, _ => false

/-- Unary arithmetic widens `bool` and `char` to `int`. -/
def promote (t : Ty) : Ty := (commonArithmetic? t .int).getD t

/-- Whether two operands can be compared: arithmetic values with one another, and pointers of
which one is compatible with the other. -/
def comparable (a b : Ty) : Bool :=
  (a.isArithmetic && b.isArithmetic) ||
    (a.decay.isPointer && b.decay.isPointer &&
      (compatible a.decay b.decay || compatible b.decay a.decay))

/-- Whether two types are functions, not pointers to them, with the same result and
parameters. Default arguments take no part. -/
def sameSignature : Ty → Ty → Bool
  | .function _ r ps _, .function _ s qs _ => sameType r s && sameTypes ps qs
  | _, _ => false

end CWithClasses
