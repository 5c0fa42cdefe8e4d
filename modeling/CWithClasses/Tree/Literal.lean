/-!
# Integer literals

The spelling of an integer literal is a run of digits in one of three radices, followed by
any run of the letters `u`, `U`, `l` and `L`. The three shapes exclude one another: a
hexadecimal spelling starts with `0x` or `0X`, an octal one with `0` and a further digit, and
a decimal one is `0` itself or starts with another digit.
-/

namespace CWithClasses

/-- The three radices of integer literals. -/
inductive Radix where
  | decimal
  | octal
  | hexadecimal
  deriving DecidableEq, Repr

/-- The value of a hexadecimal digit, of either case. Other characters have the value zero. -/
def digitValue (c : Char) : Nat :=
  if '0' ≤ c ∧ c ≤ '9' then c.toNat - '0'.toNat
  else if 'a' ≤ c ∧ c ≤ 'f' then c.toNat - 'a'.toNat + 10
  else if 'A' ≤ c ∧ c ≤ 'F' then c.toNat - 'A'.toNat + 10
  else 0

/-- The letters that may follow the digits of an integer literal. -/
def isIntegerSuffix (c : Char) : Bool := c == 'u' || c == 'U' || c == 'l' || c == 'L'

namespace Radix

/-- The number of digits of a radix. -/
def base : Radix → Nat
  | decimal => 10
  | octal => 8
  | hexadecimal => 16

/-- The digits of a radix. -/
def isDigit : Radix → Char → Bool
  | decimal, c => '0' ≤ c && c ≤ '9'
  | octal, c => '0' ≤ c && c ≤ '7'
  | hexadecimal, c =>
      ('0' ≤ c && c ≤ '9') || ('a' ≤ c && c ≤ 'f') || ('A' ≤ c && c ≤ 'F')

/-- What follows the mark of a radix: `0x` or `0X` for hexadecimal, `0` for octal, and no
mark at all for decimal spellings. -/
def unmarked? : Radix → List Char → Option (List Char)
  | decimal, cs => some cs
  | octal, '0' :: cs => some cs
  | octal, _ => none
  | hexadecimal, '0' :: 'x' :: cs => some cs
  | hexadecimal, '0' :: 'X' :: cs => some cs
  | hexadecimal, _ => none

/-- A decimal spelling has no needless leading zero; the other radices allow any. -/
def acceptsDigits : Radix → List Char → Bool
  | decimal, ds => ds == ['0'] || (ds != [] && ds.head? != some '0')
  | _, ds => ds != []

/-- The digits of a spelling in the given radix, or nothing if it is no such spelling. -/
def digits? (r : Radix) (cs : List Char) : Option (List Char) :=
  match r.unmarked? cs with
  | none => none
  | some rest =>
      let ds := rest.takeWhile r.isDigit
      if r.acceptsDigits ds && (rest.dropWhile r.isDigit).all isIntegerSuffix then some ds
      else none

/-- The number that a run of digits stands for. -/
def value (r : Radix) (ds : List Char) : Nat :=
  ds.foldl (fun n c => r.base * n + digitValue c) 0

end Radix

/-- Integer literals have to fit into a word of 64 bits. -/
def wordSize : Nat := 18446744073709551616

/-- The radix of an integer spelling. -/
def classifyInteger (text : String) : Option Radix :=
  [Radix.hexadecimal, .octal, .decimal].find? fun r => (r.digits? text.toList).isSome

/-- The value of an integer spelling, provided that it fits into a word. -/
def parseInteger (text : String) : Option Nat := do
  let radix ← classifyInteger text
  let digits ← radix.digits? text.toList
  let n := radix.value digits
  if n < wordSize then some n else none

end CWithClasses
