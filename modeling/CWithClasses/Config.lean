/-!
# Configuration

A configuration chooses the standard headers whose declarations are known from the start, and
how many diagnostics are kept before the rest are dropped.
-/

namespace CWithClasses

/-- The headers whose declarations are built in. -/
inductive Header where
  | iostream
  | cstdlib
  | cstring
  | cmath
  deriving DecidableEq, Repr

namespace Header

/-- All headers, in the order in which their declarations are made. -/
def all : List Header := [iostream, cstdlib, cstring, cmath]

/-- The name under which a header is written. -/
def name : Header → String
  | iostream => "Iostream"
  | cstdlib => "Cstdlib"
  | cstring => "Cstring"
  | cmath => "Cmath"

/-- The header of a given name. -/
def ofName? (text : String) : Option Header := all.find? fun h => h.name == text

/-- The file name of an include line, without the angle brackets around it. -/
def fileName (text : String) : String :=
  let inner := text.toList.dropWhile (· == '<')
  String.ofList (inner.reverse.dropWhile (· == '>')).reverse

/-- The header that an include line names, by its C or its C++ name. -/
def ofInclude? (text : String) : Option Header :=
  match fileName text with
  | "iostream" => some iostream
  | "cstdlib" | "stdlib.h" => some cstdlib
  | "cstring" | "string.h" => some cstring
  | "cmath" | "math.h" => some cmath
  | _ => none

end Header

/-- The choices that a check is run with. -/
structure Config where
  headers : List Header := Header.all
  maxDiagnostics : Option Nat := none
  deriving DecidableEq, Repr

namespace Config

/-- No headers and no limit. -/
def bare : Config := { headers := [] }

/-- The configuration with one more header. -/
def withHeader (c : Config) (h : Header) : Config := { c with headers := c.headers.insert h }

/-- The configuration with a limit on the diagnostics that are kept. -/
def withMaxDiagnostics (c : Config) (limit : Nat) : Config :=
  { c with maxDiagnostics := some limit }

/-- The headers of a list of include lines. Lines that name no known header are ignored. -/
def ofIncludes (names : List String) : Config :=
  names.foldl (fun c text => ((Header.ofInclude? text).map c.withHeader).getD c) bare

/-- Whether the declarations of a header are known. -/
def includes (c : Config) (h : Header) : Bool := c.headers.contains h

end Config

end CWithClasses
