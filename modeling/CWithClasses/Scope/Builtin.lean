import CWithClasses.Config
import CWithClasses.Scope.SymbolTable

/-!
# Built-in declarations

The null pointer is always known. Each standard header of the configuration adds its own
declarations to the global scope.
-/

namespace CWithClasses

/-- How a built-in name is declared. -/
inductive Builtin where
  /-- A value of a type that mentions no class. -/
  | value (ty : Ty)
  /-- A complete class without members. -/
  | newClass
  /-- An object of a class that was declared before. -/
  | objectOf (cls : String)
  /-- A function without default arguments. -/
  | function (result : Ty) (params : List Ty)

namespace Builtin

/-- A text is a pointer to its first character. -/
def text : Ty := .pointer .char

end Builtin

open Builtin in
/-- The declarations of a header, in order. -/
def Header.builtins : Header → List (String × Builtin)
  | .iostream =>
      [("ostream", .newClass), ("istream", .newClass), ("cout", .objectOf "ostream"),
       ("cerr", .objectOf "ostream"), ("cin", .objectOf "istream"), ("endl", .value text)]
  | .cstdlib =>
      [("rand", .function .int []), ("srand", .function .void [.int]),
       ("abs", .function .int [.int]), ("exit", .function .void [.int]),
       ("atoi", .function .int [text])]
  | .cstring =>
      [("strlen", .function .int [text]), ("strcmp", .function .int [text, text]),
       ("strcpy", .function text [text, text])]
  | .cmath =>
      [("sqrt", .function .double [.double]), ("pow", .function .double [.double, .double]),
       ("fabs", .function .double [.double])]

/-- All declarations of a configuration, in order. -/
def Config.builtins (c : Config) : List (String × Builtin) :=
  ("NULL", .value (.pointer .void)) :: (Header.all.filter c.includes).flatMap Header.builtins

namespace SymbolTable

/-- The type of a built-in declaration, made in a table. -/
def builtinTy (t : SymbolTable) (name : String) : Builtin → Ty × SymbolTable
  | .value ty => (ty, t)
  | .newClass =>
      let (c, t) := t.newClass name
      (.object c, (t.markComplete c).declareClass c)
  | .objectOf cls => ((t.lookup? cls).getD .unknown, t)
  | .function result params => t.newFunction result params params.length

/-- The table with a built-in declaration. -/
def declareBuiltin (t : SymbolTable) (entry : String × Builtin) : SymbolTable :=
  let (ty, t) := t.builtinTy entry.1 entry.2
  match t.insert entry.1 ty with
  | .ok t => t
  | .error _ => t

/-- A table whose global scope holds the declarations of a configuration. -/
def populated (c : Config) : SymbolTable := c.builtins.foldl declareBuiltin empty

end SymbolTable

end CWithClasses
