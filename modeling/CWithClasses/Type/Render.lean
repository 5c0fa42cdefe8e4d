import CWithClasses.Type.Basic

/-!
# Written types

Types are written inside out: the element before the size of an array, the result before the
parameters of a function, and all pointers in one run of stars behind a blank.
-/

namespace CWithClasses.Ty

/-- The stars of a pointer type follow one another; the first one is set off by a blank. -/
def starred (target : Ty) (text : String) : String :=
  if target.isPointer then text ++ "*" else text ++ " *"

mutual

/-- The text of a type. -/
def render : Ty → String
  | .int => "int"
  | .double => "double"
  | .char => "char"
  | .bool => "bool"
  | .void => "void"
  | .unknown => "<unknown>"
  | .object c => "class " ++ c.name
  | .array element size => element.render ++ "[" ++ toString size ++ "]"
  | .function _ result params _ => result.render ++ " (" ++ renderParams params ++ ")"
  | .pointer target => starred target target.render

/-- The texts of parameters, with commas between them. -/
def renderParams : List Ty → String
  | [] => ""
  | [t] => t.render
  | t :: rest => t.render ++ ", " ++ renderParams rest

end

end CWithClasses.Ty
