/-!
# Source positions

Every token knows the line and the file that it was read from. Trees without any token
have the null position.
-/

namespace CWithClasses

/-- A line of a source file. -/
structure Position where
  line : Nat
  file : String
  deriving DecidableEq, Repr

namespace Position

/-- The position of a tree that holds no token. -/
def null : Position := ⟨0, "<null>"⟩

/-- A position is written with its file first. -/
def render (p : Position) : String := s!"{p.file}:{p.line}"

end Position

end CWithClasses
