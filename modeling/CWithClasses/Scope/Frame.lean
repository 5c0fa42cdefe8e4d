import CWithClasses.Problem
import CWithClasses.Type.Basic

/-!
# Frames and member tables

A frame binds the names of one scope. The frame of a class body binds nothing itself: its
names are members, kept in the two tables of the class. A frame also remembers the classes
that were declared in it, because their members go when the frame goes.
-/

namespace CWithClasses

/-- Who may name a member: everyone, or only code that belongs to the class. -/
inductive Access where
  | pub
  | priv
  deriving DecidableEq, Repr

/-- Names and their types. No name occurs twice. -/
abbrev Bindings := List (String × Ty)

/-- What opened a scope. A `function` frame holds the parameters and the outermost block of a
function; a `classBody` frame stands for the inside of a class. -/
inductive FrameKind where
  | global
  | block
  | function
  | classBody (cls : ClassRef)
  deriving DecidableEq, Repr

/-- One scope. -/
structure Frame where
  kind : FrameKind
  bindings : Bindings := []
  classes : List ClassRef := []
  access : Access := .pub

namespace Frame

/-- The class whose body the frame stands for. -/
def cls? (f : Frame) : Option ClassRef :=
  match f.kind with
  | .classBody c => some c
  | _ => none

/-- Whether the frame stands for the inside of a class. -/
def isClassBody (f : Frame) : Bool := f.cls?.isSome

/-- The frame with one more declared class. A class is recorded once. -/
def record (f : Frame) (c : ClassRef) : Frame :=
  if f.classes.any fun known => known.id == c.id then f
  else { f with classes := f.classes ++ [c] }

end Frame

/-- The members of a class. No name is in both tables. A class is complete once its body has
been read. -/
structure ClassBody where
  publicMembers : Bindings := []
  privateMembers : Bindings := []
  complete : Bool := false

namespace ClassBody

/-- The table of an access region. -/
def table (b : ClassBody) : Access → Bindings
  | .pub => b.publicMembers
  | .priv => b.privateMembers

/-- A member and who may name it. -/
def member? (b : ClassBody) (name : String) : Option (Access × Ty) :=
  match b.publicMembers.lookup name with
  | some t => some (.pub, t)
  | none => (b.privateMembers.lookup name).map fun t => (.priv, t)

/-- The members with a new one in the table of an access region. A name that is already a
member is refused. -/
def add (b : ClassBody) (name : String) (t : Ty) (access : Access) :
    Except Problem ClassBody :=
  match b.member? name with
  | some _ => .error (.redeclaration name)
  | none =>
      match access with
      | .pub => .ok { b with publicMembers := (name, t) :: b.publicMembers }
      | .priv => .ok { b with privateMembers := (name, t) :: b.privateMembers }

/-- The class without its members. -/
def clear (b : ClassBody) : ClassBody := { b with publicMembers := [], privateMembers := [] }

end ClassBody

end CWithClasses
