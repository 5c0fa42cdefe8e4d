import CWithClasses.Scope.Frame
import CWithClasses.Type.Render

/-!
# The symbol table

The symbol table is the stack of the scopes that are open, the innermost one first, together
with the classes and functions that the types in it refer to. A name is looked up from the
innermost scope outwards; a new name is always bound in the innermost one.

Classes and functions are numbered as they are made. A class owns its member tables, and a
function owns the frame of its body once it has one.
-/

namespace CWithClasses

/-- The open scopes, and all classes and functions made so far. -/
structure SymbolTable where
  current : Frame := { kind := .global }
  outer : List Frame := []
  classes : Array ClassBody := #[]
  bodies : Array (Option Frame) := #[]

namespace SymbolTable

/-- A table that holds an empty global scope only. -/
def empty : SymbolTable := {}

/-- The open scopes, the innermost one first. -/
def frames (t : SymbolTable) : List Frame := t.current :: t.outer

/-- The number of open scopes. -/
def depth (t : SymbolTable) : Nat := t.outer.length + 1

/-- The outermost scope. -/
def outermost (t : SymbolTable) : Frame := t.outer.getLast?.getD t.current

/-! ### Classes and functions -/

/-- The members of a class. -/
def classBody (t : SymbolTable) (c : ClassRef) : ClassBody := t.classes[c.id]?.getD {}

/-- The table with the members of a class changed. -/
def modifyClass (t : SymbolTable) (c : ClassRef) (f : ClassBody → ClassBody) : SymbolTable :=
  { t with classes := t.classes.modify c.id f }

/-- A new class without members. -/
def newClass (t : SymbolTable) (name : String) : ClassRef × SymbolTable :=
  (⟨t.classes.size, name⟩, { t with classes := t.classes.push {} })

/-- A new function without a body. -/
def newFunction (t : SymbolTable) (result : Ty) (params : List Ty) (required : Nat) :
    Ty × SymbolTable :=
  (.function t.bodies.size result params required, { t with bodies := t.bodies.push none })

/-- The frame of the body of a function. -/
def body? (t : SymbolTable) (f : FunctionTy) : Option Frame := t.bodies[f.id]?.join

/-- Whether a type is a function, or a single pointer to one, that has a body. -/
def isDefined (t : SymbolTable) (ty : Ty) : Bool :=
  match ty.asFunction? with
  | some f => (t.body? f).isSome
  | none => false

/-- The table in which a function has got its body. A function that already has one is
refused another. One that was made elsewhere is given its place first. -/
def define? (t : SymbolTable) (f : FunctionTy) (body : Frame) : Option SymbolTable :=
  match t.body? f with
  | some _ => none
  | none =>
      let bodies := t.bodies.rightpad (f.id + 1) none
      some { t with bodies := bodies.modify f.id fun _ => some body }

/-- A member of a class and who may name it. -/
def member? (t : SymbolTable) (c : ClassRef) (name : String) : Option (Access × Ty) :=
  (t.classBody c).member? name

/-- Whether the body of a class has been read. -/
def isComplete (t : SymbolTable) (c : ClassRef) : Bool := (t.classBody c).complete

/-- The table in which the body of a class has been read. -/
def markComplete (t : SymbolTable) (c : ClassRef) : SymbolTable :=
  t.modifyClass c fun b => { b with complete := true }

/-- The table in which a class has lost its members. -/
def clear (t : SymbolTable) (c : ClassRef) : SymbolTable := t.modifyClass c ClassBody.clear

/-- The table in which a class has one more member. -/
def addMember (t : SymbolTable) (c : ClassRef) (name : String) (ty : Ty) (access : Access) :
    Except Problem SymbolTable :=
  match (t.classBody c).add name ty access with
  | .ok b => .ok (t.modifyClass c fun _ => b)
  | .error p => .error p

/-! ### Scopes -/

/-- The table with a new innermost scope. -/
def push (t : SymbolTable) (kind : FrameKind) : SymbolTable :=
  { t with current := { kind }, outer := t.current :: t.outer }

/-- The innermost scope, and the table without it. The last scope stays. -/
def pop? (t : SymbolTable) : Option (Frame × SymbolTable) :=
  match t.outer with
  | [] => none
  | next :: outer => some (t.current, { t with current := next, outer })

/-- The table after a frame is gone for good: the classes declared in it lose their members. -/
def discard (t : SymbolTable) (f : Frame) : SymbolTable := f.classes.foldl clear t

/-- What a name means in a single scope. -/
def findIn (t : SymbolTable) (f : Frame) (name : String) : Option Ty :=
  match f.cls? with
  | some c => (t.member? c name).map (·.2)
  | none => f.bindings.lookup name

/-- What a name means in the innermost scope. -/
def lookupLocal? (t : SymbolTable) (name : String) : Option Ty := t.findIn t.current name

/-- What a name means, seen from the innermost scope outwards. -/
def lookup? (t : SymbolTable) (name : String) : Option Ty :=
  t.frames.findSome? fun f => t.findIn f name

/-- What a name means, or the problem that it means nothing. -/
def lookup (t : SymbolTable) (name : String) : Except Problem Ty :=
  match t.lookup? name with
  | some ty => .ok ty
  | none => .error (.notFound name)

/-- The table in which a name is bound in the innermost scope. In a class body the name
becomes a member in the current access region. A name that is bound there already is refused. -/
def insert (t : SymbolTable) (name : String) (ty : Ty) : Except Problem SymbolTable :=
  match t.current.cls? with
  | some c => t.addMember c name ty t.current.access
  | none =>
      match t.current.bindings.lookup name with
      | some _ => .error (.redeclaration name)
      | none =>
          .ok { t with current :=
            { t.current with bindings := (name, ty) :: t.current.bindings } }

/-- A member of a class. Private members are seen from inside the class only. -/
def memberLookup (t : SymbolTable) (c : ClassRef) (name : String) (inside : Bool) :
    Except Problem Ty :=
  match t.member? c name with
  | some (.pub, ty) => .ok ty
  | some (.priv, ty) => if inside then .ok ty else .error (.privateMember c.name name)
  | none => .error (.notFound (c.name ++ "::" ++ name))

/-- Whether the body of a class is among the open scopes. -/
def insideClass (t : SymbolTable) (c : ClassRef) : Bool :=
  t.frames.any fun f => f.cls?.any fun d => d.id == c.id

/-- The innermost class whose body is open. -/
def currentClass? (t : SymbolTable) : Option ClassRef := t.frames.findSome? Frame.cls?

/-- The innermost class of a name whose body is open. Inside its body, the name of a class is
also that of its constructor. -/
def openClass? (t : SymbolTable) (name : String) : Option ClassRef :=
  t.frames.findSome? fun f => f.cls?.filter fun c => c.name == name

/-- What a name means as a type: an open class of the name before anything else. -/
def lookupTypeName (t : SymbolTable) (name : String) : Except Problem Ty :=
  match t.openClass? name with
  | some c => .ok (.object c)
  | none => do
      let ty ← t.lookup name
      match ty with
      | .object c => .ok (.object c)
      | _ => .error (.typeMismatch "type name" ty.render)

/-- The access region of the innermost scope. -/
def access (t : SymbolTable) : Access := t.current.access

/-- The table with another access region in its innermost scope. -/
def setAccess (t : SymbolTable) (access : Access) : SymbolTable :=
  { t with current := { t.current with access } }

/-- The scopes with a class recorded in the innermost one that is no class body. -/
def recordClass (c : ClassRef) : List Frame → List Frame
  | [] => []
  | f :: rest => if f.isClassBody then f :: recordClass c rest else f.record c :: rest

/-- The table in which a class belongs to the innermost scope that is no class body. -/
def declareClass (t : SymbolTable) (c : ClassRef) : SymbolTable :=
  if t.current.isClassBody then { t with outer := recordClass c t.outer }
  else { t with current := t.current.record c }

/-- The table after all its scopes are gone for good, with a new empty global scope. -/
def release (t : SymbolTable) : SymbolTable :=
  { t.frames.foldl discard t with current := { kind := .global }, outer := [] }

end SymbolTable

end CWithClasses
