import CWithClasses.Scope.SymbolTable

/-!
# Lifetimes of functions and classes

A function lives as long as anything mentions it: a binding, a member, another type, or
whoever holds on to a type from outside. When a function is gone, so is the frame of its body,
and the classes that were declared in that frame lose their members. A class that nothing
mentions any more takes its members with it.

`SymbolTable.reclaim` lets go of everything that is mentioned nowhere. Functions and classes
that only mention one another in a circle stay.
-/

namespace CWithClasses

/-- The functions and classes that something mentions, by their numbers. -/
structure Mentions where
  functions : List Nat := []
  classes : List Nat := []

namespace Mentions

/-- What either of two things mentions. -/
def append (a b : Mentions) : Mentions :=
  ⟨a.functions ++ b.functions, a.classes ++ b.classes⟩

instance : Append Mentions := ⟨append⟩

/-- What any of some things mentions. -/
def ofList {α : Type} (f : α → Mentions) (items : List α) : Mentions :=
  items.foldr (fun a rest => f a ++ rest) {}

/-- The mention of a class. -/
def ofClass (c : ClassRef) : Mentions := { classes := [c.id] }

end Mentions

mutual

/-- What a type mentions. -/
def Ty.mentions : Ty → Mentions
  | .object c => .ofClass c
  | .array element _ => element.mentions
  | .function id result params _ =>
      { functions := [id] } ++ result.mentions ++ Ty.mentionsOf params
  | .pointer target => target.mentions
  | _ => {}

/-- What some types mention. -/
def Ty.mentionsOf : List Ty → Mentions
  | [] => {}
  | t :: rest => t.mentions ++ Ty.mentionsOf rest

end

/-- What the types of some bindings mention. -/
def Bindings.mentions (b : Bindings) : Mentions := .ofList (fun entry => entry.2.mentions) b

/-- What a frame mentions: its bindings, the classes declared in it, and its own class. -/
def Frame.mentions (f : Frame) : Mentions :=
  Bindings.mentions f.bindings ++ .ofList .ofClass f.classes ++ .ofList .ofClass f.cls?.toList

namespace ClassBody

/-- What the members of a class mention. -/
def mentions (b : ClassBody) : Mentions :=
  Bindings.mentions b.publicMembers ++ Bindings.mentions b.privateMembers

/-- Whether a class has no members. -/
def isEmpty (b : ClassBody) : Bool := b.publicMembers.isEmpty && b.privateMembers.isEmpty

end ClassBody

namespace SymbolTable

/-- What a table mentions in its scopes, members and function bodies. -/
def mentions (t : SymbolTable) : Mentions :=
  .ofList Frame.mentions t.frames ++ .ofList ClassBody.mentions t.classes.toList ++
    .ofList Frame.mentions (t.bodies.toList.filterMap id)

/-- The functions that have a body and are not mentioned. -/
def staleBodies (t : SymbolTable) (held : Mentions) : List Nat :=
  (List.range t.bodies.size).filter fun i =>
    t.bodies[i]?.join.isSome && !held.functions.contains i

/-- The classes that have members and are not mentioned. -/
def staleClasses (t : SymbolTable) (held : Mentions) : List Nat :=
  (List.range t.classes.size).filter fun i =>
    t.classes[i]?.any (fun b => !b.isEmpty) && !held.classes.contains i

/-- The table without the body of a function. -/
def dropBody (t : SymbolTable) (id : Nat) : SymbolTable :=
  match t.bodies[id]?.join with
  | some frame => { t with bodies := t.bodies.modify id fun _ => none }.discard frame
  | none => t

/-- The table without the members of a class, given by its number. -/
def dropMembers (t : SymbolTable) (id : Nat) : SymbolTable :=
  { t with classes := t.classes.modify id ClassBody.clear }

/-- Lets go of what is not mentioned, up to `n` times in a row: what goes may have been the
last to mention something else. -/
def reclaimRounds (held : Mentions) : Nat → SymbolTable → SymbolTable
  | 0, t => t
  | n + 1, t =>
      let mentioned := held ++ t.mentions
      let bodies := t.staleBodies mentioned
      let classes := t.staleClasses mentioned
      if bodies.isEmpty && classes.isEmpty then t
      else reclaimRounds held n (classes.foldl dropMembers (bodies.foldl dropBody t))

/-- The table without the bodies and members that nothing mentions, neither inside the table
nor among what is held from outside. Each round drops a body or the members of a class, so
there are no more rounds than bodies and classes. -/
def reclaim (t : SymbolTable) (held : Mentions) : SymbolTable :=
  reclaimRounds held (t.bodies.size + t.classes.size) t

end SymbolTable

end CWithClasses
