import CWithClasses.Config
import CWithClasses.Problem
import CWithClasses.Type.Render

/-!
# The log

A check keeps a log of what it does. Each event has a level and a wording; neither the
outcome of a check nor any later event depends on it.
-/

namespace CWithClasses

open Text (quote)

/-- How much an event matters. -/
inductive Level where
  | trace
  | debug
  | warn
  deriving DecidableEq, Repr

namespace Level

/-- The name under which a level is written. -/
def name : Level → String
  | trace => "TRACE"
  | debug => "DEBUG"
  | warn => "WARN"

end Level

/-- What a check reports about its own work. -/
inductive Event where
  | unknownHeader (text : String)
  | builtIn (name : String)
  | pushedScope (depth : Nat)
  | poppedScope (depth : Nat)
  | keptGlobalScope
  | releasedScope (bindings : Nat)
  | reported (position : Position) (problem : Problem)
  | limitReached (limit : Nat)
  | forwardDeclared (ty : Ty)
  | definedClass (ty : Ty) (publicMembers privateMembers : Nat)
  | definedFunction (name : String) (ty : Ty)
  | alreadyDefined (name : String)
  | finished (diagnostics dropped resolutions : Nat)

namespace Event

/-- The level of an event. -/
def level : Event → Level
  | unknownHeader _ | definedClass _ _ _ | definedFunction _ _ | finished _ _ _ => .debug
  | keptGlobalScope | limitReached _ | alreadyDefined _ => .warn
  | _ => .trace

/-- The wording of an event. -/
def message : Event → String
  | unknownHeader text => "ignoring unknown header " ++ quote text
  | builtIn name => "built-in " ++ name
  | pushedScope depth => s!"push scope, depth {depth}"
  | poppedScope depth => s!"pop scope, depth {depth}"
  | keptGlobalScope => "attempted to pop the global scope"
  | releasedScope bindings => s!"release scope with {bindings} bindings"
  | reported position problem => position.render ++ ": " ++ problem.message
  | limitReached limit => s!"diagnostic limit of {limit} reached, dropping the rest"
  | forwardDeclared ty => "forward declared " ++ ty.render
  | definedClass ty publicMembers privateMembers =>
      s!"defined {ty.render} with {publicMembers} public and {privateMembers} private members"
  | definedFunction name ty => s!"defined function {name}: {ty.render}"
  | alreadyDefined name => name ++ " already has a body"
  | finished diagnostics dropped resolutions =>
      s!"type check finished: {diagnostics} diagnostics ({dropped} dropped), " ++
        s!"{resolutions} resolutions"

/-- An event is written with its level first. -/
def render (e : Event) : String := e.level.name ++ " " ++ e.message

end Event

/-- The events of reading include lines: those that name no known header are ignored. -/
def Config.includeEvents (names : List String) : List Event :=
  (names.filter fun text => (Header.ofInclude? text).isNone).map .unknownHeader

end CWithClasses
