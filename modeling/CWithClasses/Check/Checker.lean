import CWithClasses.Check.Event
import CWithClasses.Scope.Builtin
import CWithClasses.Scope.Lifetime
import CWithClasses.Tree.Fault
import CWithClasses.Tree.Token

/-!
# The state of a check

`Checker` is everything that a check has found out so far, and `Check` is the monad of its
steps. A fault of the tree ends a check; the state is kept as it was when the fault was met.

Problems of the checked program do not end the check: `Check.report` records them, up to the
limit of the configuration, and the check goes on with an unknown type.

When a scope is closed for good, functions that were bound in it may be mentioned nowhere any
more. Their bodies go at once, and with them the members of the classes declared there, so
that the rest of the check does not find these members.
-/

namespace CWithClasses

/-- A use of a name, and the type that the name turned out to have. -/
structure Resolution where
  name : String
  position : Position
  ty : Ty

/-- The state of a check. The lists of diagnostics, resolutions and events grow at the end;
`returns` and `suspended` are stacks with the innermost function first. -/
structure Checker where
  symbols : SymbolTable := .empty
  diagnostics : List Diagnostic := []
  resolutions : List Resolution := []
  /-- The result types of the functions whose bodies are being checked. -/
  returns : List Ty := []
  /-- The number of loops around the current statement, inside its function. -/
  loops : Nat := 0
  /-- The number of switches around the current statement, inside its function. -/
  switches : Nat := 0
  /-- The loops and switches around each function that is being checked. -/
  suspended : List (Nat × Nat) := []
  /-- Whether the end of a loop or a switch was counted although none was. The counts do not say
  anything then. -/
  miscounted : Bool := false
  limit : Option Nat := none
  /-- The number of problems beyond the limit. -/
  dropped : Nat := 0
  log : List Event := []
  /-- What is held from outside of the check. -/
  held : Mentions := {}

namespace Checker

/-- The state with one more event in the log. -/
def logged (s : Checker) (e : Event) : Checker := { s with log := s.log ++ [e] }

/-- The state at the start of a check. -/
def start (c : Config) : Checker where
  symbols := .populated c
  limit := c.maxDiagnostics
  log := c.builtins.map fun entry => .builtIn entry.1

/-- The state after a problem was found. Beyond the limit, problems are only counted. -/
def reported (s : Checker) (d : Diagnostic) : Checker :=
  if s.limit.any fun limit => limit ≤ s.diagnostics.length then
    let s := if s.dropped = 0 then s.logged (.limitReached s.diagnostics.length) else s
    { s with dropped := s.dropped + 1 }
  else
    let s := s.logged (.reported d.position d.problem)
    { s with diagnostics := s.diagnostics ++ [d] }

/-- The state inside of so many more loops and switches. -/
def nested (s : Checker) (loops switches : Nat) : Checker :=
  { s with loops := s.loops + loops, switches := s.switches + switches }

/-- The state after the end of so many loops and switches. -/
def unnested (s : Checker) (loops switches : Nat) : Checker :=
  { s with
    loops := s.loops - loops
    switches := s.switches - switches
    miscounted := s.miscounted || s.loops < loops || s.switches < switches }

/-- The state inside the body of a function. Loops and switches around the function do not
count inside it. -/
def enterFunction (s : Checker) (result : Ty) : Checker :=
  { s with
    returns := result :: s.returns
    suspended := (s.loops, s.switches) :: s.suspended
    loops := 0
    switches := 0 }

/-- The state after the body of a function. -/
def leaveFunction (s : Checker) : Checker :=
  let around := s.suspended.headD (0, 0)
  { s with
    returns := s.returns.tail
    suspended := s.suspended.tail
    loops := around.1
    switches := around.2 }

/-- What the state mentions beside its symbol table. -/
def mentions (s : Checker) : Mentions :=
  s.held ++ .ofList (fun r => r.ty.mentions) s.resolutions ++ .ofList Ty.mentions s.returns

/-- The state without the function bodies and class members that nothing mentions. -/
def reclaim (s : Checker) : Checker := { s with symbols := s.symbols.reclaim s.mentions }

/-- The state after a frame is gone for good, together with all that only it mentioned. -/
def discard (s : Checker) (f : Frame) : Checker :=
  { s with symbols := s.symbols.discard f }.reclaim

end Checker

/-- A step of a check. It ends with a result or with a fault of the tree, and in either case
leaves a state behind. -/
abbrev Check := EStateM Fault Checker

namespace Check

instance : MonadLift (Except Fault) Check where
  monadLift
    | .ok a => pure a
    | .error f => throw f

/-- Adds an event to the log. -/
def log (e : Event) : Check Unit := modify (·.logged e)

/-- Records a problem. -/
def report (p : Problem) (position : Position) : Check Unit := modify (·.reported ⟨p, position⟩)

/-- Records a problem. What gave rise to it has an unknown type. -/
def reject (p : Problem) (position : Position) : Check Ty := do
  report p position
  return .unknown

/-- Records that a type is not what was expected. -/
def mismatch (expected : String) (received : Ty) (position : Position) : Check Ty :=
  reject (.typeMismatch expected received.render) position

/-- Records the type of a use of a name. -/
def resolve (name : String) (position : Position) (ty : Ty) : Check Unit :=
  modify fun s => { s with resolutions := s.resolutions ++ [⟨name, position, ty⟩] }

/-- Runs a step and changes the state afterwards, whether or not the step met a fault. -/
def afterwards {α : Type} (x : Check α) (f : Checker → Checker) : Check α := fun s =>
  match x s with
  | .ok a s => .ok a (f s)
  | .error e s => .error e (f s)

/-- Runs a step inside of so many more loops and switches. -/
def nested (loops switches : Nat) (x : Check Unit) : Check Unit := do
  modify (·.nested loops switches)
  afterwards x (·.unnested loops switches)

/-! ### The symbol table -/

/-- The symbol table. -/
def symbols : Check SymbolTable := return (← get).symbols

/-- Changes the symbol table. -/
def modifySymbols (f : SymbolTable → SymbolTable) : Check Unit :=
  modify fun s => { s with symbols := f s.symbols }

/-- Opens a scope. -/
def pushScope (kind : FrameKind) : Check Unit := do
  modifySymbols (·.push kind)
  log (.pushedScope (← symbols).depth)

/-- Closes the innermost scope and hands it over. -/
def popScope : Check (Option Frame) := do
  match (← symbols).pop? with
  | none =>
      log .keptGlobalScope
      return none
  | some (frame, rest) =>
      modifySymbols fun _ => rest
      log (.poppedScope rest.depth)
      return some frame

/-- Lets go of a frame that was handed over, and of all that only it mentioned. -/
def discard : Option Frame → Check Unit
  | none => return
  | some frame => modify (·.discard frame)

/-- Closes the innermost scope for good. -/
def dropScope : Check Unit := do discard (← popScope)

/-- Lets go of all scopes, the innermost one first, and starts with an empty global one. -/
def release : Check Unit := do
  let table ← symbols
  table.frames.forM fun f => log (.releasedScope f.bindings.length)
  modify fun s => { s with symbols := s.symbols.release }.reclaim

/-- Runs a step in a scope of its own. A fault leaves the scope open. -/
def inScope {α : Type} (kind : FrameKind) (x : Check α) : Check α := do
  pushScope kind
  let a ← x
  dropScope
  return a

/-- Makes a class that belongs to the innermost scope, without binding its name. -/
def newClass (name : String) : Check ClassRef := do
  let (c, rest) := (← symbols).newClass name
  modifySymbols fun _ => rest.declareClass c
  return c

/-- Makes a function type. -/
def newFunction (result : Ty) (params : List Ty) (required : Nat) : Check Ty := do
  let (ty, rest) := (← symbols).newFunction result params required
  modifySymbols fun _ => rest
  return ty

/-- Binds a name in the innermost scope, or records why that is refused. -/
def declare (name : String) (position : Position) (ty : Ty) : Check Unit := do
  match (← symbols).insert name ty with
  | .ok rest => modifySymbols fun _ => rest
  | .error p => report p position

/-- Makes a class and binds its name. -/
def declareClass (name : String) (position : Position) : Check ClassRef := do
  let c ← newClass name
  declare name position (.object c)
  return c

/-- Looks up a member of a class from where the check stands, and records its type. -/
def resolveMember (c : ClassRef) (name : Token) : Check Ty := do
  let table ← symbols
  let ty ← match table.memberLookup c name.text (table.insideClass c) with
    | .ok ty => pure ty
    | .error p => reject p name.position
  resolve (c.name ++ "::" ++ name.text) name.position ty
  return ty

/-- Looks up a name as a type. -/
def resolveTypeName (name : Token) : Check Ty := do
  match (← symbols).lookupTypeName name.text with
  | .ok ty => return ty
  | .error (.notFound text) => reject (.unknownIdentifier text) name.position
  | .error p => reject p name.position

/-- Looks up a name as a class. -/
def resolveClass (name : Token) : Check (Option ClassRef) :=
  return (← resolveTypeName name).asClass?

end Check

end CWithClasses
