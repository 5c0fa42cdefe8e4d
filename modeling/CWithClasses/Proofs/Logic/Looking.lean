import CWithClasses.Check.Call
import CWithClasses.Check.Declaration
import CWithClasses.Check.Expression
import CWithClasses.Proofs.Logic.Basic

/-!
# Steps that only look

Many steps look something up and report a problem, or they do not. Apart from reports, they leave
the state alone, so that what is to be said about them is much the same in every logic.
`Check.Looks` says once which steps are of this kind, and each logic goes through its few cases.
-/

namespace CWithClasses

/-- Whether the problem is neither an illegal jump nor a redeclaration. -/
def Problem.isPlain (e : Problem) : Bool := !e.isIllegalJump && !e.isRedeclaration

/-- A problem of neither kind. -/
theorem Problem.isPlain_iff {e : Problem} :
    e.isPlain = true ↔ ¬ e.isIllegalJump = true ∧ ¬ e.isRedeclaration = true := by
  simp [isPlain]

/-- The step looks things up and reports problems. None of them is a redeclaration or an illegal
jump. A step that is `free` may also meet a fault, and record uses of names. -/
inductive Check.Looks (free : Prop) : {α : Type} → Check α → Prop
  | ret {α : Type} (a : α) : Looks free (pure a)
  | bind {α β : Type} {x : Check α} {f : α → Check β} : Looks free x → (∀ a, Looks free (f a)) →
      Looks free (x >>= f)
  | symbols : Looks free Check.symbols
  | report {e : Problem} (position : Position) : e.isPlain = true →
      Looks free (Check.report e position)
  | fault {α : Type} (e : Fault) : free → Looks free (throw e : Check α)
  | resolve (name : String) (position : Position) (ty : Ty) : free →
      Looks free (Check.resolve name position ty)

namespace Check.Looks

variable {free : Prop} {α : Type} {e : Problem}

/-- The same kind of step for each entry of a list. -/
theorem forM {xs : List α} {f : α → Check PUnit} (h : ∀ x, Looks free (f x)) :
    Looks free (xs.forM f) := by
  induction xs with
  | nil => exact .ret _
  | cons x xs ih => exact (h x).bind fun _ => ih

/-- A rejection. -/
theorem reject (position : Position) (he : e.isPlain = true) :
    Looks free (Check.reject e position) :=
  .bind (.report position he) fun _ => .ret _

/-- A mismatch is a rejection. -/
theorem mismatch (expected : String) (received : Ty) (position : Position) :
    Looks free (Check.mismatch expected received position) :=
  reject position rfl

/-- A report, unless all is well. -/
theorem reportUnless {b : Prop} [Decidable b] (position : Position) (he : e.isPlain = true) :
    Looks free (if b then return else Check.report e position) := by
  split
  · exact .ret _
  · exact .report position he

/-! ### Names -/

/-- The type of a use of a name, which is recorded in any case. -/
theorem recorded (name : String) (position : Position) {x : Check Ty} (hx : Looks True x) :
    Looks True (do let ty ← x; Check.resolve name position ty; return ty) :=
  hx.bind fun ty => .bind (.resolve name position ty trivial) fun _ => .ret ty

/-- A member of a class. -/
theorem resolveMember (c : ClassRef) (name : Token) : Looks True (Check.resolveMember c name) := by
  unfold Check.resolveMember
  refine .bind .symbols fun table => ?_
  split
  next ty _ => exact recorded _ _ (.ret ty)
  next e hfound =>
    have he := SymbolTable.failure_of_memberLookup hfound
    exact recorded _ _ (reject _ (Problem.isPlain_iff.mpr he))

/-- A name in an expression. -/
theorem resolveName (name : Token) : Looks True (CWithClasses.resolveName name) := by
  unfold CWithClasses.resolveName
  refine .bind .symbols fun table => ?_
  split
  next ty _ => exact recorded _ _ (.ret ty)
  next => exact recorded _ _ (reject _ rfl)

/-- The name of a type. -/
theorem resolveTypeName (name : Token) : Looks free (Check.resolveTypeName name) := by
  unfold Check.resolveTypeName
  refine .bind .symbols fun table => ?_
  split
  next => exact .ret _
  next => exact reject _ rfl
  next e _ hfound =>
    exact reject _ (Problem.isPlain_iff.mpr (SymbolTable.failure_of_lookupTypeName hfound))

/-- The member that a qualified name refers to. -/
theorem resolveQualified (cls : Token) (name : DeclaredName) :
    Looks free (CWithClasses.resolveQualified cls name) := by
  unfold CWithClasses.resolveQualified
  refine (resolveTypeName cls).bind fun ty => ?_
  split
  · exact .ret _
  · refine .bind .symbols fun table => ?_
    split
    · exact .ret _
    · exact .bind (.report _ rfl) fun _ => .ret _

/-- A declaration of a member outside of its class. -/
theorem checkAgainstMember (cls : Token) (name : DeclaredName) (ty : Ty) (agrees : Ty → Ty → Bool) :
    Looks free (CWithClasses.checkAgainstMember cls name ty agrees) := by
  unfold CWithClasses.checkAgainstMember
  refine (resolveQualified cls name).bind fun found => ?_
  split
  · exact reportUnless _ rfl
  · exact .ret _

/-! ### Calls and constructions -/

/-- The arguments of a call against the function. -/
theorem checkCall (f : FunctionTy) (arguments : List Argument) (position : Position) :
    Looks free (CWithClasses.checkCall f arguments position) := by
  unfold CWithClasses.checkCall
  split
  · exact forM fun entry => reportUnless _ rfl
  · exact .report _ rfl

/-- The construction of an object of a class. -/
theorem checkConstructor (c : ClassRef) (arguments : List Argument) (position : Position) :
    Looks free (CWithClasses.checkConstructor c arguments position) := by
  unfold CWithClasses.checkConstructor
  refine .bind .symbols fun table => ?_
  split
  · split
    · exact checkCall _ arguments position
    · exact .ret _
  · exact reportUnless _ rfl
  next e _ hfound =>
    exact .report _ (Problem.isPlain_iff.mpr (SymbolTable.failure_of_memberLookup hfound))

/-- The construction of an object of any type. -/
theorem checkConstruction (ty : Ty) (arguments : List Argument) (position : Position) :
    Looks free (CWithClasses.checkConstruction ty arguments position) := by
  unfold CWithClasses.checkConstruction
  split
  · exact .ret _
  · split
    · exact checkConstructor _ arguments position
    · split
      · exact .ret _
      · exact reportUnless _ rfl
      · exact .report _ rfl

/-- The construction of an object without an initializer. -/
theorem checkDefaultConstruction (ty : Ty) (position : Position) :
    Looks free (CWithClasses.checkDefaultConstruction ty position) := by
  unfold CWithClasses.checkDefaultConstruction
  refine .bind .symbols fun table => ?_
  split
  · split
    · exact .ret _
    · exact checkConstructor _ [] position
  · exact .ret _

/-! ### Expressions and statements -/

/-- An index, a size or a label. -/
theorem checkIntegral (ty : Ty) (position : Position) :
    Looks free (CWithClasses.checkIntegral ty position) :=
  reportUnless _ rfl

/-- A type that is used as a truth value. -/
theorem checkTruth (condition : Ty) (position : Position) :
    Looks free (Clause.checkTruth condition position) :=
  reportUnless _ rfl

/-- A returned value against the result type of the function. -/
theorem checkReturn (expected : Ty) (value : Option (Ty × Position)) (position : Position) :
    Looks free (Clause.checkReturn expected value position) := by
  unfold Clause.checkReturn
  split
  · exact .ret _
  · split <;> exact reportUnless _ rfl

/-- The conversion of at most one value. -/
theorem convert (c : Clause) (arguments : List Argument) : Looks free (c.convert arguments) := by
  unfold Clause.convert
  split
  · exact .ret _
  · exact reportUnless _ rfl
  · exact .report _ rfl

/-- A member of a base. -/
theorem memberOf (c : Clause) (base : Ty) (member : Token) :
    Looks True (c.memberOf base member) := by
  unfold Clause.memberOf
  split
  · exact .ret _
  · split <;> split
    · exact resolveMember _ member
    · exact mismatch _ _ _
    · exact resolveMember _ member
    · exact mismatch _ _ _

/-- A call whose arguments have been checked. -/
theorem callOf (c : Clause) (callee : Ty) (arguments : List Argument) :
    Looks free (c.callOf callee arguments) := by
  unfold Clause.callOf
  split
  · exact .ret _
  · split
    next f _ => exact (checkCall f arguments c.position).bind fun _ => .ret _
    next => exact mismatch _ _ _

end Check.Looks

end CWithClasses
