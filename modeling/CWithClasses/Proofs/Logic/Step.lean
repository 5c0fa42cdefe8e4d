import CWithClasses.Proofs.Verdict

/-!
# Steps that do not look into the tree

The steps that are shared by the rules of the language: taking a part or a token of a construct,
rejecting it, looking up names, and checking calls and operators whose operands have been
checked. Each of them is derived from what a `StepLogic` assumes.
-/

namespace CWithClasses.StepLogic

open Check

variable (L : StepLogic) {α β : Type} {p : Prop}

/-! ### Parts and tokens -/

/-- A construct may be asked for the part in a slot, which is of a certain kind. If the slot is
empty, trees that break the grammar have to be considered. -/
structure Has (c : Clause) (i : Nat) (P : Phrase → Prop) : Prop where
  missing : c.part? i = none → L.faults
  part : ∀ q, c.part? i = some q → P q

/-- A construct may be asked for its token. -/
def Leaf (n : Node) : Prop := n.token = none → L.faults

/-- A construct may be asked for the name that it spells. -/
def Name (n : Node) : Prop := ∀ e, n.nameToken = .error e → L.faults

/-- A construct that has no meaning. -/
theorem unexpected {Q : α → Prop} (c : Clause) (context : String) (h : L.faults) :
    L.triple p (c.unexpected context) Q :=
  L.fault _ h

/-- Taking a part of a construct, and going on with it. -/
theorem part {c : Clause} {i : Nat} {P : Phrase → Prop} {f : Phrase → Check β} {Q : β → Prop}
    (h : L.Has c i P) (hf : ∀ q, P q → L.triple p (f q) Q) : L.triple p (c.part i >>= f) Q := by
  unfold Clause.part
  cases hpart : c.part? i with
  | none => exact L.fault _ (h.missing hpart)
  | some q => exact hf q (h.part q hpart)

/-- Reading something off the tree that may be missing, and going on with it. -/
theorem lift {x : Except Fault α} {f : α → Check β} {Q : β → Prop}
    (hfault : ∀ e, x = .error e → L.faults) (hf : ∀ a, x = .ok a → L.triple p (f a) Q) :
    L.triple p ((liftM x : Check α) >>= f) Q := by
  cases hx : x with
  | error e => exact L.fault e (hfault e hx)
  | ok a => exact hf a hx

/-- Reading the token of a leaf, and going on with it. -/
theorem leaf {n : Node} {f : Token → Check β} {Q : β → Prop} (h : L.Leaf n)
    (hf : ∀ t, n.token = some t → L.triple p (f t) Q) :
    L.triple p ((liftM n.leafToken : Check Token) >>= f) Q := by
  unfold Node.leafToken
  cases htoken : n.token with
  | none => exact L.fault _ (h htoken)
  | some t => exact hf t htoken

/-! ### Problems and names -/

/-- A step that only looks. -/
theorem looks {x : Check α} (hx : x.Looks False) : L.triple p x fun _ => True := by
  induction hx with
  | ret a => exact L.ret a fun _ => trivial
  | bind _ _ ihx ihf => exact L.next ihx ihf
  | symbols => exact L.post L.symbols fun _ _ _ => trivial
  | report position he =>
    have hjump := (Problem.isPlain_iff.mp he).1
    exact L.post (L.report _ position fun h => absurd h hjump) fun _ _ _ => trivial
  | fault _ h => exact h.elim
  | resolve _ _ _ h => exact h.elim

/-- Rejecting a construct gives it an unknown type, but not without a report. -/
theorem reject (e : Problem) (position : Position) {Q : Ty → Prop}
    (hjump : e.isIllegalJump = true → L.statements) :
    L.triple p (Check.reject e position) Q := by
  unfold Check.reject
  refine L.bind (L.report e position hjump) fun _ => L.ret _ ?_
  rintro ⟨_, hfalse⟩
  exact hfalse.elim

/-- A mismatch is a rejection. -/
theorem mismatch (expected : String) (received : Ty) (position : Position) {Q : Ty → Prop} :
    L.triple p (Check.mismatch expected received position) Q :=
  L.reject _ _ nofun

/-- A verdict, which is not free if trees keep to the grammar. -/
theorem verdict {x : Check Ty} (hx : x.Verdict p L.faults) : L.triple p x Ty.Known := by
  cases hx with
  | accept h => exact L.ret _ h
  | reject e position he =>
    exact L.reject e position fun hjump => absurd hjump (Problem.isPlain_iff.mp he).1
  | fault e h => exact L.fault e h

/-- Making a class and binding its name. -/
theorem declareClass (name : String) (position : Position) :
    L.triple p (Check.declareClass name position) fun _ => True := by
  unfold Check.declareClass
  refine L.next (L.newClass name) fun c => ?_
  refine L.next (L.declare name position fun _ => Ty.known_object c) fun _ => ?_
  exact L.ret _ fun _ => trivial

/-- The type of a use of a name, which is recorded in any case. -/
theorem recorded (name : String) (position : Position) {x : Check Ty}
    (hx : L.triple p x Ty.Known) :
    L.triple p (do let ty ← x; Check.resolve name position ty; return ty) Ty.Known := by
  refine L.bind hx fun ty => ?_
  refine L.bind (L.resolve name position And.right) fun _ => L.ret _ ?_
  rintro ⟨⟨_, hty⟩, _⟩
  exact hty

/-- Looking up a member. -/
theorem resolveMember (c : ClassRef) (name : Token) :
    L.triple p (Check.resolveMember c name) Ty.Known := by
  unfold Check.resolveMember
  refine L.bind L.symbols fun table => ?_
  split
  next ty hfound =>
    refine L.recorded _ _ (L.ret ty ?_)
    rintro ⟨_, htable⟩
    exact htable.memberLookup hfound
  next e hfound =>
    refine L.recorded _ _ (L.reject e _ fun hjump => ?_)
    exact absurd hjump (SymbolTable.failure_of_memberLookup hfound).1

/-- Looking up a name as a type gives a class, or else a report. -/
theorem resolveTypeName (name : Token) :
    L.triple p (Check.resolveTypeName name) fun ty => ∃ c, ty = .object c := by
  unfold Check.resolveTypeName
  refine L.bind L.symbols fun table => ?_
  split
  next ty hfound => exact L.ret _ fun _ => SymbolTable.lookupTypeName_object hfound
  next => exact L.reject _ _ nofun
  next e _ hfound =>
    refine L.reject e _ fun hjump => ?_
    exact absurd hjump (SymbolTable.failure_of_lookupTypeName hfound).1

/-- Looking up a name as a class gives one, or else a report. -/
theorem resolveClass (name : Token) :
    L.triple p (Check.resolveClass name) fun cls => cls.isSome := by
  unfold Check.resolveClass
  refine L.bind (L.resolveTypeName name) fun ty => L.ret _ ?_
  rintro ⟨_, c, rfl⟩
  rfl

/-- The type of a name in an expression. -/
theorem resolveName (name : Token) : L.triple p (CWithClasses.resolveName name) Ty.Known := by
  unfold CWithClasses.resolveName
  refine L.bind L.symbols fun table => ?_
  split
  next ty hfound =>
    refine L.recorded _ _ (L.ret ty ?_)
    rintro ⟨_, htable⟩
    exact htable.lookup hfound
  next => exact L.recorded _ _ (L.reject _ _ nofun)

end CWithClasses.StepLogic
