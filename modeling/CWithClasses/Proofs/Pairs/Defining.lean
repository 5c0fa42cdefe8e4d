import CWithClasses.Proofs.Pairs.Running

/-!
# Two runs of what definitions are made of

A class head, the members that are declared, and the parts of a function definition run alike if
what they are made of does. Only the bodies of classes and functions are left to the users of
`RunningPairs`.
-/

namespace CWithClasses

open Check

/-! ### What a definition leaves to be checked -/

/-- The property holds of all that the function does, and of all that this is made of. -/
structure FunctionBody.Throughout (P : Phrase → Prop) (b : FunctionBody) : Prop where
  ctorInit : ∀ r, b.ctorInit = some r → r.Throughout P
  body : b.body.Throughout P

namespace Clause

variable {P : Phrase → Prop} {c : Clause}

/-- The parts of a function definition are parts of the construct. -/
theorem functionParts_yields (hparts : c.Throughout P) :
    c.functionParts.Yields fun parts => (∀ r, parts.1 = some r → r.Throughout P) ∧
      parts.2.1.Throughout P ∧ (∀ r, parts.2.2.1 = some r → r.Throughout P) ∧
      parts.2.2.2.Throughout P := by
  unfold functionParts
  split
  · refine (Yields.part c 1).bind fun d hd => (Yields.part c 2).bind fun body hbody => .ret ?_
    exact ⟨hparts 0, hparts 1 d hd, Phrase.throughout_none, hparts 2 body hbody⟩
  · refine (Yields.part c 0).bind fun d hd => (Yields.part c 1).bind fun init hinit => ?_
    refine (Yields.part c 2).bind fun body hbody => .ret ?_
    exact ⟨Phrase.throughout_none, hparts 0 d hd, (hparts 1 init hinit).of_some,
      hparts 2 body hbody⟩
  · exact .fault _

/-- What a definition leaves to be checked consists of its parts. -/
theorem declareFunctionDef_yields (hparts : c.Throughout P) :
    c.declareFunctionDef.Yields (FunctionBody.Throughout P) := by
  unfold declareFunctionDef
  refine (functionParts_yields hparts).bind ?_
  rintro ⟨specifiers, declarator, init, body⟩ ⟨-, -, hinit, hbody⟩
  refine Yields.next fun base => Yields.next fun declared => ?_
  split
  · split <;> exact Yields.next fun d => .ret ⟨hinit, hbody⟩
  · exact .fault _

end Clause

namespace RunningPairs

variable {L : RunningPairs} {p : Phrase} {c : Clause} {q : Option Phrase}

/-! ### Class heads -/

/-- The class that a class head opens. -/
theorem openClass {name : Token} (hname : name.text ∉ L.hidden) :
    L.pair (CWithClasses.openClass name) (CWithClasses.openClass name)
      fun d d' => d' = d.rename L.toRenaming := by
  have hnew : L.pair
      (do Check.report (.redeclaration name.text) name.position
          Check.newClass name.text)
      (do Check.report (.redeclaration name.text) name.position
          Check.newClass name.text) fun d d' => d' = d.rename L.toRenaming :=
    L.seq (L.report _ _) fun _ _ _ => L.newClass name.text
  unfold CWithClasses.openClass
  refine L.symbols fun t u h => ?_
  rw [h.lookupLocal? hname]
  cases t.lookupLocal? name.text with
  | none => exact ReadingPairs.declareClass hname name.position
  | some existing =>
    dsimp only [Option.map_some]
    rw [Ty.objectClass?_rename]
    cases existing.objectClass? with
    | none => exact hnew
    | some d =>
      simp only [Option.map_some, Option.filter_some, h.isComplete_eq]
      cases t.isComplete d with
      | false => exact L.ret rfl
      | true => exact hnew

/-- The class of a class head. -/
theorem classHead (hp : L.Runs p) :
    L.pair p.classHead p.classHead fun d d' => d' = d.rename L.toRenaming := by
  unfold Phrase.classHead
  split
  · refine L.part fun r hr => ?_
    refine L.leaf fun name hname => ?_
    exact openClass ((hp.part hr).self.avoids.token hname)
  · exact L.newClass _
  · exact L.fault _

/-! ### Members -/

/-- A declarator that is declared without using its type. -/
theorem declarePlain (hp : L.Runs p) (hq : ∀ r, q = some r → L.Runs r) (base : Ty) :
    L.pair (do let _ ← p.initDeclarator base q)
      (do let _ ← p.initDeclarator (base.rename L.toRenaming) q) fun _ _ => True :=
  L.seq (initDeclarator hp hq base) fun _ _ _ => L.ret trivial

/-- A bit field. -/
theorem bitField (hp : L.Runs p) (base : Ty) :
    L.pair (p.bitField base) (p.bitField (base.rename L.toRenaming)) fun _ _ => True := by
  unfold Phrase.bitField
  refine L.part fun width hwidth => ?_
  refine L.seq (hp.part hwidth).self.expression ?_
  rintro ty _ rfl
  have hintegral := DeclaratorPairs.checkIntegral (L := L.toDeclaratorPairs)
  refine L.seq (hintegral base p.position) fun _ _ _ => ?_
  refine L.seq (hintegral ty width.position) fun _ _ _ => ?_
  cases hname : p.part? 0 with
  | none => exact L.ret trivial
  | some name => exact declarePlain (hp.part hname) Phrase.throughout_none base

/-- One member of a member declaration. -/
theorem memberDeclarator (hp : L.Runs p) (base : Ty) :
    L.pair (p.memberDeclarator base) (p.memberDeclarator (base.rename L.toRenaming))
      fun _ _ => True := by
  unfold Phrase.memberDeclarator
  split
  · exact L.part fun d hd => declarePlain (hp.part hd) Phrase.throughout_none base
  · refine L.part fun d hd => ?_
    refine L.part fun init hinit => ?_
    exact declarePlain (hp.part hd) (hp.part hinit).of_some base
  · exact bitField hp base
  · exact declarePlain hp Phrase.throughout_none base

/-- The members of a member declaration. -/
theorem memberDeclarators (hp : L.Runs p) :
    L.pair
      (do let base ← checkSpecifiers? (p.part? 0)
          (Phrase.flatten? (p.part? 1)).forM fun item => item.memberDeclarator base)
      (do let base ← checkSpecifiers? (p.part? 0)
          (Phrase.flatten? (p.part? 1)).forM fun item => item.memberDeclarator base)
      fun _ _ => True := by
  refine L.seq (DeclaratorPairs.checkSpecifiers fun r hr =>
    ReadingPairs.specifiers (hp.part hr).reads) ?_
  rintro base _ rfl
  refine L.forM_same fun item hitem => ?_
  exact memberDeclarator (Phrase.throughout_flatten? (fun r hr => hp.part hr) item hitem) base

/-! ### Function bodies that are left to be checked -/

section Bodies

variable {B : FunctionBody → FunctionBody → Prop}
  (hdefinition : ∀ {c : Clause}, c.Throughout (Phrase.Runs L) →
    L.pair c.declareFunctionDef c.declareFunctionDef B)

include hdefinition

/-- A member declaration, with the bodies that are still to be checked. -/
theorem memberDeclaration (hp : L.Runs p) :
    L.pair p.memberDeclaration p.memberDeclaration (List.Forall₂ B) := by
  have hfunction : L.pair (do return [← p.clause.declareFunctionDef])
      (do return [← p.clause.declareFunctionDef]) (List.Forall₂ B) :=
    L.seq (hdefinition hp.clause) fun _ _ hb => L.ret (.cons hb .nil)
  unfold Phrase.memberDeclaration
  split
  · exact hfunction
  · exact hfunction
  · have hmembers := L.seq (memberDeclarators hp) fun _ _ _ => L.ret (.nil : List.Forall₂ B [] [])
    simpa only [bind_assoc] using hmembers
  · exact L.seq (simpleDeclaration hp.clause) fun _ _ _ => L.ret .nil
  · exact L.fault _

variable (haccess : ∀ access, L.pair (modifySymbols (·.setAccess access))
  (modifySymbols (·.setAccess access)) fun _ _ => True)

include haccess

/-- A link of a member specification. -/
theorem memberLink (hp : L.Runs p) : L.pair p.memberLink p.memberLink (List.Forall₂ B) := by
  unfold Phrase.memberLink
  split
  · exact L.part fun d hd => memberDeclaration hdefinition (hp.part hd)
  · refine L.part fun key _ => ?_
    refine L.leaf fun t _ => ?_
    cases t.kind.access? with
    | some access => exact L.seq (haccess access) fun _ _ _ => L.ret .nil
    | none => exact L.fault _
  · exact memberDeclaration hdefinition hp

/-- A member specification. -/
theorem members (hq : ∀ r, q = some r → L.Runs r) :
    L.pair (Phrase.members q) (Phrase.members q) (List.Forall₂ B) := by
  cases q with
  | none => exact L.ret .nil
  | some r =>
    have hlinks : L.pair (r.memberLinks.mapM Phrase.memberLink)
        (r.memberLinks.mapM Phrase.memberLink) (List.Forall₂ (List.Forall₂ B)) :=
      L.mapM_same fun link hlink =>
        memberLink hdefinition haccess ((hq r rfl).memberLinks link hlink)
    exact L.seq hlinks fun _ _ hbodies => L.ret (List.rel_flatten hbodies)

end Bodies

/-! ### Functions -/

/-- The parts of a function definition. -/
theorem functionParts (hparts : c.Throughout (Phrase.Runs L)) :
    L.pair c.functionParts c.functionParts fun a b => a = b ∧
      (∀ r, a.1 = some r → L.Runs r) ∧ L.Runs a.2.1 ∧
      (∀ r, a.2.2.1 = some r → L.Runs r) ∧ L.Runs a.2.2.2 := by
  unfold Clause.functionParts
  split
  · refine L.part fun d hd => ?_
    refine L.part fun body hbody => ?_
    exact L.ret ⟨rfl, hparts 0, hparts 1 d hd, Phrase.throughout_none, hparts 2 body hbody⟩
  · refine L.part fun d hd => ?_
    refine L.part fun init hinit => ?_
    refine L.part fun body hbody => ?_
    exact L.ret ⟨rfl, Phrase.throughout_none, hparts 0 d hd, (hparts 1 init hinit).of_some,
      hparts 2 body hbody⟩
  · exact L.unexpected c _

end RunningPairs

end CWithClasses
