import CWithClasses.Proofs.Likeness.Step
import CWithClasses.Proofs.Pairs.Defining

/-!
# Functions in states that are alike

The body of a function is checked in a scope of its own, which becomes the body of the function or
is let go. So this needs that no class is veiled.
-/

namespace CWithClasses

open Check

variable {L : Likeness}

/-- The phrase gives the same types in states that are alike. -/
abbrev Phrase.ReadsAlike (L : Likeness) (p : Phrase) : Prop := p.Reads L.reading

/-- A tree reads alike if all that it is made of does. -/
theorem Node.readsAlike {n : Node} (hparts : n.clause.Throughout (Phrase.ReadsAlike L))
    (hn : n.Avoids L.hidden)
    (hclass : n.rule = .classSpec → L.rules.pair n.clause.classSpec n.clause.classSpec L.ty) :
    n.phrase.ReadsAlike L :=
  reads hparts hn hclass

/-- The phrase does the same in states that are alike. -/
abbrev Phrase.RunsAlike (L : Likeness) (hveil : ∀ i, ¬ L.veiled i) (p : Phrase) : Prop :=
  p.Runs (L.running hveil)

variable {hveil : ∀ i, ¬ L.veiled i}

/-- Function bodies that are still to be checked. Their names are only for the log. -/
structure FunctionBody.Alike (L : Likeness) (hveil : ∀ i, ¬ L.veiled i) (b b' : FunctionBody) :
    Prop where
  ty : L.ty b.ty b'.ty
  parameters : List.Forall₂ (Parameter.Alike L.toView) b.parameters b'.parameters
  cls : b'.cls = b.cls.map (ClassRef.rename L.toRenaming)
  ctorInit : b'.ctorInit = b.ctorInit
  body : b'.body = b.body
  attach : b'.attach = b.attach
  ctorInitRuns : ∀ p, b.ctorInit = some p → p.Throughout (Phrase.RunsAlike L hveil)
  bodyRuns : b.body.Throughout (Phrase.RunsAlike L hveil)

/-- How a definition relates to what was declared before. -/
structure Definition.Alike (L : Likeness) (d d' : Definition) : Prop where
  ty : L.ty d.ty d'.ty
  cls : d'.cls = d.cls.map (ClassRef.rename L.toRenaming)
  attach : d'.attach = d.attach

namespace Likeness

open RunningPairs

/-- The phrase runs alike, and so does all that it is made of. -/
abbrev Runs (L : Likeness) (hveil : ∀ i, ¬ L.veiled i) (p : Phrase) : Prop :=
  p.Throughout (Phrase.RunsAlike L hveil)

variable {p : Phrase} {c : Clause} {name : DeclaredName}

/-! ### Function bodies -/

variable {b b' : FunctionBody}

/-- What a function body does, inside its scope. -/
theorem bodyStatements (hb : b.Alike L hveil b') (f : FunctionTy) :
    L.rules.pair (b.checkStatements f) (b'.checkStatements (f.rename L.toRenaming))
      fun _ _ => True := by
  unfold FunctionBody.checkStatements
  rw [hb.ctorInit, hb.body]
  refine L.rules.seq (bindParameters (L := L.running hveil) hb.parameters f.params) fun _ _ _ => ?_
  refine L.rules.seq (change fun _ _ h => h.enterFunction f.result) fun _ _ _ => ?_
  have hrest : L.rules.pair
      (do b.body.functionBlock
          modify (·.leaveFunction) : Check Unit)
      (do b.body.functionBlock
          modify (·.leaveFunction) : Check Unit) fun _ _ => True :=
    L.rules.seq (functionBlock hb.bodyRuns) fun _ _ _ => change fun _ _ h => h.leaveFunction
  cases hinit : b.ctorInit with
  | none => exact hrest
  | some init => exact L.rules.seq (ctorInit (hb.ctorInitRuns init hinit)) fun _ _ _ => hrest

/-- Giving a function the scope of its body. -/
theorem attachScope (hb : b.Alike L hveil b') (f : FunctionTy) {scope scope' : Option Frame}
    (hscope : Option.Rel (Frame.Alike L) scope scope') :
    L.rules.pair (b.attachScope f scope) (b'.attachScope (f.rename L.toRenaming) scope')
      fun _ _ => True := by
  unfold FunctionBody.attachScope
  rw [hb.attach]
  cases b.attach with
  | false => exact discard hveil hscope
  | true =>
    cases hscope with
    | none => exact discard hveil .none
    | @some frame frame' hframes =>
      refine symbols fun t u h => ?_
      have hdefine := h.define? f hframes
      generalize t.define? f frame = x at hdefine
      generalize u.define? (f.rename L.toRenaming) frame' = y at hdefine
      cases hdefine with
      | some htable => exact modifySymbols fun _ _ _ => htable
      | none => exact L.rules.seq (discard hveil (.some hframes)) fun _ _ _ => log _ _

/-- The body of a function that has been declared. -/
theorem checkBody (hb : b.Alike L hveil b') : L.rules.pair b.check b'.check fun _ _ => True := by
  have hscope : ∀ (f : FunctionTy) (inner : Bool) (e e' : Event),
      L.rules.pair
        (do Check.pushScope .function
            b.checkStatements f
            let scope ← Check.popScope
            if inner then do let _ ← Check.popScope
            b.attachScope f scope
            Check.log e)
        (do Check.pushScope .function
            b'.checkStatements (f.rename L.toRenaming)
            let scope ← Check.popScope
            if inner then do let _ ← Check.popScope
            b'.attachScope (f.rename L.toRenaming) scope
            Check.log e') fun _ _ => True := by
    intro f inner e e'
    refine L.rules.seq (pushScope .function fun d _ => hveil d.id) fun _ _ _ => ?_
    refine L.rules.seq (bodyStatements hb f) fun _ _ _ => ?_
    refine L.rules.seq popScope fun scope scope' hscope => ?_
    have hattach := L.rules.seq (attachScope hb f hscope) fun _ _ _ => log (L := L) e e'
    split
    · exact L.rules.seq popScope fun _ _ _ => hattach
    · exact hattach
  unfold FunctionBody.check
  rw [hb.ty, Ty.asFunction?_rename, hb.body, hb.cls]
  cases b.ty.asFunction? with
  | none => exact L.rules.fault _
  | some f =>
    cases b.cls with
    | none => exact hscope f false _ _
    | some d =>
      refine L.rules.seq (pushScope (.classBody d) fun e _ => hveil e.id) fun _ _ _ => ?_
      exact hscope f true _ _

/-! ### Function definitions -/

/-- A second definition. -/
theorem redefine (name : DeclaredName) (ty : Ty) (cls : Option ClassRef) :
    L.rules.pair (CWithClasses.redefine name ty cls)
      (CWithClasses.redefine name (ty.rename L.toRenaming)
        (cls.map (ClassRef.rename L.toRenaming))) (Definition.Alike L) :=
  L.rules.seq (report _ _) fun _ _ _ => L.rules.ret ⟨rfl, rfl, rfl⟩

/-- A definition with a plain name. -/
theorem defineLocal (hveil : ∀ i, ¬ L.veiled i) (hname : name.Avoids L.hidden) (ty : Ty) :
    L.rules.pair (CWithClasses.defineLocal name ty)
      (CWithClasses.defineLocal name (ty.rename L.toRenaming)) (Definition.Alike L) := by
  unfold CWithClasses.defineLocal
  refine symbols fun t u h => ?_
  rw [h.seen.lookupLocal? hname.name]
  cases t.lookupLocal? name.name with
  | none =>
    refine L.rules.seq (RunningPairs.declareFunction (L := L.running hveil) hname ty)
      fun _ _ hty => ?_
    exact L.rules.ret ⟨hty, rfl, rfl⟩
  | some existing =>
    dsimp only [Option.map_some]
    rw [sameSignature_rename, h.isDefined_eq]
    split
    · exact L.rules.ret ⟨rfl, rfl, rfl⟩
    · exact redefine name ty none

/-- A definition with a qualified name. -/
theorem defineMember (hveil : ∀ i, ¬ L.veiled i) (name : DeclaredName) {cls : Token}
    (hcls : cls.text ∉ L.hidden) (ty : Ty) :
    L.rules.pair (CWithClasses.defineMember cls name ty)
      (CWithClasses.defineMember cls name (ty.rename L.toRenaming)) (Definition.Alike L) := by
  unfold CWithClasses.defineMember
  have hresolved : L.rules.pair (CWithClasses.resolveQualified cls name)
      (CWithClasses.resolveQualified cls name) fun a b => b = a.map fun m =>
        (m.1.rename L.toRenaming, m.2.map (Ty.rename L.toRenaming)) :=
    RunningPairs.resolveQualified (L := L.running hveil) name hcls
  refine L.rules.seq hresolved ?_
  rintro found _ rfl
  cases found with
  | none => exact L.rules.ret ⟨rfl, rfl, rfl⟩
  | some m =>
    obtain ⟨d, member⟩ := m
    cases member with
    | none => exact L.rules.ret ⟨rfl, rfl, rfl⟩
    | some member =>
      dsimp only [Option.map_some]
      rw [sameSignature_rename, Ty.render_rename, Ty.render_rename]
      split
      · exact L.rules.seq (report _ _) fun _ _ _ => L.rules.ret ⟨rfl, rfl, rfl⟩
      · refine symbols fun t u h => ?_
        rw [h.isDefined_eq]
        split
        · exact redefine name ty (some d)
        · exact L.rules.ret ⟨rfl, rfl, rfl⟩

/-- Declaring the function that a definition introduces. -/
theorem declareFunctionDef (hparts : c.Throughout (Phrase.RunsAlike L hveil)) :
    L.rules.pair c.declareFunctionDef c.declareFunctionDef (FunctionBody.Alike L hveil) := by
  unfold Clause.declareFunctionDef
  refine L.rules.seq (functionParts hparts) ?_
  rintro ⟨specifiers, declarator, init, body⟩ _ ⟨rfl, hspecifiers, hdeclarator, hinit, hbody⟩
  have hbase := DeclaratorPairs.checkSpecifiers (L := L.reading.toDeclaratorPairs) fun r hr =>
    ReadingPairs.specifiers (hspecifiers r hr).reads
  refine L.rules.seq hbase ?_
  rintro base _ rfl
  refine L.rules.seq (hdeclarator.self.declarator base) fun d e hde => ?_
  have hparameters := hde.parameters
  rw [hde.name, hde.ty, Ty.function?_rename]
  generalize d.parameters = params at hparameters
  generalize e.parameters = params' at hparameters
  cases hname : d.name with
  | none => exact L.rules.fault _
  | some name =>
    have havoids := hde.avoids name hname
    cases hparameters with
    | none => exact L.rules.fault _
    | some hparams =>
      cases d.ty.function? with
      | none => exact L.rules.fault _
      | some f =>
        dsimp only [Option.map_some]
        cases hcls : name.cls with
        | some cls =>
          refine L.rules.seq (defineMember hveil name (havoids.cls cls hcls) d.ty) fun x y hxy => ?_
          exact L.rules.ret ⟨hxy.ty, hparams, hxy.cls, rfl, rfl, hxy.attach, hinit, hbody⟩
        | none =>
          refine L.rules.seq (defineLocal hveil havoids d.ty) fun x y hxy => ?_
          exact L.rules.ret ⟨hxy.ty, hparams, hxy.cls, rfl, rfl, hxy.attach, hinit, hbody⟩

/-- A function definition whose parts run alike. -/
theorem functionDefinition (hparts : c.Throughout (Phrase.RunsAlike L hveil)) :
    L.rules.pair c.functionDefinition c.functionDefinition fun _ _ => True :=
  L.rules.seq (declareFunctionDef hparts) fun _ _ hb => checkBody hb

end Likeness

end CWithClasses
