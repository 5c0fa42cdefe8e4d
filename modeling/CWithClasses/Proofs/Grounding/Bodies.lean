import CWithClasses.Proofs.Grounding.Settling

/-!
# Function bodies and classes in steady states

The body of a function stays with the function if the definition is accepted. This leaves nothing to
let go because such a function is anchored: it has just been bound, or it was found in the innermost
scope or in a class, and so is mentioned there together with its result. The class of a method is
the one that the method was found in.

Whatever the body of a class leaves to let go, it goes at the end of the class.
-/

namespace CWithClasses

open Check

/-! ### Function bodies -/

/-- If the function gets the body, then all that its type mentions is mentioned in the state, and so
is its class, which has been made. -/
def Definition.Anchored (d : Definition) (s : Checker) : Prop :=
  d.attach = true → d.ty.Within s.allMentions.Has ∧
    ∀ c, d.cls = some c → c.id < s.symbols.classes.size ∧ s.allMentions.Has (.inr c.id)

/-- The definition that the body belongs to is anchored. -/
def FunctionBody.Anchored (b : FunctionBody) (s : Checker) : Prop :=
  Definition.Anchored { ty := b.ty, cls := b.cls, attach := b.attach } s

/-- What is anchored stays so. -/
theorem FunctionBody.Anchored.mono {b : FunctionBody} {s s₁ : Checker} (h : b.Anchored s)
    (hmade : s.symbols.classes.size ≤ s₁.symbols.classes.size)
    (hmentions : ∀ x, s.allMentions.Has x → s₁.allMentions.Has x) : b.Anchored s₁ := by
  intro hattach
  obtain ⟨hty, hcls⟩ := h hattach
  exact ⟨fun x hx => hmentions x (hty x hx),
    fun c hc => ⟨(hcls c hc).1.trans_le hmade, hmentions _ (hcls c hc).2⟩⟩

/-- After a step in a scope of its own, what the scope mentioned is an exception. -/
theorem Check.Retaining.settledUpTo_bracket {α : Type} {kind : FrameKind} {x : Check α}
    {s s' : Checker} {r : α × Option Frame} {Q : α → Prop} {X : Nat ⊕ Nat → Prop}
    (hx : x.Retaining s False [kind] [] Q) (h : Check.bracket kind x s = .ok r s')
    (hX : ∀ s₁, x (s.opened kind) = .ok r.1 s₁ → s₁.SettledUpTo X) :
    s'.SettledUpTo fun y => X y ∨ ∃ frame, r.2 = some frame ∧ frame.mentions.Has y := by
  obtain ⟨_, s₁, hopen, hrest⟩ := exists_of_bind h
  cases hopen
  obtain ⟨a, s₂, hinside, hclose⟩ := exists_of_bind hrest
  obtain ⟨hs₂, -⟩ := hx _ a s₂ ((Checker.Retains.refl s).opened kind) hinside
  obtain ⟨rest, hpop, -⟩ := hs₂.symbols.pop
  rw [bind_ok (popScope_eq hpop)] at hclose
  cases hclose
  refine ((hX s₂ hinside).popped hpop _).of_live rfl rfl fun y hy => hy.imp_right (Or.imp_right ?_)
  exact fun hy => ⟨_, rfl, hy⟩

namespace FunctionBody

variable {b : FunctionBody} {f : FunctionTy} {s s' : Checker} {scope : Option Frame}

/-- Binding the parameters of a function. -/
theorem steadies_bindParameters (params : List Parameter) (types : List Ty) :
    (bindParameters params types).Steadies (fun _ => True) fun _ _ => True := by
  refine .forM fun entry _ => ?_
  dsimp only
  split
  · exact .declare _ _ _
  · exact .ret fun _ _ => trivial

/-- What a function does between its parameters and its end. -/
theorem steadies_run (hb : b.Throughout (Phrase.Runs steadyPairs)) :
    b.run.Steadies (fun _ => True) fun _ _ => True := by
  have hblock := (RunningPairs.functionBlock hb.body).1
  unfold run
  cases hinit : b.ctorInit with
  | none => exact hblock
  | some init => exact (RunningPairs.ctorInit (hb.ctorInit init hinit)).1.next fun _ => hblock

variable (hrun : b.run.Steadies (fun _ => True) fun _ _ => True)

include hrun

/-- After the statements of a function, only what its result mentions may be mentioned nowhere
else. -/
theorem settledUpTo_statements (hs : s.Steady) (h : b.checkStatements f s = .ok () s') :
    s'.SettledUpTo f.result.mentions.Has := by
  rw [checkStatements_eq] at h
  obtain ⟨_, s₁, hparameters, hrest⟩ := exists_of_bind h
  obtain ⟨hs₁, -⟩ := (steadies_bindParameters _ _).steady hs trivial hparameters
  obtain ⟨_, s₂, henter, hrest⟩ := exists_of_bind hrest
  cases henter
  obtain ⟨_, s₃, hinside, hleave⟩ := exists_of_bind hrest
  cases hleave
  have hentered := hs₁.enterFunction f.result
  obtain ⟨hs₃, -⟩ := hrun.settled _ () s₃ hentered trivial hinside
  have hreturns : s₃.returns = f.result :: s₁.returns :=
    (hrun.lasting.retains hentered.settled hinside).returns
  refine hs₃.upTo.of_live rfl rfl fun x hx => ?_
  rcases hx with hx | hx
  · unfold Checker.allMentions Checker.mentions at hx ⊢
    rw [hreturns] at hx
    simp only [Mentions.has_append, Mentions.has_ofList, List.mem_cons, exists_eq_or_imp] at hx ⊢
    change ((_ ∨ ∃ a ∈ s₃.returns.tail, _) ∨ _) ∨ _
    rw [hreturns]
    rcases hx with (hx | hx | hx) | hx
    · exact .inl (.inl (.inl hx))
    · exact .inr hx
    · exact .inl (.inl (.inr hx))
    · exact .inl (.inr hx)
  · exact hx.elim

/-- After the scope of a function was closed, the exceptions are what the scope, the result of the
function and its class mention. -/
theorem settledUpTo_scope (hs : s.Steady)
    (hcls : ∀ c, b.cls = some c → c.id < s.symbols.classes.size)
    (h : b.scope f s = .ok scope s') :
    s'.SettledUpTo fun x => f.result.mentions.Has x ∨
      (∃ frame, scope = some frame ∧ frame.mentions.Has x) ∨
      ∃ c, b.cls = some c ∧ x = .inr c.id := by
  have hstatements : ∀ {s : Checker}, s.Settled → ∀ inner,
      (b.checkStatements f).Retaining s False (.function :: inner) [] fun _ => True :=
    fun hs inner => Retentive.statements (hrun.lasting _ hs) f inner []
  have hinner : ∀ {s s' : Checker} {r : Unit × Option Frame}, s.Steady →
      Check.bracket .function (b.checkStatements f) s = .ok r s' →
      s'.SettledUpTo fun x => f.result.mentions.Has x ∨
        ∃ frame, r.2 = some frame ∧ frame.mentions.Has x :=
    fun hs hbracket => (hstatements hs.settled []).settledUpTo_bracket hbracket fun s₁ hrun₁ =>
      settledUpTo_statements hrun (hs.opened fun c hc => by cases hc) hrun₁
  unfold FunctionBody.scope at h
  cases hc : b.cls with
  | none =>
    rw [hc] at h
    obtain ⟨r, s₁, hbracket, hret⟩ := exists_of_bind h
    cases hret
    exact (hinner hs hbracket).of_live rfl rfl fun x hx => hx.imp_right (Or.imp_right .inl)
  | some c =>
    rw [hc] at h
    obtain ⟨r, s₁, hbracket, hret⟩ := exists_of_bind h
    cases hret
    have hscope := (hstatements hs.settled [.classBody c]).bracket
    have hopened : (s.opened (.classBody c)).Steady := by
      refine hs.opened ?_
      rintro _ ⟨⟩
      exact hcls c hc
    obtain ⟨-, -, g, hg, hframe⟩ := hscope.bracket s r s' (.refl s) hbracket
    refine (hscope.settledUpTo_bracket hbracket fun s₂ hrun₂ =>
      hinner hopened hrun₂).of_live rfl rfl fun x hx => hx.imp_right ?_
    rintro ((hx | hx) | ⟨g', hg', hx⟩)
    · exact .inl hx
    · exact .inr (.inl hx)
    · cases hg.symm.trans hg'
      exact .inr (.inr ⟨c, rfl, hframe.has_of_classBody hx⟩)

omit hrun in
/-- If the function that gets the scope is mentioned, then what the scope mentions is no exception
any more. -/
theorem settled_define {t : SymbolTable} {frame : Frame} {X : Nat ⊕ Nat → Prop}
    (hs : s.SettledUpTo fun x => frame.mentions.Has x ∨ X x) (hX : ∀ x, X x → s.allMentions.Has x)
    (hf : s.allMentions.Has (.inl f.id)) (hdefine : s.symbols.define? f frame = some t) :
    Checker.Settled { s with symbols := t } := by
  have hmentions : ∀ x, s.allMentions.Has x → (Checker.allMentions { s with symbols := t }).Has x :=
    fun _ => Checker.allMentions_imp (s := s) id (SymbolTable.mentions_define hdefine)
  have hbody : ∀ x, frame.mentions.Has x → (Checker.allMentions { s with symbols := t }).Has x := by
    intro x hx
    have hplace := SymbolTable.body?_define (g := f) hdefine
    rw [if_pos rfl] at hplace
    unfold Checker.allMentions
    rw [Mentions.has_append, SymbolTable.has_mentions]
    exact .inr (.inr (.inr ⟨frame, ⟨f.id, hplace⟩, hx⟩))
  have hall : ∀ x, s.allMentions.Has x ∨ frame.mentions.Has x ∨ X x →
      (Checker.allMentions { s with symbols := t }).Has x := by
    rintro x (hx | hx | hx)
    · exact hmentions x hx
    · exact hbody x hx
    · exact hmentions x (hX x hx)
  refine ⟨fun i hi => ?_, fun i hi => hall _ (hs.classes i ?_)⟩
  · have hplace := SymbolTable.body?_define (g := { f with id := i }) hdefine
    rw [SymbolTable.mem_liveBodies] at hi
    change (t.body? { f with id := i }).isSome = true at hi
    rw [hplace] at hi
    split at hi
    next heq =>
      obtain rfl : i = f.id := heq
      exact hmentions _ hf
    next => exact hall _ (hs.bodies i (SymbolTable.mem_liveBodies.mpr hi))
  · unfold SymbolTable.liveClasses at hi ⊢
    rwa [← (SymbolTable.define?_rest hdefine).2.2.1]

/-- Checking a function body that is anchored. -/
theorem steadies_check : b.check.Steadies b.Anchored fun _ _ => True := by
  cases hf : b.ty.asFunction? with
  | none =>
    unfold FunctionBody.check
    rw [hf]
    exact .fault _
  | some f =>
    refine ⟨fun s₀ hs₀ inner returns _ => Retentive.functionBody hs₀ hf (hrun.lasting s₀ hs₀) inner
      returns, fun s _ s' hs hb h => ⟨?_, trivial⟩⟩
    rw [check_eq hf] at h
    obtain ⟨scope, s₁, hscope, hrest⟩ := exists_of_bind h
    obtain ⟨hs₁, frame, rfl, -⟩ := Retentive.scope (hrun.lasting s hs.settled) f [] [] s scope s₁
      (.refl s) hscope
    obtain ⟨_, s₂, hattach, hlog⟩ := exists_of_bind hrest
    cases hlog
    suffices hs₂ : s₂.Settled from ⟨hs₂.bodies, hs₂.classes⟩
    rcases b.attachScope_cases hattach with ⟨hyes, _, t, ⟨⟩, hdefine, rfl⟩ | ⟨s₃, hdiscard, hs'⟩
    · obtain ⟨hty, hcls⟩ := hb hyes
      obtain ⟨hid, hresult, -⟩ := hty.asFunction? hf
      have hupTo := settledUpTo_scope hrun hs (fun c hc => (hcls c hc).1) hscope
      refine settled_define
        (X := fun x => f.result.mentions.Has x ∨ ∃ c, b.cls = some c ∧ x = .inr c.id)
        (hupTo.of_live rfl rfl fun x hx => hx.imp_right ?_) ?_ (hs₁.allMentions hid) hdefine
      · rintro (hx | ⟨_, ⟨⟩, hx⟩ | hx)
        · exact .inr (.inl hx)
        · exact .inl hx
        · exact .inr (.inr hx)
      · rintro x (hx | ⟨c, hc, rfl⟩)
        · exact hs₁.allMentions (hresult x hx)
        · exact hs₁.allMentions (hcls c hc).2
    · cases hdiscard
      have hsettled := Checker.settled_reclaim { s₁ with symbols := s₁.symbols.discard frame }
      rw [hs']
      exact ⟨hsettled.bodies, hsettled.classes⟩

end FunctionBody

/-! ### Definitions -/

namespace Check.Steadies

variable {α : Type} {p : Checker → Prop}

/-- A step that depends on the table. -/
theorem onSymbols {k : SymbolTable → Check α} {Q : α → Checker → Prop}
    (hk : ∀ t, (k t).Steadies (fun s => p s ∧ s.symbols = t) Q) :
    (Check.symbols >>= k).Steadies p Q where
  lasting s₀ hs₀ inner returns hadmits s := (hk s.symbols).lasting s₀ hs₀ inner returns hadmits s
  settled s a s' hs hp := (hk s.symbols).settled s a s' hs ⟨hp, rfl⟩

/-- What a free name is bound to is mentioned from then on. -/
theorem declare_free (name : String) (position : Position) (ty : Ty) :
    (Check.declare name position ty).Steadies (fun s => s.symbols.lookupLocal? name = none)
      fun _ s => ty.Within s.allMentions.Has := by
  have hdeclare := declare (p := fun _ => True) name position ty
  refine ⟨hdeclare.lasting, fun s a s' hs hfree h => ⟨(hdeclare.settled s a s' hs trivial h).1, ?_⟩⟩
  have hmade : ∀ c, s.symbols.current.cls? = some c → c.id < s.symbols.classes.size := by
    exact fun c hc => hs.made c (List.mem_map.mpr ⟨_, List.mem_cons_self, Frame.kind_of_cls? hc⟩)
  obtain ⟨t, hinsert, hbound⟩ := SymbolTable.insert_free hmade hfree ty
  rw [declare_eq position hinsert] at h
  cases h
  intro x hx
  exact SymbolTable.Mentioned.allMentions (s := { s with symbols := t })
    (SymbolTable.mentioned_of_findIn List.mem_cons_self hbound hx)

/-- A function whose name is free is mentioned once it is declared. -/
theorem declareFunction_free (name : DeclaredName) (ty : Ty) :
    (CWithClasses.declareFunction name ty).Steadies
      (fun s => s.symbols.lookupLocal? name.name = none) fun ty s =>
        ty.Within s.allMentions.Has := by
  unfold CWithClasses.declareFunction
  refine onSymbols fun t => ?_
  cases hfound : t.lookupLocal? name.name with
  | none =>
    refine (declare_free name.name name.position ty).conseq (fun _ hp => hp.1)
      (fun _ _ h => h) |>.next fun _ => .ret fun _ h => h
  | some existing =>
    -- The name is not free, so only the first part is to be shown.
    refine ⟨?_, ?_⟩
    · have hdeclare := declare (p := fun _ => True) name.name name.position ty
      dsimp only
      split
      · exact (ret (p := fun _ => True) (Q := fun _ _ => True) fun _ _ => trivial).lasting
      · exact (hdeclare.next (T := fun _ _ => True) fun _ => .ret fun _ _ => trivial).lasting
    · rintro s _ _ - ⟨hfree, rfl⟩ -
      rw [hfree] at hfound
      cases hfound

/-- The class of a qualified name is mentioned, and so is what its member mentions. -/
theorem resolveQualified (cls : Token) (name : DeclaredName) :
    (CWithClasses.resolveQualified cls name).Steadies p fun found s => ∀ c member,
      found = some (c, some member) → c.id < s.symbols.classes.size ∧
        s.allMentions.Has (.inr c.id) ∧ member.Within s.allMentions.Has := by
  have hresolve : (Check.resolveTypeName cls).Steadies p fun ty s => ∀ c, ty.asClass? = some c →
      s.allMentions.Has (.inr c.id) := by
    unfold Check.resolveTypeName
    refine onSymbols fun t => ?_
    split
    next ty hfound =>
      obtain ⟨d, rfl⟩ := SymbolTable.lookupTypeName_object hfound
      refine .ret ?_
      rintro s ⟨-, rfl⟩ _ ⟨⟩
      exact (SymbolTable.mentioned_of_lookupTypeName hfound).allMentions
    all_goals exact (report _ _).next fun _ => .ret fun _ _ _ hc => by cases hc
  unfold CWithClasses.resolveQualified
  refine hresolve.next fun ty => ?_
  cases ty.asClass? with
  | none => exact .ret fun _ _ _ _ h => by cases h
  | some c =>
    refine onSymbols fun t => ?_
    cases hmember : t.member? c name.name with
    | none => exact (report _ _).next fun _ => .ret fun _ _ _ _ h => by cases h
    | some m =>
      refine .ret ?_
      rintro s ⟨hmentioned, rfl⟩ _ _ ⟨⟩
      refine ⟨?_, hmentioned c rfl, fun x hx =>
        (SymbolTable.mentioned_of_member? hmember hx).allMentions⟩
      obtain ⟨b, hb, -⟩ := SymbolTable.exists_of_member? hmember
      exact (Array.getElem?_eq_some_iff.mp hb).1

/-- A definition with a plain name. -/
theorem defineLocal (name : DeclaredName) (ty : Ty) :
    (CWithClasses.defineLocal name ty).Steadies (fun _ => True) Definition.Anchored := by
  unfold CWithClasses.defineLocal
  refine onSymbols fun t => ?_
  cases hfound : t.lookupLocal? name.name with
  | some existing =>
    dsimp only
    split
    · refine .ret ?_
      rintro s ⟨-, rfl⟩ -
      refine ⟨fun x hx => ?_, fun c hc => by cases hc⟩
      exact SymbolTable.Mentioned.allMentions
        (SymbolTable.mentioned_of_findIn List.mem_cons_self hfound hx)
    · exact (report _ _).next fun _ => .ret fun _ _ hattach => by cases hattach
  | none =>
    refine (declareFunction_free name ty).conseq ?_ (fun _ _ h => h) |>.next fun ty => .ret ?_
    · rintro s ⟨-, rfl⟩
      exact hfound
    · exact fun s hty _ => ⟨hty, fun c hc => by cases hc⟩

/-- A definition with a qualified name. -/
theorem defineMember (cls : Token) (name : DeclaredName) (ty : Ty) :
    (CWithClasses.defineMember cls name ty).Steadies (fun _ => True) Definition.Anchored := by
  have hrefused : ∀ {q : Checker → Prop} {d : Definition}, d.attach = false →
      (pure d : Check Definition).Steadies q Definition.Anchored := by
    intro q d hd
    refine .ret fun _ _ hattach => ?_
    rw [hd] at hattach
    cases hattach
  unfold CWithClasses.defineMember
  refine (resolveQualified cls name).next fun found => ?_
  split
  next c member =>
    split
    · exact (report _ _).next fun _ => hrefused rfl
    · refine onSymbols fun t => ?_
      split
      · exact (report _ _).next fun _ => hrefused rfl
      · refine .ret ?_
        rintro s ⟨hfound, -⟩ -
        obtain ⟨hmade, hclass, hmember⟩ := hfound c member rfl
        refine ⟨hmember, ?_⟩
        rintro _ ⟨⟩
        exact ⟨hmade, hclass⟩
  next => exact hrefused rfl
  next => exact hrefused rfl

/-! ### Trees -/

variable {p : Phrase} {c : Clause}

/-- Declaring the function that a definition introduces. -/
theorem declareFunctionDef (hparts : c.Throughout (Phrase.Runs steadyPairs)) :
    c.declareFunctionDef.Steadies (fun _ => True) FunctionBody.Anchored := by
  unfold Clause.declareFunctionDef
  refine bind (Clause.functionParts_yields hparts) (RunningPairs.functionParts hparts).1 ?_
  rintro ⟨specifiers, declarator, init, body⟩ ⟨hspecifiers, hdeclarator, -, -⟩
  have hbase := DeclaratorPairs.checkSpecifiers (L := steadyPairs.toDeclaratorPairs) fun r hr =>
    ReadingPairs.specifiers (hspecifiers r hr).reads
  refine hbase.1.next fun base => ?_
  refine (hdeclarator.self.declarator base).1.next fun declared => ?_
  split
  · split
    · exact (defineMember _ _ _).next fun d => .ret fun _ hd => hd
    · exact (defineLocal _ _).next fun d => .ret fun _ hd => hd
  · exact .fault _

/-- A function definition. -/
theorem functionDefinition (hparts : c.Throughout (Phrase.Runs steadyPairs)) :
    c.functionDefinition.Steadies (fun _ => True) fun _ _ => True :=
  bind (Clause.declareFunctionDef_yields hparts) (declareFunctionDef hparts) fun _ hb =>
    FunctionBody.steadies_check (FunctionBody.steadies_run hb)

/-- Another access region. -/
theorem setAccess {p : Checker → Prop} (access : Access) :
    (modifySymbols (·.setAccess access)).Steadies p fun _ _ => True := by
  refine of_live (fun _ _ _ _ hadmits => .setAccess hadmits access) (fun s _ _ h => ?_)
    fun s _ _ h _ hi => .inl ?_ <;> cases h
  · exact List.Subset.refl _
  · exact hi

/-- A class is completed. -/
theorem markComplete {p : Checker → Prop} (cls : ClassRef) :
    (modifySymbols (·.markComplete cls)).Steadies p fun _ _ => True := by
  have hlasting : (modifySymbols (·.markComplete cls)).Lasting := fun _ _ _ _ _ =>
    .table fun _ ht => ht.modifyClass fun _ _ _ _ h => h.markComplete
  refine of_live hlasting (fun s _ _ h => ?_) fun s _ _ h i hi => .inl ?_ <;> cases h
  · exact List.Subset.refl _
  · rw [SymbolTable.mem_liveClasses] at hi ⊢
    change ((s.symbols.classes.modify cls.id _)[i]?.any _) = true at hi
    rw [Array.getElem?_modify] at hi
    split at hi
    next heq =>
      subst heq
      cases hbody : s.symbols.classes[cls.id]? with
      | none =>
        rw [hbody] at hi
        cases hi
      | some b =>
        rw [hbody] at hi
        exact hi
    next => exact hi

/-- The body of a class keeps all of any earlier state. -/
theorem lasting_classBody (n : Node) (cls : ClassRef) (access : Access) :
    (do modifySymbols (·.setAccess access)
        let bodies ← Phrase.members (n.clause.part? 1)
        modifySymbols (·.markComplete cls)
        bodies.forM FunctionBody.check : Check Unit).Lasting := by
  intro s₀ hs₀ inner returns hadmits
  let L := retentionLogic hs₀ False
  have hmembers : ∀ r, n.clause.part? 1 = some r → ∀ link ∈ r.memberLinks, L.MemberLink link := by
    intro r hr
    obtain ⟨m, -, rfl⟩ := n.child_of_part? hr
    exact L.sound .memberSpec m (.inl trivial)
  exact .bind (.setAccess hadmits access) fun _ _ =>
    L.classBody (p := True) cls hmembers inner returns hadmits

/-- A class specification. -/
theorem classSpec {n : Node} (hparts : n.clause.Throughout (Phrase.Runs steadyPairs)) :
    Check.Steadies.pairs.pair n.clause.classSpec n.clause.classSpec steadyPairs.ty := by
  unfold Clause.classSpec
  refine steadyPairs.part fun head hhead => ?_
  refine steadyPairs.part fun keyword _ => ?_
  refine steadyPairs.leaf fun key _ => ?_
  split
  · exact steadyPairs.fault _
  · refine steadyPairs.seq (RunningPairs.classHead (hparts 0 head hhead)) fun cls cls' _ => ?_
    -- From the opening of the scope to its end, the class body is a bracket.
    have hclass := (closing (p := fun _ => True) (.classBody cls)
      (lasting_classBody n cls key.kind.defaultAccess)).next fun _ =>
        onSymbols fun table => (log (.definedClass (.object cls)
          (table.classBody cls).publicMembers.length
          (table.classBody cls).privateMembers.length)).next fun _ =>
            .ret (a := Ty.object cls) (Q := fun _ _ => True) fun _ _ => trivial
    refine ⟨?_, fun _ _ _ _ => ⟨_, rfl⟩⟩
    simp only [Check.bracket, bind_assoc, pure_bind] at hclass
    simp only [Check.dropScope, bind_assoc]
    exact hclass

end Check.Steadies

/-- Every tree leads from steady states to steady ones, in all of its roles, and so does all that it
is made of. -/
theorem Node.runs_steady (n : Node) : n.phrase.Throughout (Phrase.Runs steadyPairs) := by
  refine throughout_phrase fun m _ hparts => ?_
  have havoids : m.Avoids steadyPairs.hidden := fun _ _ _ _ => List.not_mem_nil
  exact runs hparts havoids (fun _ => Check.Steadies.classSpec hparts)
    fun _ => Check.Steadies.pair_of (Check.Steadies.functionDefinition hparts)

/-- The parts of a tree lead to steady states. -/
theorem Node.runs_steady_clause (n : Node) : n.clause.Throughout (Phrase.Runs steadyPairs) := by
  rw [← n.phrase_clause]
  exact n.runs_steady.clause

/-- A tree leads to steady states, whatever it is checked as. -/
theorem Node.steadies_check (n : Node) : n.check.Steadies (fun _ => True) fun _ _ => True := by
  refine (check_runs (L := steadyPairs) n.runs_steady ?_).1
  unfold checkClassSpec
  rw [n.phrase_clause]
  exact Check.Steadies.classSpec n.runs_steady_clause

end CWithClasses
