import CWithClasses.Proofs.Logic.Fits

/-!
# Whole trees in a step logic

Every tree that conforms to a syntactic class is sound in the role of that class. In a logic that
considers trees that break the grammar, all trees are sound in all roles. Both are one theorem,
`StepLogic.sound`. In a logic that does not consider statements, the same holds of the trees that
hold none, since all that matters is that a tree `Fits` a class.

The proof goes by induction on the size of a tree, with all classes at once. One lemma for each
class picks the rule for the production of the tree, and the slots of the layout provide what the
rule asks of the parts.
-/

namespace CWithClasses

namespace StepLogic

open Check

variable (L : StepLogic) {n : Node}

namespace Below

variable {L} (ih : L.Below n)

include ih

/-! ### Expressions -/

/-- An expression. -/
theorem expression (hf : L.Fits .expression n) : L.Expression n.phrase := by
  intro p
  rw [n.phrase_roles_eq]
  obtain ⟨rule, children, token⟩ := n
  cases rule with
  | literal =>
    obtain ⟨htoken, hconstant⟩ := hf.constant rfl
    exact L.literal htoken hconstant
  | token =>
    obtain ⟨hleaf, htoken⟩ := hf.leaf rfl
    refine L.leafExpression hleaf fun t ht hconstant hname => htoken t ht ?_
    simp [hconstant, hname]
  | qualifiedId => exact L.qualifiedId (ih.one hf .name rfl) (ih.one hf .identifier rfl)
  | index => exact L.index (ih.one hf .expression rfl) (ih.one hf .expression rfl)
  | call => exact L.call (ih.one hf .expression rfl) (ih.optList hf .expression rfl)
  | cast => exact L.cast (ih.list hf .specifier rfl) (ih.optList hf .expression rfl)
  | dotField | arrowField =>
    exact L.memberAccess (ih.one hf .expression rfl) (ih.one hf .identifier rfl)
  | postIncrement | postDecrement | preIncrement | preDecrement =>
    exact L.step (ih.one hf .expression rfl)
  | dereference | addressOf | unaryPlus | unaryMinus | logicalNot | complement | sizeofExpr =>
    exact L.unary (ih.one hf .expression rfl)
  | sizeofType => exact L.sizeofType (ih.one hf .typeName rfl)
  | newExpr => exact L.newExpr (ih.one hf .newTypeName rfl) (ih.optList hf .expression rfl)
  | deleteObject | deleteArray => exact L.deleteExpr (ih.one hf .expression rfl)
  | dotMemberPointer | arrowMemberPointer =>
    exact L.memberPointer (ih.one hf .expression rfl) (ih.one hf .expression rfl)
  | conditional =>
    exact L.conditional (ih.one hf .expression rfl) (ih.one hf .expression rfl)
      (ih.one hf .expression rfl)
  | assignment =>
    exact L.assignment (ih.one hf .expression rfl) (ih.one hf .assignOperator rfl)
      (ih.one hf .expression rfl)
  | comma => exact L.comma (ih.one hf .expression rfl) (ih.one hf .expression rfl)
  | exprList => exact L.expressionList (ih.items hf .expression (.inl rfl))
  | multiply | divide | remainder | add | subtract | shiftLeft | shiftRight | less | greater
  | lessEqual | greaterEqual | equal | notEqual | bitAnd | bitXor | bitOr | logicalAnd
  | logicalOr => exact L.binary _ (ih.one hf .expression rfl) (ih.one hf .expression rfl)
  | _ => exact L.unexpected _ _ (hf.faults rfl)

/-- An initializer. -/
theorem initializer (hf : L.Fits .initializer n) : L.Initializer n.phrase := by
  intro p ty
  rw [n.phrase_roles_eq]
  change L.triple p (n.clause.initializer n.clause.expression ty) fun t => ty.Known → t.Known
  have hexpression : layout .initializer n.rule = layout .expression n.rule →
      L.triple p n.clause.expression Ty.Known := by
    intro hlayout
    have h := ih.expression (hf.congr hlayout (by decide)) p
    rwa [n.phrase_roles_eq] at h
  obtain ⟨rule, children, token⟩ := n
  cases rule with
  | initializer => exact L.initializer_nested (.inl rfl) (ih.one hf .initializer rfl)
  | constantInit => exact L.initializer_nested (.inr rfl) (ih.one hf .initializer rfl)
  | parenInit => exact L.initializer_parens rfl (ih.optList hf .expression rfl)
  | braceInit => exact L.initializer_braces rfl (ih.optList hf .initializer rfl)
  | _ => exact L.initializer_expression ⟨nofun, nofun, nofun, nofun⟩ (hexpression rfl)

/-! ### Specifiers and type names -/

/-- A single specifier. -/
theorem specifier (hf : L.Fits .specifier n) : L.Specifier n.phrase := by
  intro p
  rw [n.phrase_roles_eq]
  obtain ⟨rule, children, token⟩ := n
  cases rule with
  | token =>
    obtain ⟨hleaf, htoken⟩ := hf.leaf rfl
    refine L.specifierToken hleaf fun t ht => ?_
    by_cases haccepted : t.kind.isName = true ∨ t.kind = .typedef ∨ t.kind.isModifier = true ∨
        t.kind.primitive?.isSome
    · unfold SpecifierToken
      grind
    · refine .inr (.inr (.inr (.inr (htoken t ht ?_))))
      grind
  | classSpec =>
    exact L.specifier_classSpec rfl (ih.one hf .classHead rfl) (ih.opt hf .memberSpec rfl)
  | elaborated => exact L.specifier_elaborated rfl (ih.one hf .identifier rfl)
  | elaboratedNested =>
    exact L.specifier_elaboratedNested rfl (ih.one hf .name rfl) (ih.one hf .identifier rfl)
  | nestedTypeName =>
    exact L.specifier_nestedTypeName rfl (ih.one hf .name rfl) (ih.one hf .identifier rfl)
  | typeId => exact L.specifier_typeId rfl (ih.list hf .specifier rfl) (ih.opt hf .declarator rfl)
  | _ => exact L.unexpected _ _ (hf.faults rfl)

/-- A type name, which may be a mere sequence of specifiers. -/
theorem typeName (hf : L.Fits .typeName n) : L.TypeName n.phrase := by
  refine L.typeName ?_ ?_
  · rw [n.phrase_rule, n.phrase_clause]
    intro hrule
    exact ⟨ih.list hf .specifier (by rw [hrule]; rfl), ih.opt hf .declarator (by rw [hrule]; rfl)⟩
  · intro _
    refine ih.each hf layout_typeName_list fun hlist => ?_
    exact ih.specifier (hf.congr (layout_typeName hlist) (by decide))

/-- What a new-expression allocates. -/
theorem newTypeName (hf : L.Fits .newTypeName n) : L.Allocated n.phrase := by
  refine L.allocated ?_ ?_
  · rw [n.phrase_rule, n.phrase_clause]
    intro hrule
    exact ⟨ih.list hf .specifier (by rw [hrule]; rfl),
      ih.opt hf .newDeclarator (by rw [hrule]; rfl)⟩
  · rw [n.phrase_rule]
    intro hrule
    exact ih.typeName (hf.congr (layout_newTypeName hrule) (by decide))

/-! ### Declarators -/

/-- A declarator of a new-expression. -/
theorem newDeclarator (hf : L.Fits .newDeclarator n) : L.NewDeclarator n.phrase := by
  intro p ty hty
  rw [n.phrase_roles_eq]
  change L.triple p (n.clause.newDeclarator ty) Ty.Known
  obtain ⟨rule, children, token⟩ := n
  cases rule with
  | newPointer => exact L.newDeclarator_pointer rfl (ih.opt hf .newDeclarator rfl) hty
  | newBound => exact L.newDeclarator_bound rfl (ih.one hf .expression rfl) hty
  | newArray =>
    exact L.newDeclarator_array rfl (ih.one hf .newDeclarator rfl) (ih.one hf .expression rfl) hty
  | _ => exact L.unexpected _ _ (hf.faults rfl)

omit ih in
/-- A pointer operator. -/
theorem pointerOperator (hf : L.Fits .pointerOperator n) : L.PointerOperator n.phrase := by
  refine L.pointerOperator ?_ ?_
  · rw [n.phrase_rule, n.phrase_node]
    intro hrule
    obtain ⟨hleaf, htoken⟩ := hf.leaf (by rw [hrule]; rfl)
    refine ⟨hleaf, fun t ht hstar hampersand => htoken t ht ?_⟩
    simp [hstar, hampersand]
  · rw [n.phrase_rule]
    intro hqualified hmember htoken
    refine hf.faults ?_
    cases hrule : n.rule <;> first | rfl | contradiction

/-- A declarator, with a name or without one. -/
theorem declarator (hf : L.Fits .declarator n) : L.Declarator n.phrase := by
  intro p ty hty
  rw [n.phrase_roles_eq]
  change L.triple p (n.clause.declarator ty) fun d => d.ty.Known
  obtain ⟨rule, children, token⟩ := n
  cases rule with
  | token =>
    obtain ⟨hleaf, htoken⟩ := hf.leaf rfl
    exact L.declarator_token rfl hleaf htoken hty
  | pointerDeclarator =>
    exact L.declarator_pointer rfl (ih.one hf .pointerOperator rfl) (ih.one hf .declarator rfl) hty
  | abstractPointer =>
    exact L.declarator_abstractPointer rfl (ih.one hf .pointerOperator rfl)
      (ih.opt hf .declarator rfl) hty
  | functionDeclarator =>
    exact L.declarator_function (.inl rfl) (ih.one hf .declarator rfl)
      (ih.optList hf .parameter rfl) hty
  | constFunctionDeclarator =>
    exact L.declarator_function (.inr rfl) (ih.one hf .declarator rfl)
      (ih.optList hf .parameter rfl) hty
  | abstractFunction =>
    exact L.declarator_abstractFunction rfl (ih.opt hf .declarator rfl)
      (ih.optList hf .parameter rfl) hty
  | arrayDeclarator =>
    exact L.declarator_array rfl (ih.one hf .declarator rfl) (ih.opt hf .expression rfl) hty
  | abstractArray =>
    exact L.declarator_abstractArray rfl (ih.opt hf .declarator rfl) (ih.opt hf .expression rfl)
      hty
  | abstractParens => exact L.declarator_parens rfl (ih.opt hf .declarator rfl) hty
  | constructorDeclarator =>
    exact L.declarator_constructor rfl (ih.one hf .identifier rfl) (ih.optList hf .parameter rfl)
  | destructorDeclarator => exact L.declarator_destructor rfl (ih.one hf .identifier rfl)
  | qualifiedDeclarator =>
    exact L.declarator_qualified rfl (ih.one hf .name rfl) (ih.one hf .declarator rfl) hty
  | _ => exact L.unexpected _ _ (hf.faults rfl)

/-- A declarator with a name. -/
theorem namedDeclarator (hf : L.Fits .namedDeclarator n) : L.NamedDeclarator n.phrase := by
  refine ⟨ih.declarator (hf.declarator (.inl rfl)), fun ty => ?_⟩
  rw [n.phrase_roles_eq]
  change (n.clause.declarator ty).Yields fun d => d.name = none → L.faults
  obtain ⟨rule, children, token⟩ := n
  cases rule with
  | token =>
    exact (Yields.declarator_token rfl).mono fun d hd hnone => by simp [hnone] at hd
  | pointerDeclarator =>
    exact .declarator_pointer rfl fun q hq => ((ih.one hf .namedDeclarator rfl).part q hq).2
  | functionDeclarator =>
    exact .declarator_function (.inl rfl)
      (fun q hq t _ => ((ih.one hf .namedDeclarator rfl).part q hq).2 t) fun d params hd => hd
  | constFunctionDeclarator =>
    exact .declarator_function (.inr rfl)
      (fun q hq t _ => ((ih.one hf .namedDeclarator rfl).part q hq).2 t) fun d params hd => hd
  | arrayDeclarator =>
    exact .declarator_array rfl fun q hq => ((ih.one hf .namedDeclarator rfl).part q hq).2
  | constructorDeclarator =>
    exact (Yields.declarator_special (.inl rfl)).mono fun d hd hnone => by simp [hnone] at hd
  | destructorDeclarator =>
    exact (Yields.declarator_special (.inr rfl)).mono fun d hd hnone => by simp [hnone] at hd
  | qualifiedDeclarator =>
    refine .declarator_qualified rfl
      (fun q hq => ((ih.one hf .namedDeclarator rfl).part q hq).2 ty) fun d cls hd hnone => ?_
    exact hd (Option.map_eq_none_iff.mp hnone)
  | _ => exact fun _ _ _ _ _ => hf.faults rfl

/-- A declarator of a function. Next to the name, it hands on the type of a function. -/
theorem functionDeclarator (hf : L.Fits .functionDeclarator n) :
    L.FunctionDeclarator n.phrase := by
  refine ⟨ih.declarator (hf.declarator (.inr (.inl rfl))), fun ty => ?_⟩
  rw [n.phrase_roles_eq]
  change (n.clause.declarator ty).Yields fun d =>
    d.name = none ∨ d.parameters = none ∨ d.ty.function? = none → L.faults
  have hspecial : ∀ d : Declared,
      (d.name.isSome ∧ d.parameters.isSome ∧ d.ty.function?.isSome) →
        (d.name = none ∨ d.parameters = none ∨ d.ty.function? = none) → L.faults := by
    rintro d ⟨hname, hparameters, hfunction⟩ (hnone | hnone | hnone)
    · simp [hnone] at hname
    · simp [hnone] at hparameters
    · simp [hnone] at hfunction
  have hadd : ∀ (d : Declared) (params : List CWithClasses.Parameter),
      (d.name = none ∨ d.ty.function? = none → L.faults) →
        ((d.withParameters params).name = none ∨ (d.withParameters params).parameters = none ∨
          (d.withParameters params).ty.function? = none) → L.faults := by
    rintro d params hd (hnone | hnone | hnone)
    · exact hd (.inl hnone)
    · simp [Declared.withParameters] at hnone
    · exact hd (.inr hnone)
  obtain ⟨rule, children, token⟩ := n
  cases rule with
  | pointerDeclarator =>
    exact .declarator_pointer rfl fun q hq => ((ih.one hf .functionDeclarator rfl).part q hq).2
  | functionDeclarator =>
    exact .declarator_function (.inl rfl)
      (fun q hq => ((ih.one hf .functionName rfl).part q hq).2) hadd
  | constFunctionDeclarator =>
    exact .declarator_function (.inr rfl)
      (fun q hq => ((ih.one hf .functionName rfl).part q hq).2) hadd
  | arrayDeclarator =>
    exact .declarator_array rfl fun q hq => ((ih.one hf .functionDeclarator rfl).part q hq).2
  | constructorDeclarator => exact (Yields.declarator_special (.inl rfl)).mono hspecial
  | destructorDeclarator => exact (Yields.declarator_special (.inr rfl)).mono hspecial
  | qualifiedDeclarator =>
    refine .declarator_qualified rfl
      (fun q hq => ((ih.one hf .functionDeclarator rfl).part q hq).2 ty) fun d cls hd hnone => ?_
    exact hd (hnone.imp_left Option.map_eq_none_iff.mp)
  | _ => exact fun _ _ _ _ _ => hf.faults rfl

/-- What a function layer is put around. -/
theorem functionName (hf : L.Fits .functionName n) : L.FunctionName n.phrase := by
  refine ⟨ih.declarator (hf.declarator (.inr (.inr rfl))), ?_⟩
  intro ty hty
  by_cases hname : n.rule = .token ∨ n.rule = .qualifiedDeclarator
  · rw [n.phrase_roles_eq]
    change (n.clause.declarator ty).Yields fun d => d.name = none ∨ d.ty.function? = none → L.faults
    rcases hname with hrule | hrule
    · refine (Yields.declarator_token (c := n.clause) hrule).mono fun d hd hnone => ?_
      rw [hd.2] at hnone
      rcases hnone with hnone | hnone
      · simp [hnone] at hd
      · simp [hnone] at hty
    · have hinner := ih.one (i := 1) hf .functionName (by rw [hrule]; rfl)
      refine .declarator_qualified hrule (fun q hq => (hinner.part q hq).2 ty hty) ?_
      exact fun d cls hd hnone => hd (hnone.imp_left Option.map_eq_none_iff.mp)
  · have hlayout : layout .functionName n.rule = layout .functionDeclarator n.rule := by
      cases hrule : n.rule <;> first | rfl | simp [hrule] at hname
    have hfits := hf.congr hlayout (by decide)
    refine ((ih.functionDeclarator hfits).2 ty).mono fun d hd hnone => hd ?_
    exact hnone.imp_right .inr

/-- A parameter. -/
theorem parameter (hf : L.Fits .parameter n) : L.Parameter n.phrase := by
  obtain ⟨rule, children, token⟩ := n
  cases rule with
  | namedParam =>
    exact L.parameter_named rfl (ih.list hf .specifier rfl) (ih.one hf .declarator rfl)
  | namedParamDefault =>
    exact L.parameter_namedDefault rfl (ih.list hf .specifier rfl) (ih.one hf .declarator rfl)
      (ih.one hf .expression rfl)
  | abstractParam =>
    exact L.parameter_abstract rfl (ih.list hf .specifier rfl) (ih.opt hf .declarator rfl)
  | abstractParamDefault =>
    exact L.parameter_abstractDefault rfl (ih.list hf .specifier rfl) (ih.opt hf .declarator rfl)
      (ih.one hf .expression rfl)
  | _ => exact L.parameter_unexpected nofun nofun nofun nofun (hf.faults rfl)

/-- The slots of a function definition, where definitions may stand. -/
theorem functionParts (hf : L.Fits .declaration n)
    (hother : n.rule ≠ .functionDef → n.rule ≠ .constructorDef → L.faults) :
    L.FunctionParts n.clause := by
  refine ⟨?_, ?_, hother⟩
  · intro hrule
    replace hrule : n.rule = .functionDef := hrule
    exact ⟨ih.optList hf .specifier (by rw [hrule]; rfl),
      ih.one hf .functionDeclarator (by rw [hrule]; rfl),
      ih.one hf .functionBody (by rw [hrule]; rfl)⟩
  · intro hrule
    replace hrule : n.rule = .constructorDef := hrule
    exact ⟨ih.one hf .functionDeclarator (by rw [hrule]; rfl),
      ih.one hf .ctorInit (by rw [hrule]; rfl), ih.one hf .functionBody (by rw [hrule]; rfl)⟩

/-- A declarator with an initializer, or without one. -/
theorem initDeclarator (hf : L.Fits .initDeclarator n) : L.InitDeclItem n.phrase := by
  refine L.initDeclItem ?_ ?_
  · rw [n.phrase_rule, n.phrase_clause]
    intro hrule
    exact ⟨ih.one hf .namedDeclarator (by rw [hrule]; rfl),
      ih.opt hf .initializer (by rw [hrule]; rfl)⟩
  · rw [n.phrase_rule]
    intro hrule
    exact ih.namedDeclarator (hf.congr (layout_initDeclarator hrule) (by decide))

/-! ### Declarations -/

/-- A declaration. -/
theorem declaration (hf : L.Fits .declaration n) : L.Declaration n.phrase := by
  intro p
  rw [n.phrase_roles_eq]
  change L.triple p n.clause.declaration fun _ => True
  obtain ⟨rule, children, token⟩ := n
  cases rule with
  | declSeq => exact L.forM fun item hitem => ih.items hf .declaration (.inl rfl) item hitem p
  | simpleDecl =>
    exact L.simpleDeclaration (ih.list hf .specifier rfl) (ih.optList hf .initDeclarator rfl)
  | functionDef => exact L.functionDefinition (ih.functionParts hf fun h => absurd rfl h)
  | constructorDef => exact L.functionDefinition (ih.functionParts hf fun _ h => absurd rfl h)
  | _ => exact L.unexpected _ _ (hf.faults rfl)

/-! ### Statements -/

/-- A condition. -/
theorem condition (hf : L.Fits .condition n) : L.Condition n.phrase := by
  refine L.condition ?_ ?_
  · rw [n.phrase_rule, n.phrase_clause]
    intro hrule
    exact ⟨ih.list hf .specifier (by rw [hrule]; rfl),
      ih.one hf .namedDeclarator (by rw [hrule]; rfl), ih.one hf .initializer (by rw [hrule]; rfl)⟩
  · rw [n.phrase_rule]
    intro hrule
    exact ih.expression (hf.congr (layout_condition hrule) (by decide))

/-- A statement that opens a scope. -/
theorem scopedStatement (hf : L.Fits .statement n) (hrule : n.rule.opensScope = true) :
    L.Scoped n.phrase.roles.statement := by
  rw [n.phrase_roles_eq]
  change L.Scoped (n.clause.statement n.clause.expression n.clause.declaration)
  obtain ⟨rule, children, token⟩ := n
  cases rule with
  | compound => exact L.block (ih.optList hf .statement rfl)
  | ifThen => exact L.ifStatement (ih.one hf .condition rfl) (ih.one hf .statement rfl) nofun
  | ifElse =>
    exact L.ifStatement (ih.one hf .condition rfl) (ih.one hf .statement rfl)
      fun _ => ih.one hf .statement rfl
  | switchOn => exact L.switchStatement rfl (ih.one hf .condition rfl) (ih.one hf .statement rfl)
  | whileLoop => exact L.whileStatement (ih.one hf .condition rfl) (ih.one hf .statement rfl)
  | forLoop =>
    exact L.forStatement (ih.opt hf .statement rfl) (ih.opt hf .condition rfl)
      (ih.opt hf .expression rfl) (ih.one hf .statement rfl)
  | _ => cases hrule

/-- A statement. -/
theorem statement (hf : L.Fits .statement n) : L.Statement n.phrase := by
  intro p
  rw [n.phrase_roles_eq]
  change L.triple p (n.clause.statement n.clause.expression n.clause.declaration) fun _ => True
  have hexpression : layout .statement n.rule = layout .expression n.rule →
      L.triple p (do let _ ← n.clause.expression) fun _ => True := by
    intro hlayout
    have h := ih.expression (hf.congr hlayout (by decide)) p
    rw [n.phrase_roles_eq] at h
    exact L.expressionStatement h
  have hdeclaration : layout .statement n.rule = layout .declaration n.rule →
      L.triple p n.clause.declaration fun _ => True := by
    intro hlayout
    have h := ih.declaration (hf.congr hlayout (by decide)) p
    rwa [n.phrase_roles_eq] at h
  have hscoped : n.rule.opensScope = true →
      L.triple p (n.clause.statement n.clause.expression n.clause.declaration) fun _ => True := by
    intro hrule
    have h := ih.scopedStatement hf hrule
    rw [n.phrase_roles_eq] at h
    exact h.triple
  have hstatements : L.statements := hf.statements (.inl rfl)
  obtain ⟨rule, children, token⟩ := n
  cases rule with
  | compound | ifThen | ifElse | switchOn | whileLoop | forLoop => exact hscoped rfl
  | statementSeqStart | statementSeq =>
    exact L.forM fun item hitem => ih.items hf .statement (.inl rfl) item hitem p
  | doWhileLoop => exact L.doWhileStatement (ih.one hf .statement rfl) (ih.one hf .condition rfl)
  | caseLabel =>
    exact L.caseLabel hstatements (ih.one hf .expression rfl) (ih.opt hf .statement rfl)
  | defaultLabel => exact L.defaultLabel hstatements (ih.opt hf .statement rfl)
  | breakJump => exact L.readNesting (fun _ => rfl) fun s => L.jump hstatements _ _
  | continueJump => exact L.readNesting (fun _ => rfl) fun s => L.jump hstatements _ _
  | returnJump => exact L.returnStatement hstatements (ih.opt hf .expression rfl)
  | declSeq | simpleDecl => exact hdeclaration rfl
  | _ => first | exact hexpression rfl | exact L.unexpected _ _ (hf.faults rfl)

/-- The body of a function. -/
theorem functionBody (hf : L.Fits .functionBody n) : L.FunctionBlock n.phrase := by
  refine L.functionBlock ?_ fun _ => ih.statement (hf.congr rfl (by decide))
  rw [n.phrase_rule]
  intro hrule
  have h := ih.optList (i := 0) hf .statement (by rw [hrule]; rfl)
  rwa [← n.phrase_clause] at h

/-! ### Classes -/

/-- The initializer of a member. -/
theorem memberInit (hf : L.Fits .memberInit n) : L.MemberInit n.phrase := by
  refine L.memberInit ?_ ?_ <;> rw [n.phrase_rule]
  · exact fun hrule => hf.faults (layout_memberInit hrule)
  · unfold Phrase.part?
    rw [n.phrase_clause]
    exact fun hrule => ⟨ih.one hf .memberInitId (by rw [hrule]; rfl),
      ih.optList hf .expression (by rw [hrule]; rfl)⟩

/-- The member initializers of a constructor. -/
theorem ctorInit (hf : L.Fits .ctorInit n) : L.CtorInit n.phrase := by
  refine L.ctorInit ?_ ?_
  · rw [n.phrase_rule, n.phrase_clause]
    intro hrule
    exact ih.list hf .memberInit (by rw [hrule]; rfl)
  · rw [n.phrase_rule]
    intro hrule
    refine ih.each hf layout_ctorInit_list fun hlist => ?_
    exact ih.memberInit (hf.congr (layout_ctorInit hlist hrule) (by decide))

/-- What a member initializer is about. -/
theorem memberInitId (hf : L.Fits .memberInitId n) : L.MemberInitId n.phrase := by
  unfold MemberInitId
  rw [n.phrase_rule, n.phrase_clause]
  refine ⟨fun hrule => ih.one hf .identifier (by rw [hrule]; rfl), fun hmember hbase => ?_⟩
  refine hf.faults ?_
  cases hrule : n.rule <;> first | rfl | contradiction

/-- The head of a class. -/
theorem classHead (hf : L.Fits .classHead n) : L.ClassHead n.phrase := by
  obtain ⟨rule, children, token⟩ := n
  cases rule with
  | classHead => exact ⟨ih.one hf .classKey rfl, fun _ => ih.one hf .identifier rfl, absurd rfl⟩
  | anonymousHead => exact ⟨ih.one hf .classKey rfl, nofun, fun _ => absurd rfl⟩
  | _ =>
    have hkey := ih.any (i := 0) (hf.faults rfl) (hf.statements (.inr rfl)) .classKey
    exact ⟨hkey, nofun, fun _ _ => hf.faults rfl⟩

/-- A class specification. -/
theorem classSpec (hf : L.Fits .classSpec n) (p : Prop) :
    L.triple p n.phrase.clause.classSpec Ty.Known := by
  rw [n.phrase_clause]
  by_cases hrule : n.rule = .classSpec
  · exact L.classSpec (ih.one hf .classHead (by rw [hrule]; rfl))
      (ih.opt hf .memberSpec (by rw [hrule]; rfl))
  · have hfaults : L.faults := by
      refine hf.faults ?_
      cases hrule' : n.rule <;> first | rfl | contradiction
    have hstatements : L.statements := hf.statements (.inl rfl)
    exact L.classSpec (ih.any hfaults hstatements .classHead)
      (ih.any hfaults hstatements .memberSpec).part

/-- The declarator of a member. -/
theorem memberDeclarator (hf : L.Fits .memberDeclarator n) : L.MemberDeclarator n.phrase := by
  refine L.memberDeclarator ?_ ?_ ?_ ?_ <;> rw [n.phrase_rule]
  · rw [n.phrase_clause]
    exact fun hrule => ih.one hf .namedDeclarator (by rw [hrule]; rfl)
  · rw [n.phrase_clause]
    exact fun hrule => ⟨ih.one hf .namedDeclarator (by rw [hrule]; rfl),
      ih.one hf .initializer (by rw [hrule]; rfl)⟩
  · unfold Phrase.part?
    rw [n.phrase_clause]
    exact fun hrule => ⟨ih.one hf .expression (by rw [hrule]; rfl),
      ih.opt hf .namedDeclarator (by rw [hrule]; rfl)⟩
  · intro hpure hinit hbits
    have hlayout : layout .memberDeclarator n.rule = layout .namedDeclarator n.rule := by
      cases hrule : n.rule <;> first | rfl | contradiction
    exact ih.namedDeclarator (hf.congr hlayout (by decide))

/-- The declaration of a member. -/
theorem memberDeclaration (hf : L.Fits .memberDeclaration n) : L.MemberDeclaration n.phrase := by
  refine L.memberDeclaration ?_ ?_ ?_ ?_ <;> rw [n.phrase_rule] <;> try unfold Phrase.part?
  · rw [n.phrase_clause]
    intro hrule
    refine ih.functionParts (hf.congr ?_ (by decide)) fun hfunction hconstructor => ?_
    · rcases hrule with hrule | hrule <;> rw [hrule] <;> rfl
    · exact absurd hrule (not_or.mpr ⟨hfunction, hconstructor⟩)
  · rw [n.phrase_clause]
    exact fun hrule => ⟨ih.optList hf .specifier (by rw [hrule]; rfl),
      ih.optList hf .memberDeclarator (by rw [hrule]; rfl)⟩
  · rw [n.phrase_clause]
    exact fun hrule => ⟨ih.list hf .specifier (by rw [hrule]; rfl),
      ih.optList hf .initDeclarator (by rw [hrule]; rfl)⟩
  · intro hfunction hconstructor hmember hsimple
    refine hf.faults ?_
    cases hrule : n.rule <;> first | rfl | contradiction

/-- A link of a member specification. -/
theorem memberLink (hf : L.Fits .memberSpec n) : L.MemberLink n.phrase := by
  refine L.memberLink ?_ ?_ ?_ <;> rw [n.phrase_rule] <;> try rw [n.phrase_clause]
  · exact fun hrule => ih.one hf .memberDeclaration (by rw [hrule]; rfl)
  · exact fun hrule => ih.one hf .accessKeyword (by rw [hrule]; rfl)
  · intro hmember haccess
    have hlayout : layout .memberSpec n.rule = layout .memberDeclaration n.rule := by
      cases hrule : n.rule <;> first | rfl | contradiction
    exact ih.memberDeclaration (hf.congr hlayout (by decide))

/-- The links of a member specification. -/
theorem memberSpec (hf : L.Fits .memberSpec n) :
    ∀ link ∈ n.phrase.memberLinks, L.MemberLink link := by
  intro link hlink
  rcases Phrase.mem_memberLinks hlink with rfl | ⟨hrule, next, hnext, hrest⟩
  · exact ih.memberLink hf
  · rw [n.phrase_rule] at hrule
    unfold Phrase.part? at hnext
    rw [n.phrase_clause] at hnext
    rcases hrule with hrule | hrule
    · exact ih.opt hf .memberSpec (by rw [hrule]; rfl) next hnext link hrest
    · exact ih.opt hf .memberSpec (by rw [hrule]; rfl) next hnext link hrest

end Below

/-! ### All classes at once -/

/-- Every tree is sound in the role of each class that it fits. -/
theorem sound_of_fits (σ : Nonterminal) (n : Node) (hf : L.Fits σ n) : L.Means σ n.phrase := by
  have ih : L.Below n := fun m _ τ hτ => sound_of_fits τ m hτ
  cases σ with
  | program =>
    change ∀ q, n.phrase.clause.part? 0 = some q → L.Declaration q
    rw [n.phrase_clause]
    by_cases hrule : n.rule = .program
    · exact ih.opt hf .declaration (by rw [hrule]; rfl)
    · refine (ih.any (hf.faults ?_) (hf.statements (.inl rfl)) .declaration).part
      cases hrule' : n.rule <;> first | rfl | contradiction
  | declaration => exact ih.declaration hf
  | statement => exact ih.statement hf
  | functionBody => exact ih.functionBody hf
  | condition => exact ih.condition hf
  | expression => exact ih.expression hf
  | initializer => exact ih.initializer hf
  | specifier => exact ih.specifier hf
  | typeName => exact ih.typeName hf
  | newTypeName => exact ih.newTypeName hf
  | newDeclarator => exact ih.newDeclarator hf
  | declarator => exact ih.declarator hf
  | namedDeclarator => exact ih.namedDeclarator hf
  | functionDeclarator => exact ih.functionDeclarator hf
  | functionName => exact ih.functionName hf
  | pointerOperator => exact Below.pointerOperator hf
  | parameter => exact ih.parameter hf
  | initDeclarator => exact ih.initDeclarator hf
  | classSpec => exact ih.classSpec hf
  | classHead => exact ih.classHead hf
  | memberSpec => exact ih.memberSpec hf
  | memberDeclaration => exact ih.memberDeclaration hf
  | memberDeclarator => exact ih.memberDeclarator hf
  | ctorInit => exact ih.ctorInit hf
  | memberInit => exact ih.memberInit hf
  | memberInitId => exact ih.memberInitId hf
  | name => exact ih.name hf
  | identifier => exact (hf.token rfl (.inl rfl)).1
  | assignOperator =>
    obtain ⟨hleaf, htoken⟩ := hf.token rfl (.inr (.inl rfl))
    exact ⟨hleaf, fun t ht hnone => htoken t ht (by simpa using hnone)⟩
  | accessKeyword =>
    obtain ⟨hleaf, htoken⟩ := hf.token rfl (.inr (.inr (.inl rfl)))
    exact ⟨hleaf, fun t ht hnone => htoken t ht (by simpa using hnone)⟩
  | classKey => exact hf.token rfl (.inr (.inr (.inr rfl)))
termination_by sizeOf n

section Full

variable [hL : Fact L.statements]

/-- If statements are considered, a tree is sound in the role of each class that it conforms to. -/
theorem sound (σ : Nonterminal) (n : Node) (hf : L.faults ∨ n.conforms σ = true) :
    L.Means σ n.phrase :=
  L.sound_of_fits σ n ⟨hf, .inl hL.out⟩

/-- A statement that opens a scope runs a sound step in it. -/
theorem scopedStatement (hf : L.faults ∨ n.conforms .statement = true)
    (hrule : n.rule.opensScope = true) : L.Scoped n.checkStatement := by
  have hbelow : L.Below n := fun m _ τ hτ => L.sound_of_fits τ m hτ
  exact hbelow.scopedStatement ⟨hf, .inl hL.out⟩ hrule

/-- A whole tree that conforms to its class. -/
theorem check {p : Prop} (hf : L.faults ∨ n.conforms n.rule.start = true) :
    L.triple p n.check Ty.Known := by
  have hvoid : ∀ {x : Check Unit}, L.triple p x (fun _ => True) →
      L.triple p (do x; return Ty.void) Ty.Known :=
    fun hx => L.next hx fun _ => L.ret _ fun _ => Ty.known_void
  have hsound := L.sound _ n hf
  unfold Node.check
  unfold Rule.start at hsound
  split <;> rename_i hcategory <;> simp only [hcategory] at hsound
  · cases hchild : n.child? 0 with
    | none => exact L.ret _ fun _ => Ty.known_void
    | some m => exact hvoid (hsound m.phrase (by rw [n.phrase_part?, hchild]; rfl) p)
  · exact hvoid (hsound p)
  · exact hvoid (hsound p)
  · exact hvoid (hsound p)
  · split
    next hrule =>
      rw [if_pos hrule] at hsound
      exact hsound p
    next hrule =>
      rw [if_neg hrule] at hsound
      exact hsound p
  · exact hsound p

/-- If trees that break the grammar are considered, the slots of any tree are sound for a
definition. -/
theorem anyFunctionParts (hfaults : L.faults) (n : Node) : L.FunctionParts n.clause := by
  have hbelow : L.Below n := fun m _ τ hτ => L.sound_of_fits τ m hτ
  exact hbelow.functionParts ⟨.inl hfaults, .inl hL.out⟩ fun _ _ => hfaults

/-- If trees that break the grammar are considered, any tree may be checked as a definition. -/
theorem checkFunctionDefinition {p : Prop} (hfaults : L.faults) :
    L.triple p n.checkFunctionDefinition fun _ => True := by
  unfold Node.checkFunctionDefinition
  rw [n.phrase_clause]
  exact L.functionDefinition (L.anyFunctionParts hfaults n)

end Full

end StepLogic

/-- The outcome of a check is read off the state that the check of the tree ends in. -/
theorem typeCheck_eq (root : Node) (config : Config) :
    typeCheck root config = match root.check (.start config) with
      | .ok ty s => .ok (s.outcome ty)
      | .error e _ => .error e := by
  unfold typeCheck Node.checkAll
  simp only [bind, EStateM.bind]
  cases root.check (.start config) <;> rfl

end CWithClasses
