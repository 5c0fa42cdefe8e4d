import CWithClasses.Proofs.Likeness.Function

/-!
# Private members from outside

From outside of a class, the types of its private members cannot be found out. An expression may
name a private member, through an object, a pointer or the class, and it may construct objects of
the class. In all these cases it finds out that there is a private member of that name, and no more.

The two runs to compare start in states that are alike: nothing is renumbered, no name is hidden,
and the one class is veiled.
-/

namespace CWithClasses

open Node (word tree)

variable {s : Checker} {c : ClassRef} {members : Bindings}

/-- The state in which a class has other private members. -/
def Checker.withPrivate (s : Checker) (c : ClassRef) (members : Bindings) : Checker :=
  { s with symbols := s.symbols.modifyClass c fun b => { b with privateMembers := members } }

/-- What a check of an expression tells: the type or the fault, and all that has been found out. -/
def told : EStateM.Result Fault Checker Ty → Except Fault Ty × List Diagnostic × List Resolution
  | .ok ty s => (.ok ty, s.diagnostics, s.resolutions)
  | .error e s => (.error e, s.diagnostics, s.resolutions)

/-! ### A veiled class -/

/-- Nothing differs but the types of the private members of one class. -/
def Likeness.veiling (c : ClassRef) : Likeness where
  toRenaming := .id
  hidden := []
  veiled i := i = c.id
  destructor := View.destructor_of_none
  strictMono_cls := strictMono_id
  strictMono_fn := strictMono_id

/-- Nothing changes if all numbers stay. -/
theorem Bindings.rename_id (b : Bindings) : Bindings.rename .id b = b := by
  unfold Bindings.rename
  have hentry : ∀ entry : String × Ty, (entry.1, entry.2.rename .id) = entry :=
    fun entry => by rw [Ty.rename_id]
  rw [List.map_congr_left fun entry _ => hentry entry, List.map_id']

/-- Nothing changes in the uses of names if all numbers stay. -/
theorem Resolution.map_rename_id (rs : List Resolution) : rs.map (rename .id) = rs := by
  have hsame : ∀ r : Resolution, r.rename .id = r := by
    intro r
    unfold rename
    rw [Ty.rename_id]
  rw [List.map_congr_left fun r _ => hsame r, List.map_id']

/-- Every scope is like itself. -/
theorem Frame.alike_veiling (c : ClassRef) (f : Frame) : f.Alike (.veiling c) f where
  kind := by
    cases f.kind <;> rfl
  access := rfl
  bindings := by
    change Bindings.visible [] f.bindings = Bindings.rename .id f.bindings
    rw [Bindings.rename_id]
    simp [Bindings.visible]
  foreign _ _ hhidden := by cases hhidden
  classes := by
    refine ⟨[], ?_, fun _ h => by cases h⟩
    change f.classes = [] ++ f.classes.map fun d => d
    rw [List.nil_append, List.map_id']

/-- Every class is like itself. -/
theorem ClassBody.alike_id (veiled : Prop) (b : ClassBody) : b.Alike .id veiled b := by
  refine ⟨?_, rfl, fun _ => ?_, rfl⟩ <;> rw [Bindings.rename_id]

/-- A table is like the table in which the class has other private members, if these have the same
names and the body of the class is not open. -/
theorem SymbolTable.alike_veiling {t : SymbolTable}
    (hnames : members.map Prod.fst = (t.classBody c).privateMembers.map Prod.fst)
    (houtside : t.insideClass c = false) :
    t.Alike (.veiling c) (t.modifyClass c fun b => { b with privateMembers := members }) where
  frames := List.forall₂_same.mpr fun f _ => f.alike_veiling c
  classes i := by
    change Option.Rel _ t.classes[i]? (t.classes.modify c.id _)[i]?
    rw [Array.getElem?_modify]
    split
    next heq =>
      subst heq
      unfold SymbolTable.classBody at hnames
      cases hbody : t.classes[c.id]? with
      | none => exact .none
      | some b =>
        rw [hbody] at hnames
        refine .some ⟨?_, hnames, fun hveiled => absurd rfl hveiled, rfl⟩
        change b.publicMembers = Bindings.rename .id b.publicMembers
        rw [Bindings.rename_id]
    next =>
      cases t.classes[i]? with
      | none => exact .none
      | some b => exact .some (b.alike_id _)
  ownClasses j hj := absurd rfl (hj j)
  nextClass k := by
    change t.classes.size + k = (t.classes.modify c.id _).size + k
    rw [Array.size_modify]
  bodies i := by
    change Option.Rel _ t.bodies[i]?.join t.bodies[i]?.join
    cases t.bodies[i]?.join with
    | none => exact .none
    | some f => exact .some (f.alike_veiling c)
  ownBodies j hj := absurd rfl (hj j)
  nextFunction _ := rfl
  outside d hd := by
    obtain ⟨f, hf, hkind⟩ := List.mem_map.mp hd
    unfold SymbolTable.insideClass at houtside
    rw [List.any_eq_false] at houtside
    have hcls := houtside f hf
    unfold Frame.cls? at hcls
    rw [hkind] at hcls
    change ¬ d.id = c.id
    simpa using hcls

/-- A state is like the state in which the class has other private members. -/
theorem Checker.alike_withPrivate
    (hnames : members.map Prod.fst = (s.symbols.classBody c).privateMembers.map Prod.fst)
    (houtside : s.symbols.insideClass c = false) :
    s.Alike (.veiling c) (s.withPrivate c members) where
  symbols := SymbolTable.alike_veiling hnames houtside
  diagnostics := rfl
  resolutions := (Resolution.map_rename_id s.resolutions).symm
  returns := by
    change s.returns = s.returns.map (Ty.rename .id)
    rw [List.map_congr_left fun ty _ => ty.rename_id, List.map_id']
  loops := rfl
  switches := rfl
  suspended := rfl
  limit := rfl
  held x := by cases x <;> exact Iff.rfl

/-- Runs that end alike tell the same. -/
theorem Likeness.Ends.told_eq {r r' : EStateM.Result Fault Checker Ty}
    (h : (veiling c).Ends (veiling c).ty r r') : told r' = told r := by
  have hfound : ∀ {s s' : Checker}, s.Alike (veiling c) s' →
      (s'.diagnostics, s'.resolutions) = (s.diagnostics, s.resolutions) := by
    intro s s' halike
    have hresolutions := halike.resolutions.trans (Resolution.map_rename_id s.resolutions)
    rw [halike.diagnostics, hresolutions]
  cases h with
  | @ok a b s s' halike hty =>
    have hsame : b = a := hty.trans a.rename_id
    rw [hsame]
    exact congrArg (Prod.mk (Except.ok a)) (hfound halike)
  | @error e s s' halike => exact congrArg (Prod.mk (Except.error e)) (hfound halike)

/-- From outside of a class, an expression that specifies no class tells nothing about the types of
the private members: whatever they are, its type, its fault, its diagnostics and its resolutions are
the same. -/
theorem Node.told_checkExpression_withPrivate {n : Node}
    (hclass : ∀ m ∈ n.subtrees, m.rule ≠ .classSpec)
    (hnames : members.map Prod.fst = (s.symbols.classBody c).privateMembers.map Prod.fst)
    (houtside : s.symbols.insideClass c = false) :
    told (n.checkExpression (s.withPrivate c members)) = told (n.checkExpression s) := by
  have havoids : n.Avoids (Likeness.veiling c).hidden := fun _ _ _ _ => List.not_mem_nil
  have hphrase : n.phrase.Throughout (Phrase.ReadsAlike (.veiling c)) := by
    refine throughout_phrase fun m hm hparts => ?_
    exact readsAlike hparts (havoids.subtree hm) fun hrule => absurd hrule (hclass m hm)
  exact (hphrase.self.expression _ _ (Checker.alike_withPrivate hnames houtside)).told_eq

/-- The expression `Vault(v.code)`. -/
def copyingExpression : Node :=
  let code := tree .dotField [word .identifier "v", word .identifier "code"]
  { rule := .cast, children := [word .identifier "Vault", code] }

/-- A state with an object `v` of a class `Vault`, all of whose members are private. -/
def vaultState (members : Bindings) : Checker where
  symbols :=
    { current :=
        { kind := .global
          bindings := [("v", .object ⟨0, "Vault"⟩), ("Vault", .object ⟨0, "Vault"⟩)] }
      classes := #[{ privateMembers := members, complete := true }] }

/-- Whether the private members are a constructor and a number or something else, the expression is
told twice that they are private. -/
theorem Node.told_copyingExpression :
    let s := vaultState [("Vault", .function 0 .void [.int] 1), ("code", .int)]
    let members := [("Vault", .double), ("code", .pointer .char)]
    told (copyingExpression.checkExpression (s.withPrivate ⟨0, "Vault"⟩ members)) =
        told (copyingExpression.checkExpression s) ∧
      (told (copyingExpression.checkExpression s)).2.1.map (·.problem) =
        [.privateMember "Vault" "code", .privateMember "Vault" "Vault"] := by
  refine ⟨told_checkExpression_withPrivate ?_ ?_ ?_, ?_⟩
  · decide
  · rfl
  · rfl
  · rfl

end CWithClasses
