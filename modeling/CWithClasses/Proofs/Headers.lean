import CWithClasses.Proofs.Likeness.Seeding
import CWithClasses.Proofs.Likeness.Tree

/-!
# Headers that are not used

A header that a program does not use makes no difference. The table that a check starts with has
more names, classes and functions in it if there are more headers, so that all classes and functions
made later have other numbers. But the tables are alike, with the names of the additional headers
hidden, and a program that spells none of these names keeps them alike.
-/

namespace CWithClasses

open Node (word)

/-! ### Headers -/

namespace Header

/-- There are no other headers. -/
theorem mem_all (h : Header) : h ∈ all := by cases h <;> decide

/-- The names that a header declares. -/
def names (h : Header) : List String := h.builtins.map Prod.fst

/-- A header declares objects of its own classes only. -/
theorem objectOf_mem_names (h : Header) : ∀ entry ∈ h.builtins, ∀ cls,
    entry.2 = .objectOf cls → cls ∈ h.names := by
  cases h <;> simp [names, builtins]

/-- No name is declared by two headers. -/
theorem eq_of_mem_names {h h' : Header} {name : String} (hname : name ∈ h.names)
    (hname' : name ∈ h'.names) : h = h' := by
  have hdisjoint : ∀ h ∈ all, ∀ h' ∈ all, ∀ name ∈ h.names, name ∈ h'.names → h = h' := by decide
  exact hdisjoint h h.mem_all h' h'.mem_all name hname hname'

/-- Only the header that comes first declares classes. -/
theorem ne_newClass {h : Header} (hh : h ≠ .iostream) :
    ∀ entry ∈ h.builtins, entry.2 ≠ .newClass := by
  cases h with
  | iostream => exact absurd rfl hh
  | _ => simp [builtins]

end Header

namespace Config

/-- The names that a configuration declares. -/
def names (c : Config) : List String := c.builtins.map Prod.fst

/-- The names that only the second configuration declares. -/
def addedNames (c₁ c₂ : Config) : List String := c₂.names.filter fun name => name ∉ c₁.names

variable {c c₁ c₂ : Config} {name : String}

/-- Names come from the headers, apart from that of the null pointer. -/
theorem mem_names : name ∈ c.names ↔ name = "NULL" ∨ ∃ h, c.includes h = true ∧ name ∈ h.names := by
  unfold names builtins
  rw [List.map_cons, List.mem_cons, List.map_flatMap, List.mem_flatMap]
  simp only [List.mem_filter, Header.mem_all, true_and]
  rfl

/-- No configuration declares the name of a destructor. -/
theorem destructor_not_mem_names (c : Config) (text : String) : "~" ++ text ∉ c.names := by
  have hfirst : ("~" ++ text).toList.head? = some '~' := by simp
  have hheaders : ∀ h ∈ Header.all, ∀ name ∈ h.names, name.toList.head? ≠ some '~' := by decide
  rw [mem_names]
  rintro (hnull | ⟨h, _, hname⟩)
  · rw [hnull] at hfirst
    exact absurd hfirst (by decide)
  · exact hheaders h h.mem_all _ hname hfirst

/-- The names of a header that only the second configuration includes are added. -/
theorem mem_addedNames {h : Header} (h₁ : c₁.includes h = false) (h₂ : c₂.includes h = true)
    (hname : name ∈ h.names) : name ∈ c₁.addedNames c₂ := by
  refine List.mem_filter.mpr ⟨mem_names.mpr (.inr ⟨h, h₂, hname⟩), ?_⟩
  have hnull : ∀ h ∈ Header.all, "NULL" ∉ h.names := by decide
  suffices name ∉ c₁.names by simpa using this
  rw [mem_names]
  rintro (rfl | ⟨h', h₁', hname'⟩)
  · exact hnull h h.mem_all hname
  · rw [Header.eq_of_mem_names hname hname', h₁'] at h₁
    cases h₁

/-- The names of the first configuration are not added. -/
theorem not_mem_addedNames (hname : name ∈ c₁.names) : name ∉ c₁.addedNames c₂ := by
  intro hadded
  have hnot := (List.mem_filter.mp hadded).2
  simp [hname] at hnot

end Config

namespace SymbolTable

/-- The table with the declarations of a header, if the configuration includes it. -/
def seed (c : Config) (t : SymbolTable) (h : Header) : SymbolTable :=
  if c.includes h then h.builtins.foldl declareBuiltin t else t

/-- The declarations of a configuration are made header by header. -/
theorem populated_eq (c : Config) :
    populated c =
      Header.all.foldl (seed c) (empty.declareBuiltin ("NULL", .value (.pointer .void))) := by
  unfold populated Config.builtins
  rw [List.foldl_cons, List.foldl_flatMap, List.foldl_filter]
  rfl

/-- The declarations of one header. -/
theorem AlikeHiding.seed {c₁ c₂ : Config} {t u : SymbolTable} {h : Header}
    (hheader : c₁.includes h = true → c₂.includes h = true) (ht : t.Seeded)
    (hclasses : t.current.classes = [] ∨ h ≠ .iostream)
    (halike : t.AlikeHiding (c₁.addedNames c₂) u) :
    (SymbolTable.seed c₁ t h).Seeded ∧
      (SymbolTable.seed c₁ t h).AlikeHiding (c₁.addedNames c₂) (SymbolTable.seed c₂ u h) := by
  have hmem : ∀ entry ∈ h.builtins, entry.1 ∈ h.names := fun entry hentry =>
    List.mem_map_of_mem hentry
  unfold SymbolTable.seed
  cases h₁ : c₁.includes h with
  | true =>
    rw [hheader h₁]
    have hshared : ∀ name ∈ h.names, name ∉ c₁.addedNames c₂ := fun name hname =>
      Config.not_mem_addedNames (Config.mem_names.mpr (.inr ⟨h, h₁, hname⟩))
    refine halike.declareAll ht fun entry hentry => ⟨h.closed entry hentry, ?_, fun cls hcls => ?_⟩
    · exact hshared _ (hmem entry hentry)
    · exact hshared _ (h.objectOf_mem_names entry hentry cls hcls)
  | false =>
    refine ⟨ht, ?_⟩
    cases h₂ : c₂.includes h with
    | false => exact halike
    | true =>
      refine halike.declareAllHidden ht fun entry hentry => ⟨h.closed entry hentry, ?_, ?_, ?_⟩
      · exact Config.mem_addedNames h₁ h₂ (hmem entry hentry)
      · intro cls hcls
        exact Config.mem_addedNames h₁ h₂ (h.objectOf_mem_names entry hentry cls hcls)
      · intro hnew
        rcases hclasses with hnone | hother
        · exact hnone
        · exact absurd hnew (Header.ne_newClass hother entry hentry)

/-- The tables that two checks start with are alike. -/
theorem alikeHiding_populated {c₁ c₂ : Config}
    (hheaders : ∀ h, c₁.includes h = true → c₂.includes h = true) :
    (populated c₁).AlikeHiding (c₁.addedNames c₂) (populated c₂) := by
  have hnames : ∀ text, "~" ++ text ∉ c₁.addedNames c₂ := fun text hadded =>
    c₂.destructor_not_mem_names text (List.mem_filter.mp hadded).1
  have hclosed : (Builtin.value (.pointer .void)).Closed := fun _ => Mentions.not_has_empty
  have hnull : "NULL" ∉ c₁.addedNames c₂ :=
    Config.not_mem_addedNames (Config.mem_names.mpr (.inl rfl))
  have hentries : ∀ entry ∈ [("NULL", Builtin.value (.pointer .void))], entry.2.Closed ∧
      entry.1 ∉ c₁.addedNames c₂ ∧ ∀ cls, entry.2 = .objectOf cls → cls ∉ c₁.addedNames c₂ := by
    intro entry hentry
    rw [List.mem_singleton.mp hentry]
    exact ⟨hclosed, hnull, fun _ hcls => by cases hcls⟩
  have hstart := (AlikeHiding.empty hnames).declareAll .empty hentries
  have hiostream := hstart.2.seed (hheaders .iostream) hstart.1 (.inl rfl)
  have hcstdlib := hiostream.2.seed (hheaders .cstdlib) hiostream.1 (.inr (by decide))
  have hcstring := hcstdlib.2.seed (hheaders .cstring) hcstdlib.1 (.inr (by decide))
  have hcmath := hcstring.2.seed (hheaders .cmath) hcstring.1 (.inr (by decide))
  rw [populated_eq, populated_eq]
  exact hcmath.2

end SymbolTable

/-! ### Checks -/

/-- What an outcome says, with types as they are written. -/
def Outcome.written (o : Outcome) : List Diagnostic × String × List (String × Position × String) :=
  (o.diagnostics, o.ty.render, o.resolutions.map fun r => (r.name, r.position, r.ty.render))

/-- Outcomes that are alike are written alike. -/
theorem Checker.Alike.written_eq {L : Likeness} {s s' : Checker} (h : s.Alike L s') (ty : Ty) :
    (s'.outcome (ty.rename L.toRenaming)).written = (s.outcome ty).written := by
  unfold Outcome.written Checker.outcome
  dsimp only
  rw [h.diagnostics, h.resolutions, List.map_map, Ty.render_rename]
  refine congrArg (fun rs => (_, _, rs)) (List.map_congr_left fun r _ => ?_)
  exact congrArg (fun text => (r.name, r.position, text)) r.ty.render_rename

/-- Headers that a tree does not use make no difference: if a configuration has more headers than
another one, but no token of the tree spells a name that only these declare, the check ends with the
same fault, or with an outcome that is written in the same way. -/
theorem typeCheck_unusedHeaders {root : Node} {c₁ c₂ : Config}
    (hlimit : c₁.maxDiagnostics = c₂.maxDiagnostics) (hheaders : c₁.headers ⊆ c₂.headers)
    (hunused : ∀ m ∈ root.subtrees, ∀ t, m.token = some t → t.text ∈ c₂.names → t.text ∈ c₁.names) :
    (typeCheck root c₂).map Outcome.written = (typeCheck root c₁).map Outcome.written := by
  have hincludes : ∀ h, c₁.includes h = true → c₂.includes h = true := by
    intro h hh
    unfold Config.includes at hh ⊢
    rw [List.contains_iff_mem] at hh ⊢
    exact hheaders hh
  obtain ⟨L, hhidden, hveil, htables⟩ := SymbolTable.alikeHiding_populated hincludes
  have havoids : root.Avoids L.hidden := by
    intro m hm t ht hadded
    rw [hhidden] at hadded
    obtain ⟨hnew, hold⟩ := List.mem_filter.mp hadded
    have hmem := hunused m hm t ht hnew
    simp [hmem] at hold
  have hstart : (Checker.start c₁).Alike L (Checker.start c₂) :=
    ⟨htables, rfl, rfl, rfl, rfl, rfl, rfl, hlimit.symm,
      fun x => by cases x <;> simp [Checker.start]⟩
  have hends := Node.check_alike hveil havoids _ _ hstart
  rw [typeCheck_eq, typeCheck_eq]
  generalize root.check (.start c₁) = r at hends
  generalize root.check (.start c₂) = r' at hends
  cases hends with
  | ok hstates hty =>
    cases hty
    exact congrArg Except.ok (hstates.written_eq _)
  | error hstates => rfl

/-- The expression `sqrt(x)`. -/
def rootExpression : Node :=
  { rule := .call, children := [word .identifier "sqrt", word .identifier "x"] }

/-- The root of an undeclared name, with the one header that is used and with all headers. -/
theorem typeCheck_rootExpression :
    (typeCheck rootExpression {}).map Outcome.written =
        (typeCheck rootExpression { headers := [.cmath] }).map Outcome.written ∧
      (typeCheck rootExpression { headers := [.cmath] }).map Outcome.written =
        .ok ([⟨.unknownIdentifier "x", ⟨1, "main.cpp"⟩⟩], "double",
          [("sqrt", ⟨1, "main.cpp"⟩, "double (double)"), ("x", ⟨1, "main.cpp"⟩, "<unknown>")]) := by
  refine ⟨typeCheck_unusedHeaders rfl ?_ ?_, ?_⟩
  · decide
  · decide
  · rfl

end CWithClasses
