import CWithClasses.Proofs.Logic.Open
import CWithClasses.Proofs.Pairs.Declarator

/-!
# What a member declaration does

In the body of a class, a plain member declaration makes functions, records problems and adds
members. An `Effect` lists these, and `Checker.Takes` says that a state has changed by an effect and
by nothing else.

Two runs of such a declaration have the same effect up to the numbers of the functions that they
make, whatever the other members of the class are. This is what `Region.Declares` says. The renaming
has to fit only as long as numbers stay below a bound, so that it may do something else with the
functions of other members. All that is assumed about the first run is that it has a result.
-/

namespace CWithClasses

open Check

/-! ### Effects -/

/-- A member that is added to a class. -/
structure Member where
  access : Access
  name : String
  ty : Ty

/-- What a step in the body of a class does. The newest member is the first one. -/
structure Effect where
  /-- The number of functions that are made. -/
  count : Nat := 0
  reports : List Diagnostic := []
  members : List Member := []

/-- The member with new numbers in its type. -/
def Member.rename (σ : Renaming) (m : Member) : Member := { m with ty := m.ty.rename σ }

namespace Effect

/-- One effect after another. -/
def append (E F : Effect) : Effect :=
  ⟨E.count + F.count, E.reports ++ F.reports, F.members ++ E.members⟩

/-- The effect with new numbers in the types of the members. -/
def rename (σ : Renaming) (E : Effect) : Effect :=
  { E with members := E.members.map (Member.rename σ) }

/-- The names of the members that are added. -/
def names (E : Effect) : List String := E.members.map Member.name

/-- The members that are added to one of the tables. -/
def table (E : Effect) (access : Access) : Bindings :=
  (E.members.filter fun m => m.access = access).map fun m => (m.name, m.ty)

/-- All members that are added are in one access region. They have some of the names, in this
order. -/
structure Within (E : Effect) (access : Access) (names : List String) : Prop where
  region : ∀ m ∈ E.members, m.access = access
  sublist : E.names.reverse.Sublist names

/-- The new numbers of one effect after another. -/
theorem rename_append (σ : Renaming) (E F : Effect) :
    (E.append F).rename σ = (E.rename σ).append (F.rename σ) := by
  simp [append, rename]

/-- New numbers do not change names. -/
@[simp] theorem names_rename (σ : Renaming) (E : Effect) : (E.rename σ).names = E.names := by
  simp [rename, names, Member.rename]

/-- The tables of one effect after another. -/
theorem table_append (E F : Effect) (access : Access) :
    (E.append F).table access = F.table access ++ E.table access := by
  simp [append, table]

namespace Within

variable {E F : Effect} {access : Access} {N M : List String}

/-- The names that are added. -/
theorem names (h : E.Within access N) : ∀ name ∈ E.names, name ∈ N :=
  fun _ hname => h.sublist.subset (List.mem_reverse.mpr hname)

/-- Nothing is added. -/
theorem nil {count : Nat} {reports : List Diagnostic} : Within ⟨count, reports, []⟩ access N :=
  ⟨fun _ hm => (List.not_mem_nil hm).elim, List.nil_sublist N⟩

/-- One effect after another. -/
theorem append (hE : E.Within access N) (hF : F.Within access M) :
    (E.append F).Within access (N ++ M) where
  region m hm := (List.mem_append.mp hm).elim (hF.region m) (hE.region m)
  sublist := by
    unfold Effect.names Effect.append
    rw [List.map_append, List.reverse_append]
    exact hE.sublist.append hF.sublist

/-- The members are those of one table. -/
theorem members_eq (h : E.Within access N) :
    E.members = (E.table access).map fun entry => ⟨access, entry.1, entry.2⟩ := by
  have hall : E.members.filter (fun m => m.access = access) = E.members :=
    List.filter_eq_self.mpr fun m hm => by simpa using h.region m hm
  unfold table
  rw [hall, List.map_map]
  refine ((List.map_congr_left fun m hm => ?_).trans (List.map_id E.members)).symm
  change Member.mk access m.name m.ty = m
  rw [← h.region m hm]

end Within

/-- A name that is not added is in no table. -/
theorem lookup_table {E : Effect} {name : String} (h : name ∉ E.names) (access : Access) :
    (E.table access).lookup name = none := by
  rw [List.lookup_eq_none_iff]
  intro entry hentry
  obtain ⟨m, hm, rfl⟩ := List.mem_map.mp hentry
  have hmem : m.name ∈ E.names := List.mem_map_of_mem (List.mem_filter.mp hm).1
  exact bne_iff_ne.mpr fun heq => h (heq ▸ hmem)

end Effect

namespace ClassBody

/-- The members of a class after an effect. -/
def gain (b : ClassBody) (E : Effect) : ClassBody :=
  { b with
    publicMembers := E.table .pub ++ b.publicMembers
    privateMembers := E.table .priv ++ b.privateMembers }

/-- The members after one effect and another. -/
theorem gain_gain (b : ClassBody) (E F : Effect) : (b.gain E).gain F = b.gain (E.append F) := by
  simp [gain, Effect.table_append]

/-- The table of an access region after an effect. -/
theorem table_gain (b : ClassBody) (E : Effect) (access : Access) :
    (b.gain E).table access = E.table access ++ b.table access := by
  cases access <;> rfl

/-- A name that an effect does not add means what it did. -/
theorem member?_gain (b : ClassBody) {E : Effect} {name : String} (h : name ∉ E.names) :
    (b.gain E).member? name = b.member? name := by
  unfold member? gain
  simp only [List.lookup_append, Effect.lookup_table h, Option.none_or]

end ClassBody

namespace SymbolTable

variable {t : SymbolTable} {c : ClassRef} {f : ClassBody → ClassBody}

/-- The members of a class that has been made. -/
theorem getElem?_classes (hc : c.id < t.classes.size) :
    t.classes[c.id]? = some (t.classBody c) := by
  unfold classBody
  rw [Array.getElem?_eq_getElem hc]
  rfl

/-- The members of classes, of which one has been changed. -/
theorem classBody_modifyClass (hc : c.id < t.classes.size) (d : ClassRef) :
    (t.modifyClass c f).classBody d = if d.id = c.id then f (t.classBody c) else t.classBody d := by
  change (t.classes.modify c.id f)[d.id]?.getD {} = _
  rw [Array.getElem?_modify]
  split
  next heq => rw [if_pos heq.symm, ← heq, getElem?_classes hc]; rfl
  next hne => rw [if_neg (Ne.symm hne)]; rfl

/-- One change of a class after another. -/
theorem modifyClass_modifyClass (t : SymbolTable) (c : ClassRef) (f g : ClassBody → ClassBody) :
    (t.modifyClass c f).modifyClass c g = t.modifyClass c fun b => g (f b) := by
  have hclasses : (t.classes.modify c.id f).modify c.id g =
      t.classes.modify c.id fun b => g (f b) := by
    refine Array.ext_getElem? fun i => ?_
    simp only [Array.getElem?_modify]
    split
    · rw [Option.map_map]
      rfl
    · rfl
  exact congrArg (fun classes => { t with classes }) hclasses

end SymbolTable

namespace Checker

/-- The state after an effect on a class. -/
def taking (s : Checker) (c : ClassRef) (E : Effect) : Checker :=
  { s.withFunctions E.count with
    symbols := (s.withFunctions E.count).symbols.modifyClass c fun b => b.gain E
    diagnostics := s.diagnostics ++ E.reports }

/-- The second state is the first one after an effect on a class. The log does not matter. -/
def Takes (c : ClassRef) (s : Checker) (E : Effect) (s₁ : Checker) : Prop :=
  ∃ log, s₁ = { s.taking c E with log }

/-- The members of all classes after an effect on one of them. -/
theorem classBody_taking (s : Checker) {c : ClassRef} (hc : c.id < s.symbols.classes.size)
    (E : Effect) (d : ClassRef) :
    (s.taking c E).symbols.classBody d =
      if d.id = c.id then (s.symbols.classBody c).gain E else s.symbols.classBody d :=
  SymbolTable.classBody_modifyClass hc d

/-- An effect that adds no member leaves the classes alone. -/
theorem taking_of_members_eq {s : Checker} {c : ClassRef} {E : Effect} (hE : E.members = []) :
    s.taking c E = { s.withFunctions E.count with diagnostics := s.diagnostics ++ E.reports } := by
  have hgain : (fun b : ClassBody => b.gain E) = fun b => b := by
    funext b
    unfold ClassBody.gain Effect.table
    rw [hE]
    rfl
  have hclasses : s.symbols.classes.modify c.id (fun b => b.gain E) = s.symbols.classes := by
    refine Array.ext_getElem? fun i => ?_
    rw [hgain, Array.getElem?_modify]
    simp
  unfold taking SymbolTable.modifyClass withFunctions
  dsimp only
  rw [hclasses]

namespace Takes

variable {c : ClassRef} {s s₁ s₂ : Checker} {E F : Effect} {name : String}

/-- Nothing is done. -/
theorem refl (c : ClassRef) (s : Checker) : Takes c s {} s := by
  refine ⟨s.log, ?_⟩
  rw [taking_of_members_eq rfl, s.withFunctions_zero, List.append_nil]

/-- One effect after another. -/
theorem trans (h : Takes c s E s₁) (h' : Takes c s₁ F s₂) : Takes c s (E.append F) s₂ := by
  obtain ⟨log, rfl⟩ := h
  obtain ⟨log', rfl⟩ := h'
  refine ⟨log', ?_⟩
  have hclasses : (s.symbols.classes.modify c.id fun b => b.gain E).modify c.id
      (fun b => b.gain F) = s.symbols.classes.modify c.id fun b => b.gain (E.append F) := by
    simp only [← ClassBody.gain_gain]
    exact congrArg SymbolTable.classes
      (s.symbols.modifyClass_modifyClass c (fun b => b.gain E) fun b => b.gain F)
  unfold taking SymbolTable.modifyClass withFunctions
  dsimp only
  rw [hclasses]
  simp [Effect.append]

/-- The number of functions. -/
theorem size_bodies (h : Takes c s E s₁) :
    s₁.symbols.bodies.size = s.symbols.bodies.size + E.count := by
  obtain ⟨log, rfl⟩ := h
  simp [taking, withFunctions, SymbolTable.modifyClass]

/-- What a name means in a class that does not get a member of that name. -/
theorem member?_eq (h : Takes c s E s₁) (hname : name ∉ E.names) (d : ClassRef) :
    s₁.symbols.member? d name = s.symbols.member? d name := by
  obtain ⟨log, rfl⟩ := h
  unfold SymbolTable.member?
  rcases s.symbols.classBody_modifyClass_cases c (fun b => b.gain E) d with hsame |
    ⟨hclass, hchanged⟩
  · exact congrArg (ClassBody.member? · name) hsame
  · rw [hclass]
    exact (congrArg (ClassBody.member? · name) hchanged).trans (ClassBody.member?_gain _ hname)

/-- What a type name means, unless a member of that name hides it. The name of an open class is not
hidden by its members. -/
theorem lookupTypeName_eq (h : Takes c s E s₁)
    (hname : name ∈ E.names → (s.symbols.openClass? name).isSome = true) :
    s₁.symbols.lookupTypeName name = s.symbols.lookupTypeName name := by
  have hopen : s₁.symbols.openClass? name = s.symbols.openClass? name := by
    obtain ⟨log, rfl⟩ := h
    rfl
  unfold SymbolTable.lookupTypeName
  rw [hopen]
  cases hfound : s.symbols.openClass? name with
  | some d => rfl
  | none =>
    have hnot : name ∉ E.names := by
      intro hmem
      have hsome := hname hmem
      rw [hfound] at hsome
      cases hsome
    have hlookup : s₁.symbols.lookup? name = s.symbols.lookup? name := by
      have hframes : s₁.symbols.frames = s.symbols.frames := by
        obtain ⟨log, rfl⟩ := h
        rfl
      unfold SymbolTable.lookup?
      rw [hframes]
      congr
      funext f
      unfold SymbolTable.findIn
      cases f.cls? with
      | none => rfl
      | some d => exact congrArg (Option.map (·.2)) (h.member?_eq hnot d)
    unfold SymbolTable.lookup
    rw [hlookup]

end Takes

end Checker

/-! ### Two runs of a member declaration -/

/-- A place in the body of a class. -/
structure Region where
  cls : ClassRef
  access : Access
  /-- The type names whose meaning is known. -/
  types : List String
  meaning : String → Except Problem ClassRef

namespace Region

variable {P : Region} {s s' s₁ : Checker} {E : Effect} {N M : List String}

/-- The check stands at the place. -/
structure Holds (P : Region) (s : Checker) : Prop where
  limit : s.limit = none
  kind : s.symbols.current.kind = .classBody P.cls
  access : s.symbols.current.access = P.access
  made : P.cls.id < s.symbols.classes.size
  meaning : ∀ name ∈ P.types, s.symbols.lookupTypeName name = (P.meaning name).map .object

/-- The names may become members, each of them once. -/
structure Fresh (P : Region) (names : List String) (s : Checker) : Prop where
  nodup : names.Nodup
  free : ∀ name ∈ names, s.symbols.member? P.cls name = none
  /-- Only the name of an open class may be that of a type. -/
  hides : ∀ name ∈ names, name ∈ P.types → (s.symbols.openClass? name).isSome = true

/-- After an effect, the check still stands at the place. -/
theorem Holds.after (h : P.Holds s) (hE : Checker.Takes P.cls s E s₁)
    (hhides : ∀ name ∈ E.names, name ∈ P.types → (s.symbols.openClass? name).isSome = true) :
    P.Holds s₁ where
  limit := by
    obtain ⟨log, rfl⟩ := hE
    exact h.limit
  kind := by
    obtain ⟨log, rfl⟩ := hE
    exact h.kind
  access := by
    obtain ⟨log, rfl⟩ := hE
    exact h.access
  made := by
    obtain ⟨log, rfl⟩ := hE
    change P.cls.id < (s.symbols.classes.modify _ _).size
    rw [Array.size_modify]
    exact h.made
  meaning name hname := by
    rw [hE.lookupTypeName_eq fun hmem => hhides name hmem hname]
    exact h.meaning name hname

/-- After an effect, other names are as fresh as before. -/
theorem Fresh.after (h : P.Fresh (N ++ M) s) (hE : Checker.Takes P.cls s E s₁)
    (hnames : ∀ name ∈ E.names, name ∈ N) : P.Fresh M s₁ where
  nodup := (List.nodup_append.mp h.nodup).2.1
  free name hname := by
    have hnot : name ∉ E.names := fun hmem =>
      (List.nodup_append.mp h.nodup).2.2 name (hnames name hmem) name hname rfl
    rw [hE.member?_eq hnot]
    exact h.free name (List.mem_append_right _ hname)
  hides name hname htype := by
    have hopen : s₁.symbols.openClass? name = s.symbols.openClass? name := by
      obtain ⟨log, rfl⟩ := hE
      rfl
    rw [hopen]
    exact h.hides name (List.mem_append_right _ hname) htype

/-- Some of several names. -/
theorem Fresh.left (h : P.Fresh (N ++ M) s) : P.Fresh N s where
  nodup := (List.nodup_append.mp h.nodup).1
  free name hname := h.free name (List.mem_append_left _ hname)
  hides name hname := h.hides name (List.mem_append_left _ hname)

/-- The two states stand at the place, and the next functions get their new numbers on the other
side, as long as their numbers are below the bound. -/
structure Facing (P : Region) (σ : Renaming) (bound : Nat) (names : List String) (s s' : Checker) :
    Prop where
  left : P.Holds s
  right : P.Holds s'
  freshLeft : P.Fresh names s
  freshRight : P.Fresh names s'
  next : ∀ i, s.symbols.bodies.size + i < bound →
    σ.fn (s.symbols.bodies.size + i) = s'.symbols.bodies.size + i

/-- The two steps have the same effect, up to the numbers of functions, and their results are
related. The names are those that may be added. -/
def Declares (P : Region) (σ : Renaming) (bound : Nat) (names : List String) {α β : Type}
    (x : Check α) (y : Check β) (R : Effect → α → β → Prop) : Prop :=
  ∀ s s', P.Facing σ bound names s s' → ∀ a s₁, x s = .ok a s₁ →
    ∃ E, Checker.Takes P.cls s E s₁ ∧ E.Within P.access names ∧ (∃ b, R E a b) ∧
      (s.symbols.bodies.size + E.count ≤ bound →
        ∃ b s₁', y s' = .ok b s₁' ∧ Checker.Takes P.cls s' (E.rename σ) s₁' ∧ R E a b)

variable {σ : Renaming} {bound : Nat} {α β γ δ : Type}

namespace Facing

variable {s₁' : Checker}

/-- Both states change. -/
theorem after (h : P.Facing σ bound (N ++ M) s s') (hE : Checker.Takes P.cls s E s₁)
    (hE' : Checker.Takes P.cls s' (E.rename σ) s₁') (hnames : ∀ name ∈ E.names, name ∈ N) :
    P.Facing σ bound M s₁ s₁' where
  left := h.left.after hE fun name hname => h.freshLeft.left.hides name (hnames name hname)
  right := h.right.after hE' fun name hname =>
    h.freshRight.left.hides name (hnames name (E.names_rename σ ▸ hname))
  freshLeft := h.freshLeft.after hE hnames
  freshRight := h.freshRight.after hE' fun name hname => hnames name (E.names_rename σ ▸ hname)
  next i hi := by
    rw [hE.size_bodies, Nat.add_assoc] at hi
    rw [hE.size_bodies, hE'.size_bodies, Nat.add_assoc, Nat.add_assoc]
    exact h.next (E.count + i) hi

/-- Only the first state changes, and no number is below the bound any more. -/
theorem beyond (h : P.Facing σ bound (N ++ M) s s') (hE : Checker.Takes P.cls s E s₁)
    (hnames : ∀ name ∈ E.names, name ∈ N)
    (hbound : bound < s.symbols.bodies.size + E.count) : P.Facing σ bound M s₁ s' where
  left := h.left.after hE fun name hname => h.freshLeft.left.hides name (hnames name hname)
  right := h.right
  freshLeft := h.freshLeft.after hE hnames
  freshRight := h.freshRight.after (.refl P.cls s') (N := N) (by simp [Effect.names])
  next i hi := by
    rw [hE.size_bodies] at hi
    omega

end Facing

namespace Declares

variable {x : Check α} {y : Check β} {f : α → Check γ} {g : β → Check δ}

/-- A result without a step. -/
theorem ret {a : α} {b : β} {R : Effect → α → β → Prop} (hab : R {} a b) :
    P.Declares σ bound [] (pure a) (pure b) R := by
  intro s s' _ a' s₁ hrun
  cases hrun
  exact ⟨{}, .refl P.cls s, .nil, ⟨b, hab⟩, fun _ => ⟨b, s', rfl, .refl P.cls s', hab⟩⟩

/-- One step after another. -/
theorem seq {R : Effect → α → β → Prop} {Q : Effect → γ → δ → Prop}
    (hx : P.Declares σ bound N x y R)
    (hf : ∀ E a b, R E a b → P.Declares σ bound M (f a) (g b) fun F => Q (E.append F)) :
    P.Declares σ bound (N ++ M) (x >>= f) (y >>= g) Q := by
  intro s s' h c s₂ hrun
  obtain ⟨a, s₁, hfirst, hrest⟩ := exists_of_bind hrun
  have hleft : P.Facing σ bound N s s' :=
    ⟨h.left, h.right, h.freshLeft.left, h.freshRight.left, h.next⟩
  obtain ⟨E, hE, hwithin, ⟨b₀, hb₀⟩, hother⟩ := hx s s' hleft a s₁ hfirst
  have hsize := hE.size_bodies
  by_cases hbound : s.symbols.bodies.size + E.count ≤ bound
  · obtain ⟨b, s₁', hfirst', hE', hab⟩ := hother hbound
    obtain ⟨F, hF, hwithin', hd, hlast⟩ :=
      hf E a b hab s₁ s₁' (h.after hE hE' hwithin.names) c s₂ hrest
    refine ⟨E.append F, hE.trans hF, hwithin.append hwithin', hd, fun hboth => ?_⟩
    obtain ⟨d, s₂', hrest', hF', hcd⟩ := hlast (by rw [hsize]; simp [Effect.append] at hboth; omega)
    refine ⟨d, s₂', ?_, ?_, hcd⟩
    · rw [bind_ok hfirst', hrest']
    · rw [Effect.rename_append]
      exact hE'.trans hF'
  · have hbeyond := h.beyond hE hwithin.names (Nat.lt_of_not_le hbound)
    obtain ⟨F, hF, hwithin', hd, -⟩ := hf E a b₀ hb₀ s₁ s' hbeyond c s₂ hrest
    refine ⟨E.append F, hE.trans hF, hwithin.append hwithin', hd, fun hboth => ?_⟩
    simp [Effect.append] at hboth
    omega

/-- A fault. -/
theorem fault {R : Effect → α → β → Prop} (e : Fault) :
    P.Declares σ bound N (throw e) (throw e) R := by
  intro s s' _ a s₁ hrun
  cases hrun

/-- Taking a part of a construct, and going on with it. -/
theorem part {c : Clause} {i : Nat} {f : Phrase → Check γ} {g : Phrase → Check δ}
    {R : Effect → γ → δ → Prop}
    (h : ∀ q, c.part? i = some q → P.Declares σ bound N (f q) (g q) R) :
    P.Declares σ bound N (c.part i >>= f) (c.part i >>= g) R := by
  unfold Clause.part
  cases hpart : c.part? i with
  | none => exact fault _
  | some q => exact h q hpart

/-- Less may be said about the results. -/
theorem mono {R Q : Effect → α → β → Prop} (h : P.Declares σ bound N x y R)
    (hQ : ∀ E a b, R E a b → Q E a b) : P.Declares σ bound N x y Q := by
  intro s s' hfacing a s₁ hrun
  obtain ⟨E, hE, hwithin, ⟨b, hb⟩, hother⟩ := h s s' hfacing a s₁ hrun
  refine ⟨E, hE, hwithin, ⟨b, hQ E a b hb⟩, fun hbound => ?_⟩
  obtain ⟨b, s₁', hrun', hE', hab⟩ := hother hbound
  exact ⟨b, s₁', hrun', hE', hQ E a b hab⟩

/-- What a step yields in any case may be used. -/
theorem yields {R : Effect → α → β → Prop} {S : α → Prop} (h : P.Declares σ bound N x y R)
    (hx : x.Yields S) : P.Declares σ bound N x y fun E a b => R E a b ∧ S a := by
  intro s s' hfacing a s₁ hrun
  have hS := hx s a s₁ hrun
  obtain ⟨E, hE, hwithin, ⟨b, hb⟩, hother⟩ := h s s' hfacing a s₁ hrun
  refine ⟨E, hE, hwithin, ⟨b, hb, hS⟩, fun hbound => ?_⟩
  obtain ⟨b, s₁', hrun', hE', hab⟩ := hother hbound
  exact ⟨b, s₁', hrun', hE', hab, hS⟩

/-- A step for each item of a list. -/
theorem forM {items : List γ} {f g : γ → Check PUnit} {named : γ → List String}
    (hstep : ∀ item ∈ items, P.Declares σ bound (named item) (f item) (g item) fun _ _ _ => True) :
    P.Declares σ bound (items.flatMap named) (items.forM f) (items.forM g) fun _ _ _ => True := by
  induction items with
  | nil => exact ret trivial
  | cons item rest ih =>
    refine seq (hstep item List.mem_cons_self) fun _ _ _ _ => ?_
    exact ih fun item hitem => hstep item (List.mem_cons_of_mem _ hitem)

end Declares

/-- Steps that add no member. -/
def rules (P : Region) (σ : Renaming) (bound : Nat) : PairRules where
  pair x y R := P.Declares σ bound [] x y fun _ => R
  ret hab := .ret hab
  seq hx hf := .seq hx fun _ a b hab => hf a b hab
  fault e := .fault e

/-- Declarators add no member. -/
def declarators (P : Region) (σ : Renaming) (bound : Nat) : DeclaratorPairs where
  toView := σ.view
  toPairRules := P.rules σ bound
  report e position := by
    intro s s' h a s₁ hrun
    have htakes : ∀ {s : Checker}, P.Holds s →
        Checker.Takes P.cls s { reports := [⟨e, position⟩] } (s.reported ⟨e, position⟩) := by
      intro s hs
      refine ⟨s.log ++ [.reported position e], ?_⟩
      rw [Checker.reported_eq hs.limit, Checker.taking_of_members_eq rfl, s.withFunctions_zero]
      rfl
    cases hrun
    exact ⟨_, htakes h.left, .nil, ⟨(), trivial⟩,
      fun _ => ⟨(), _, rfl, htakes h.right, trivial⟩⟩
  newFunction result params required := by
    intro s s' h a s₁ hrun
    have htakes : ∀ s : Checker, Checker.Takes P.cls s { count := 1 } (s.withFunctions 1) := by
      intro s
      refine ⟨s.log, ?_⟩
      rw [Checker.taking_of_members_eq rfl, List.append_nil]
      rfl
    rw [newFunction_eq] at hrun
    cases hrun
    refine ⟨_, htakes s, .nil, ⟨_, rfl⟩, fun hbound => ?_⟩
    refine ⟨_, _, newFunction_eq _ _ _ _, htakes s', ?_⟩
    have hnext : σ.fn s.symbols.bodies.size = s'.symbols.bodies.size := h.next 0 hbound
    change _ = (Ty.function _ _ _ _).rename σ
    rw [Ty.rename_function, hnext]
    rfl

end Region

end CWithClasses
