import CWithClasses.Proofs.Members.Declare
import Mathlib.Algebra.GroupWithZero.Nat

/-!
# Members in another order

A member declaration contributes the same to a class wherever it stands, but for the numbers of the
functions that it makes: these come right behind the functions of the declarations before it. So if
member declarations change places, what they contribute is renumbered by a permutation of these
functions. `Region.Spread.perm` finds this permutation, one exchange of neighbours at a time.
-/

namespace CWithClasses

open Check Renaming

/-! ### Renamings -/

namespace Renaming

/-- One renaming after another. -/
def comp (σ τ : Renaming) : Renaming where
  cls i := σ.cls (τ.cls i)
  fn i := σ.fn (τ.fn i)
  injective_cls := σ.injective_cls.comp τ.injective_cls
  injective_fn := σ.injective_fn.comp τ.injective_fn

/-- Two neighbouring blocks of functions change places. -/
def exchange (base k l : Nat) : Renaming where
  cls i := i
  fn i :=
    if i < base then i
    else if i < base + k then i + l
    else if i < base + k + l then i - k
    else i
  injective_cls := Function.injective_id
  injective_fn := by
    intro i j hij
    dsimp only at hij
    split_ifs at hij <;> omega

variable {base k l i : Nat}

/-- The first block moves behind the second one. -/
theorem exchange_first (base k l : Nat) :
    ∀ i < k, (exchange base k l).fn (base + i) = base + l + i := by
  intro i hi
  change (if base + i < base then _ else _) = _
  rw [if_neg (by omega), if_pos (by omega)]
  omega

/-- The second block moves in front of the first one. -/
theorem exchange_second (base k l : Nat) :
    ∀ i < l, (exchange base k l).fn (base + k + i) = base + i := by
  intro i hi
  change (if base + k + i < base then _ else _) = _
  rw [if_neg (by omega), if_neg (by omega), if_pos (by omega)]
  omega

/-- All other numbers stay. -/
theorem exchange_outside (h : i < base ∨ base + k + l ≤ i) : (exchange base k l).fn i = i := by
  change (if i < base then i else _) = i
  split_ifs <;> omega

end Renaming

mutual

/-- A type that is renumbered twice. -/
theorem Ty.rename_comp {σ τ : Renaming} : ∀ t : Ty, (t.rename τ).rename σ = t.rename (σ.comp τ)
  | .int | .double | .char | .bool | .void | .unknown => rfl
  | .object _ => rfl
  | .array element size => by rw [rename_array, rename_array, rename_array, rename_comp element]
  | .function id result params required => by
      rw [rename, rename, rename, rename_comp result, renameAll_comp params]
      rfl
  | .pointer target => by rw [rename_pointer, rename_pointer, rename_pointer, rename_comp target]

/-- Types of a row that are renumbered twice. -/
theorem Ty.renameAll_comp {σ τ : Renaming} : ∀ ts : List Ty,
    renameAll σ (renameAll τ ts) = renameAll (σ.comp τ) ts
  | [] => rfl
  | t :: rest => by rw [renameAll, renameAll, renameAll, rename_comp t, renameAll_comp rest]

end

/-! ### Contributions -/

/-- What a member declaration contributes to a class: its effect, and the bodies that are still to
be checked. -/
structure Contribution extends Effect where
  bodies : List FunctionBody := []

/-- The contribution with new numbers. -/
def Contribution.rename (σ : Renaming) (C : Contribution) : Contribution :=
  { toEffect := C.toEffect.rename σ, bodies := C.bodies.map (FunctionBody.rename σ) }

/-- A contribution that is renumbered twice. -/
theorem Contribution.rename_comp {σ τ : Renaming} (C : Contribution) :
    (C.rename τ).rename σ = C.rename (σ.comp τ) := by
  have hmember : ∀ m : Member, (m.rename τ).rename σ = m.rename (σ.comp τ) := by
    intro m
    unfold Member.rename
    rw [Ty.rename_comp]
  have hparameter : ∀ p : Parameter, (p.rename τ).rename σ = p.rename (σ.comp τ) := by
    intro p
    unfold Parameter.rename
    rw [Ty.rename_comp]
  have hbody : ∀ b : FunctionBody, (b.rename τ).rename σ = b.rename (σ.comp τ) := by
    intro b
    unfold FunctionBody.rename
    dsimp only
    rw [Ty.rename_comp, List.map_map, Option.map_map]
    congr
    exact funext hparameter
  unfold rename Effect.rename
  dsimp only
  rw [List.map_map, List.map_map]
  congr
  · exact funext hmember
  · exact funext hbody

/-- If all numbers stay, so does a contribution. -/
theorem Contribution.rename_id (C : Contribution) : C.rename .id = C := by
  have hmember : Member.rename .id = id := by
    funext m
    unfold Member.rename
    rw [Ty.rename_id]
    rfl
  have hparameter : Parameter.rename .id = id := by
    funext p
    unfold Parameter.rename
    rw [Ty.rename_id]
    rfl
  have hclass : ClassRef.rename .id = id := rfl
  have hbody : FunctionBody.rename .id = id := by
    funext b
    unfold FunctionBody.rename
    rw [Ty.rename_id, hparameter, hclass, List.map_id, Option.map_id]
    rfl
  unfold rename Effect.rename
  rw [hmember, hbody, List.map_id, List.map_id]

/-- The effect of contributions one after another. -/
def Contribution.total : List Contribution → Effect
  | [] => {}
  | C :: rest => C.append (total rest)

/-- The number of functions that are made. -/
theorem Contribution.count_total (Cs : List Contribution) :
    (total Cs).count = (Cs.map fun C => C.count).sum := by
  induction Cs with
  | nil => rfl
  | cons C rest ih =>
    change C.count + (total rest).count = _
    rw [ih, List.map_cons, List.sum_cons]

/-- The reports, in order. -/
theorem Contribution.reports_total (Cs : List Contribution) :
    (total Cs).reports = Cs.flatMap fun C => C.reports := by
  induction Cs with
  | nil => rfl
  | cons C rest ih =>
    change C.reports ++ (total rest).reports = _
    rw [ih, List.flatMap_cons]

/-- The members, up to their order. -/
theorem Contribution.members_total (Cs : List Contribution) :
    (total Cs).members.Perm (Cs.flatMap fun C => C.members) := by
  induction Cs with
  | nil => exact .nil
  | cons C rest ih =>
    change ((total rest).members ++ C.members).Perm (C.members ++ _)
    exact (ih.append_right _).trans List.perm_append_comm

/-- The second contributions are the first ones in another order, with new numbers for the functions
that are made from the given one on. -/
structure Contribution.Renumbered (base : Nat) (ρ : Renaming) (Cs Cs' : List Contribution) :
    Prop where
  perm : (Cs.map (rename ρ)).Perm Cs'
  outside : ∀ i, i < base ∨ base + (total Cs).count ≤ i → ρ.fn i = i
  classes : ∀ i, ρ.cls i = i

namespace Contribution.Renumbered

variable {base : Nat} {ρ τ : Renaming} {Cs Cs' Cs'' : List Contribution}

/-- As many functions are made. -/
theorem count_eq (h : Renumbered base ρ Cs Cs') : (total Cs').count = (total Cs).count := by
  rw [count_total, count_total, ← (h.perm.map _).sum_eq, List.map_map]
  rfl

/-- The same is reported. -/
theorem reports_perm (h : Renumbered base ρ Cs Cs') :
    (total Cs).reports.Perm (total Cs').reports := by
  rw [reports_total, reports_total]
  have hreports := h.perm.flatMap_right fun C => C.reports
  rwa [List.flatMap_map] at hreports

/-- The same members are added. -/
theorem members_perm (h : Renumbered base ρ Cs Cs') :
    ((total Cs).rename ρ).members.Perm (total Cs').members := by
  have hmembers := h.perm.flatMap_right fun C => C.members
  have hmap : (Cs.flatMap fun C => C.members).map (Member.rename ρ) =
      (Cs.map (rename ρ)).flatMap fun C => C.members := by
    rw [List.map_flatMap, List.flatMap_map]
    rfl
  exact ((members_total Cs).map _).trans ((hmap ▸ hmembers).trans (members_total Cs').symm)

/-- One change of the order after another. -/
theorem comp (h : Renumbered base ρ Cs Cs') (h' : Renumbered base τ Cs' Cs'') :
    Renumbered base (τ.comp ρ) Cs Cs'' where
  perm := by
    have hboth := (h.perm.map (rename τ)).trans h'.perm
    rw [List.map_map] at hboth
    have hcomp : rename τ ∘ rename ρ = rename (τ.comp ρ) := funext rename_comp
    rwa [hcomp] at hboth
  outside i hi := by
    change τ.fn (ρ.fn i) = i
    rw [h.outside i hi, h'.outside i (by rwa [h.count_eq])]
  classes i := by
    change τ.cls (ρ.cls i) = i
    rw [h.classes, h'.classes]

end Contribution.Renumbered

/-- The state with as many functions as given, none of which has a body. -/
def Checker.resized (s : Checker) (base : Nat) : Checker :=
  { s with symbols := { s.symbols with bodies := Array.replicate base none } }

/-- The state with another access region. -/
def Checker.withAccess (s : Checker) (access : Access) : Checker :=
  { s with symbols := s.symbols.setAccess access }

/-- An effect does not depend on the access region of the state. -/
theorem Checker.Takes.withAccess {c : ClassRef} {s s₁ : Checker} {E : Effect} (h : Takes c s E s₁)
    (access : Access) : Takes c (s.withAccess access) E (s₁.withAccess access) := by
  obtain ⟨log, rfl⟩ := h
  exact ⟨log, rfl⟩

namespace Region

variable {P : Region} {σ : Renaming} {m : Node} {base base' : Nat} {s s₁ : Checker}
  {C D : Contribution}

/-- The region with another access. -/
def within (P : Region) (access : Access) : Region := { P with access }

/-- How many functions there are does not matter for where the check stands. -/
theorem Holds.resized (h : P.Holds s) (base : Nat) : P.Holds (s.resized base) :=
  ⟨h.limit, h.kind, h.access, h.made, h.meaning⟩

/-- How many functions there are does not matter for members. -/
theorem Fresh.resized {N : List String} (h : P.Fresh N s) (base : Nat) :
    P.Fresh N (s.resized base) :=
  ⟨h.nodup, h.free, h.hides⟩

/-- What the declaration contributes if the next function has the given number. -/
structure Contributes (P : Region) (m : Node) (base : Nat) (C : Contribution) : Prop where
  within : C.Within P.access m.memberNames
  inline : ∀ body ∈ C.bodies, body.Inline C.toEffect
  run : ∀ s, P.Holds s → P.Fresh m.memberNames s → s.symbols.bodies.size = base →
    ∃ s₁, m.phrase.memberDeclaration s = .ok C.bodies s₁ ∧ Checker.Takes P.cls s C.toEffect s₁

/-- An effect is determined by the states before and after it. -/
theorem effect_unique {E F : Effect} {N : List String} (hs : P.Holds s)
    (hE : Checker.Takes P.cls s E s₁) (hF : Checker.Takes P.cls s F s₁) (hwE : E.Within P.access N)
    (hwF : F.Within P.access N) : E = F := by
  have hcount : E.count = F.count := by
    have := hE.size_bodies
    have := hF.size_bodies
    omega
  obtain ⟨log, rfl⟩ := hE
  obtain ⟨log', hsame⟩ := hF
  have hreports : E.reports = F.reports :=
    List.append_cancel_left (congrArg Checker.diagnostics hsame)
  have htable : E.table P.access = F.table P.access := by
    have hbody : (s.taking P.cls E).symbols.classBody P.cls =
        (s.taking P.cls F).symbols.classBody P.cls :=
      congrArg (fun s => s.symbols.classBody P.cls) hsame
    rw [s.classBody_taking hs.made, s.classBody_taking hs.made, if_pos rfl, if_pos rfl] at hbody
    have htables := congrArg (fun b : ClassBody => b.table P.access) hbody
    rw [ClassBody.table_gain, ClassBody.table_gain] at htables
    exact List.append_cancel_right htables
  have hmembers : E.members = F.members := by rw [hwE.members_eq, hwF.members_eq, htable]
  cases E
  cases F
  simp_all

namespace Contributes

/-- There is only one contribution. -/
theorem unique (hC : P.Contributes m base C) (hD : P.Contributes m base D) (hs : P.Holds s)
    (hfresh : P.Fresh m.memberNames s) (hbase : s.symbols.bodies.size = base) : C = D := by
  obtain ⟨s₁, hrun, hE⟩ := hC.run s hs hfresh hbase
  obtain ⟨s₂, hrun', hF⟩ := hD.run s hs hfresh hbase
  rw [hrun] at hrun'
  cases hD' : D with
  | mk F bodies =>
    rw [hD'] at hrun' hF hD
    injection hrun' with hbodies hstate
    have heffect := effect_unique hs hE (hstate ▸ hF) hC.within hD.within
    cases C
    simp_all

/-- What a run of the declaration has contributed. -/
theorem of_run (hm : m.isPlain P.types = true) (hs : P.Holds s) (hfresh : P.Fresh m.memberNames s)
    {bodies : List FunctionBody} (hrun : m.phrase.memberDeclaration s = .ok bodies s₁) :
    ∃ C, P.Contributes m s.symbols.bodies.size C ∧ C.bodies = bodies ∧
      Checker.Takes P.cls s C.toEffect s₁ := by
  have hother : ∀ s', P.Holds s' → P.Fresh m.memberNames s' →
      s'.symbols.bodies.size = s.symbols.bodies.size →
      ∃ E, Checker.Takes P.cls s E s₁ ∧ E.Within P.access m.memberNames ∧
        (∀ body ∈ bodies, body.Inline E) ∧ ∃ s₁', m.phrase.memberDeclaration s' = .ok bodies s₁' ∧
          Checker.Takes P.cls s' E s₁' := by
    intro s' hs' hfresh' hsize
    have hfacing : P.Facing .id s₁.symbols.bodies.size m.memberNames s s' :=
      ⟨hs, hs', hfresh, hfresh', fun i _ => congrArg (· + i) hsize.symm⟩
    obtain ⟨E, hE, hwithin, -, hlast⟩ :=
      Region.memberDeclaration (fun _ _ _ _ => rfl) hm s s' hfacing bodies s₁ hrun
    obtain ⟨_, s₁', hrun', hE', rfl, hinline⟩ := hlast hE.size_bodies.ge
    have hsame := Contribution.rename_id ⟨E, bodies⟩
    have heffect : E.rename .id = E := congrArg Contribution.toEffect hsame
    have hbodies : bodies.map (FunctionBody.rename .id) = bodies :=
      congrArg Contribution.bodies hsame
    rw [heffect] at hE'
    rw [hbodies] at hrun'
    exact ⟨E, hE, hwithin, hinline, s₁', hrun', hE'⟩
  obtain ⟨E, hE, hwithin, hinline, -⟩ := hother s hs hfresh rfl
  refine ⟨⟨E, bodies⟩, ⟨hwithin, hinline, fun s' hs' hfresh' hsize => ?_⟩, rfl, hE⟩
  obtain ⟨F, hF, hwithin', -, s₁', hrun', hF'⟩ := hother s' hs' hfresh' hsize
  rw [effect_unique hs hE hF hwithin hwithin']
  exact ⟨s₁', hrun', hF'⟩

/-- What the declaration contributes elsewhere. -/
theorem rename (h : P.Contributes m base C) (hm : m.isPlain P.types = true) (hσ : P.Fixes σ)
    (hs : P.Holds s) (hfresh : P.Fresh m.memberNames s)
    (hnext : ∀ i < C.count, σ.fn (base + i) = base' + i) :
    P.Contributes m base' (C.rename σ) where
  within := by
    refine ⟨fun member hmember => ?_, ?_⟩
    · obtain ⟨source, hsource, rfl⟩ := List.mem_map.mp hmember
      exact h.within.region source hsource
    · change (C.toEffect.rename σ).names.reverse.Sublist _
      rw [Effect.names_rename]
      exact h.within.sublist
  inline body hbody := by
    obtain ⟨source, hsource, rfl⟩ := List.mem_map.mp hbody
    exact (h.inline source hsource).rename σ
  run s' hs' hfresh' hbase := by
    have hsize : (s.resized base).symbols.bodies.size = base := Array.size_replicate
    obtain ⟨t₁, hrun, hE⟩ := h.run _ (hs.resized base) (hfresh.resized base) hsize
    have hfacing : P.Facing σ (base + C.count) m.memberNames (s.resized base) s' := by
      refine ⟨hs.resized base, hs', hfresh.resized base, hfresh', fun i hi => ?_⟩
      rw [hsize] at hi ⊢
      rw [hbase, hnext i (by omega)]
    obtain ⟨E, hE', hwithin, -, hother⟩ :=
      Region.memberDeclaration hσ hm _ s' hfacing C.bodies t₁ hrun
    obtain rfl : E = C.toEffect := effect_unique (hs.resized base) hE' hE hwithin h.within
    obtain ⟨_, s₁', hrun', hrenamed, rfl, -⟩ := hother (by rw [hsize])
    exact ⟨s₁', hrun', hrenamed⟩

/-- A contribution has no other numbers than those of its functions and those of classes that type
names mean. -/
theorem rename_eq (h : P.Contributes m base C) (hm : m.isPlain P.types = true) (hσ : P.Fixes σ)
    (hs : P.Holds s) (hfresh : P.Fresh m.memberNames s)
    (hnext : ∀ i < C.count, σ.fn (base + i) = base + i) : C.rename σ = C :=
  (h.rename hm hσ hs hfresh hnext).unique h (hs.resized base) (hfresh.resized base)
    Array.size_replicate

end Contributes

/-! ### Contributions one after another -/

/-- The declaration is plain, and there is a state in which it can be made. -/
def Admits (P : Region) (x : Access × Node) : Prop :=
  x.2.isPlain P.types = true ∧
    ∃ s, (P.within x.1).Holds s ∧ (P.within x.1).Fresh x.2.memberNames s

/-- What declarations contribute one after another, if the next function has the given number. -/
inductive Spread (P : Region) : Nat → List (Access × Node) → List Contribution → Prop
  | nil (base : Nat) : Spread P base [] []
  | cons {base : Nat} {access : Access} {m : Node} {rest : List (Access × Node)} {C : Contribution}
      {Cs : List Contribution} (first : (P.within access).Contributes m base C)
      (others : Spread P (base + C.count) rest Cs) :
      Spread P base ((access, m) :: rest) (C :: Cs)

namespace Spread

variable {L L' : List (Access × Node)} {Cs : List Contribution}

/-- Contributions have no other numbers than those of their functions and those of classes that type
names mean. -/
theorem rename_eq (h : P.Spread base L Cs) (hL : ∀ x ∈ L, P.Admits x) (hσ : P.Fixes σ)
    (hnext : ∀ i, base ≤ i → i < base + (Contribution.total Cs).count → σ.fn i = i) :
    Cs.map (Contribution.rename σ) = Cs := by
  induction h with
  | nil => rfl
  | @cons base access m rest C Cs hfirst _ ih =>
    obtain ⟨hm, s, hs, hfresh⟩ := hL (access, m) List.mem_cons_self
    change ∀ i, base ≤ i → i < base + (C.count + (Contribution.total Cs).count) →
      σ.fn i = i at hnext
    have hrest := ih (fun x hx => hL x (List.mem_cons_of_mem _ hx))
      fun i hle hlt => hnext i (by omega) (by omega)
    have hC : C.rename σ = C :=
      hfirst.rename_eq hm hσ hs hfresh fun i hi => hnext _ (by omega) (by omega)
    rw [List.map_cons, hC, hrest]

/-- Bodies are those of methods that have been added. -/
theorem inline (h : P.Spread base L Cs) : ∀ C ∈ Cs, ∀ b ∈ C.bodies, b.Inline C.toEffect := by
  induction h with
  | nil => exact fun _ hC => (List.not_mem_nil hC).elim
  | cons hfirst _ ih =>
    intro C hC
    rcases List.mem_cons.mp hC with rfl | hC
    · exact hfirst.inline
    · exact ih C hC

/-- Declarations in another order contribute the same, up to the numbers of the functions that they
make. -/
theorem perm (hperm : L.Perm L') (hL : ∀ x ∈ L, P.Admits x) (h : P.Spread base L Cs) :
    ∃ ρ Cs', P.Spread base L' Cs' ∧ Contribution.Renumbered base ρ Cs Cs' := by
  induction hperm generalizing base Cs with
  | nil =>
    cases h
    exact ⟨.id, [], .nil base, .nil, fun _ _ => rfl, fun _ => rfl⟩
  | @cons x L L' _ ih =>
    cases h with
    | @cons _ access m _ C Cs hfirst hothers =>
      obtain ⟨hm, s, hs, hfresh⟩ := hL (access, m) List.mem_cons_self
      obtain ⟨ρ, Cs', hspread, hρ⟩ := ih (fun x hx => hL x (List.mem_cons_of_mem _ hx)) hothers
      have hC : C.rename ρ = C :=
        hfirst.rename_eq hm (fun _ _ c _ => hρ.classes c.id) hs hfresh
          fun i hi => hρ.outside _ (.inl (by omega))
      refine ⟨ρ, C :: Cs', .cons hfirst hspread, ?_, fun i hi => hρ.outside i ?_, hρ.classes⟩
      · rw [List.map_cons, hC]
        exact hρ.perm.cons C
      · change i < base ∨ base + (C.count + (Contribution.total Cs).count) ≤ i at hi
        omega
  | swap x y L =>
    cases h with
    | @cons _ access m _ C Cs hfirst hothers =>
      cases hothers with
      | @cons _ access' m' _ D Ds hsecond hothers =>
        obtain ⟨hm, s, hs, hfresh⟩ := hL (access, m) List.mem_cons_self
        obtain ⟨hm', s', hs', hfresh'⟩ := hL (access', m') (by simp)
        have hC := hfirst.rename (σ := .exchange base C.count D.count) hm (fun _ _ _ _ => rfl) hs
          hfresh (exchange_first base C.count D.count)
        have hD := hsecond.rename (σ := .exchange base C.count D.count) hm' (fun _ _ _ _ => rfl) hs'
          hfresh' (exchange_second base C.count D.count)
        have hrest := hothers.rename_eq (σ := .exchange base C.count D.count)
          (fun x hx => hL x (by simp [hx])) (fun _ _ _ _ => rfl)
          fun i hi _ => exchange_outside (.inr hi)
        rw [Nat.add_right_comm] at hothers
        refine ⟨.exchange base C.count D.count, _, .cons hD (.cons hC hothers), ?_, ?_,
          fun _ => rfl⟩
        · rw [List.map_cons, List.map_cons, hrest]
          exact .swap ..
        · intro i hi
          change i < base ∨ base + (C.count + (D.count + (Contribution.total Ds).count)) ≤ i at hi
          exact exchange_outside (by omega)
  | @trans L₁ L₂ L₃ h₁₂ _ ih ih' =>
    obtain ⟨ρ, Cs', hspread, hρ⟩ := ih hL h
    obtain ⟨τ, Cs'', hspread', hτ⟩ := ih' (fun x hx => hL x (h₁₂.mem_iff.mpr hx)) hspread
    exact ⟨τ.comp ρ, Cs'', hspread', hρ.comp hτ⟩

end Spread

/-! ### Chains of members -/

/-- The names that declarations introduce. -/
def namesOf (L : List (Access × Node)) : List String := L.flatMap fun x => x.2.memberNames

/-- All names that are added, in order. -/
theorem Spread.names_sublist {L : List (Access × Node)} {Cs : List Contribution}
    (h : P.Spread base L Cs) : (Contribution.total Cs).names.reverse.Sublist (namesOf L) := by
  induction h with
  | nil => exact List.Sublist.refl _
  | @cons base access m rest C Cs hfirst _ ih =>
    change (((Contribution.total Cs).members ++ C.members).map Member.name).reverse.Sublist
      (m.memberNames ++ namesOf rest)
    rw [List.map_append, List.reverse_append]
    exact hfirst.within.sublist.append ih

/-- A link of a chain declares a member, or it chooses the access region. -/
theorem memberLink_cases {link : Node} {links : List Node} {access : Access}
    {L : List (Access × Node)} (h : Node.placedFrom? access (link :: links) = some L) :
    (∃ m L', L = (access, m) :: L' ∧ Node.placedFrom? access links = some L' ∧
      link.phrase.memberLink = m.phrase.memberDeclaration) ∨
    ∃ access', Node.placedFrom? access' links = some L ∧
      link.phrase.memberLink = (do modifySymbols (·.setAccess access'); return []) := by
  have hpart : ∀ {m : Node}, link.child? 0 = some m → link.phrase.part 0 = pure m.phrase := by
    intro m hm
    unfold Phrase.part Clause.part
    rw [link.phrase_clause, link.clause_part?, hm]
    rfl
  unfold Node.placedFrom? at h
  split at h
  next hrule =>
    obtain ⟨m, hm, h⟩ := Option.bind_eq_some_iff.mp h
    obtain ⟨L', hL', h⟩ := Option.bind_eq_some_iff.mp h
    refine .inl ⟨m, L', (Option.some.inj h).symm, hL', ?_⟩
    unfold Phrase.memberLink
    rw [link.phrase_rule, hrule, hpart hm]
    rfl
  next hrule =>
    obtain ⟨child, hchild, h⟩ := Option.bind_eq_some_iff.mp h
    obtain ⟨key, hkey, h⟩ := Option.bind_eq_some_iff.mp h
    obtain ⟨access', haccess, h⟩ := Option.bind_eq_some_iff.mp h
    refine .inr ⟨access', h, ?_⟩
    have htoken : (liftM child.phrase.node.leafToken : Check Token) = pure key := by
      unfold Node.leafToken
      rw [child.phrase_node, hkey]
      rfl
    unfold Phrase.memberLink
    rw [link.phrase_rule, hrule, hpart hchild]
    dsimp only
    rw [pure_bind, htoken, pure_bind, haccess]
  next =>
    obtain ⟨L', hL', h⟩ := Option.bind_eq_some_iff.mp h
    refine .inl ⟨link, L', (Option.some.inj h).symm, hL', ?_⟩
    unfold Phrase.memberLink
    rw [link.phrase_rule]
    split
    any_goals contradiction
    rfl

variable {access : Access} {L : List (Access × Node)} {Cs : List Contribution} {links : List Node}

/-- The check stands in another access region. -/
theorem Holds.withAccess (h : P.Holds s) (access : Access) :
    (P.within access).Holds (s.withAccess access) :=
  ⟨h.limit, h.kind, rfl, h.made, h.meaning⟩

/-- The access region does not matter for members. -/
theorem Fresh.withAccess {N : List String} (h : P.Fresh N s) (access access' : Access) :
    (P.within access).Fresh N (s.withAccess access') :=
  ⟨h.nodup, h.free, h.hides⟩

/-- Declarations that can all be made can each be made. -/
theorem Fresh.admits (h : P.Fresh (namesOf L) s) (hs : P.Holds s)
    (hplain : ∀ x ∈ L, x.2.isPlain P.types = true) : ∀ x ∈ L, P.Admits x := by
  intro x hx
  have hmem : ∀ name ∈ x.2.memberNames, name ∈ namesOf L :=
    fun name hname => List.mem_flatMap.mpr ⟨x, hx, hname⟩
  refine ⟨hplain x hx, s.withAccess x.1, hs.withAccess x.1, ?_, ?_, ?_⟩
  · exact (List.nodup_flatMap.mp h.nodup).1 x hx
  · exact fun name hname => h.free name (hmem name hname)
  · exact fun name hname => h.hides name (hmem name hname)

/-- After the first of some declarations, the others can be made. -/
theorem Fresh.rest {rest : List (Access × Node)} (h : P.Fresh (namesOf ((access, m) :: rest)) s)
    (hC : (P.within access).Contributes m s.symbols.bodies.size C)
    (hE : Checker.Takes P.cls s C.toEffect s₁) : P.Fresh (namesOf rest) s₁ := by
  change P.Fresh (m.memberNames ++ namesOf rest) s at h
  exact h.after hE hC.within.names

/-- The check still stands where it did. -/
theorem Contributes.holds (hC : P.Contributes m base C) (hs : P.Holds s)
    (hfresh : P.Fresh m.memberNames s) (hE : Checker.Takes P.cls s C.toEffect s₁) : P.Holds s₁ :=
  hs.after hE fun name hname => hfresh.hides name (hC.within.names name hname)

/-- A run of a chain shows what its members contribute. -/
theorem Spread.of_links (hL : Node.placedFrom? access links = some L)
    (hplain : ∀ x ∈ L, x.2.isPlain P.types = true) (hs : (P.within access).Holds s)
    (hfresh : P.Fresh (namesOf L) s) {bodies : List (List FunctionBody)}
    (hrun : (links.map Node.phrase).mapM Phrase.memberLink s = .ok bodies s₁) :
    ∃ Cs, P.Spread s.symbols.bodies.size L Cs := by
  induction links generalizing access L s s₁ bodies with
  | nil =>
    obtain rfl : [] = L := Option.some.inj hL
    exact ⟨[], .nil _⟩
  | cons link links ih =>
    rw [List.map_cons, List.mapM_cons] at hrun
    obtain ⟨first, s', hlink, hrun⟩ := exists_of_bind hrun
    obtain ⟨rest, s'', hlinks, -⟩ := exists_of_bind hrun
    rcases memberLink_cases hL with ⟨m, L', rfl, hL', hmember⟩ | ⟨access', hL', haccess⟩
    · rw [hmember] at hlink
      have hleft : (P.within access).Fresh m.memberNames s :=
        Fresh.left (M := namesOf L') ⟨hfresh.nodup, hfresh.free, hfresh.hides⟩
      obtain ⟨C, hC, -, hE⟩ :=
        Contributes.of_run (P := P.within access) (hplain _ List.mem_cons_self) hs hleft hlink
      obtain ⟨Cs, hCs⟩ := ih hL' (fun x hx => hplain x (List.mem_cons_of_mem _ hx))
        (hC.holds hs hleft hE) (hfresh.rest hC hE) hlinks
      rw [hE.size_bodies] at hCs
      exact ⟨C :: Cs, .cons hC hCs⟩
    · rw [haccess] at hlink
      cases hlink
      exact ih (s := s.withAccess access') hL' hplain (hs.withAccess access')
        (hfresh.withAccess P.access access') hlinks

/-- What its members contribute determines a run of a chain. -/
theorem Spread.run_links (hL : Node.placedFrom? access links = some L)
    (hs : (P.within access).Holds s) (hfresh : P.Fresh (namesOf L) s)
    (hCs : P.Spread s.symbols.bodies.size L Cs) :
    ∃ bodies s₁ access', (links.map Node.phrase).mapM Phrase.memberLink s = .ok bodies s₁ ∧
      bodies.flatten = Cs.flatMap (fun C => C.bodies) ∧
      Checker.Takes P.cls (s.withAccess access') (Contribution.total Cs) s₁ := by
  induction links generalizing access L s Cs with
  | nil =>
    obtain rfl : [] = L := Option.some.inj hL
    cases hCs
    exact ⟨[], s, s.symbols.current.access, rfl, rfl, .refl P.cls s⟩
  | cons link links ih =>
    rw [List.map_cons, List.mapM_cons]
    rcases memberLink_cases hL with ⟨m, L', rfl, hL', hmember⟩ | ⟨access', hL', haccess⟩
    · cases hCs with
      | @cons _ _ _ _ C Cs hC hCs =>
        have hleft : (P.within access).Fresh m.memberNames s :=
          Fresh.left (M := namesOf L') ⟨hfresh.nodup, hfresh.free, hfresh.hides⟩
        obtain ⟨s', hrun, hE⟩ := hC.run s hs hleft rfl
        rw [← hE.size_bodies] at hCs
        obtain ⟨bodies, s₁, access', hlinks, hbodies, hF⟩ :=
          ih hL' (hC.holds hs hleft hE) (hfresh.rest hC hE) hCs
        refine ⟨C.bodies :: bodies, s₁, access', ?_, ?_, ?_⟩
        · rw [hmember, bind_ok hrun, bind_ok hlinks]
          rfl
        · rw [List.flatten_cons, List.flatMap_cons, hbodies]
        · exact (hE.withAccess access').trans hF
    · obtain ⟨bodies, s₁, access'', hlinks, hbodies, hE⟩ :=
        ih hL' (hs.withAccess access') (hfresh.withAccess P.access access') hCs
      have hlink : link.phrase.memberLink s = .ok [] (s.withAccess access') := by
        rw [haccess]
        rfl
      refine ⟨[] :: bodies, s₁, access'', ?_, hbodies, hE⟩
      rw [bind_ok hlink, bind_ok hlinks]
      rfl

end Region

end CWithClasses
