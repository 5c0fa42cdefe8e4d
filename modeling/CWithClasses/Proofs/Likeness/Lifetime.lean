import CWithClasses.Proofs.Likeness.Table
import Mathlib.Data.Finset.Card
import Mathlib.Data.Finset.Range
import Mathlib.Data.List.Sort
import Mathlib.Order.WellFounded

/-!
# Letting go in tables that are alike

If no class is veiled, tables that are alike mention the same classes and functions. So what nothing
mentions any more in the one table is what nothing mentions in the other one, and the tables stay
alike when both let go of it.

The second table may have more classes and functions, and is therefore given more rounds for letting
go. They make no difference: each round that does anything lets go of something that is alive, and
there are never more things alive than rounds.
-/

namespace CWithClasses

variable {L : Likeness}

/-! ### Mentions -/

/-- The same is mentioned, under the new numbers. -/
def Mentions.Alike (σ : Renaming) (m m' : Mentions) : Prop := ∀ x, m'.Has (σ.either x) ↔ m.Has x

namespace Mentions.Alike

variable {σ : Renaming} {a a' b b' : Mentions}

/-- What either of two things mentions. -/
theorem append (ha : a.Alike σ a') (hb : b.Alike σ b') : (a ++ b).Alike σ (a' ++ b') := by
  intro x
  rw [has_append, has_append, ha x, hb x]

/-- What any of some things mentions. -/
theorem ofList {α β : Type} {f : α → Mentions} {g : β → Mentions} {as : List α} {bs : List β}
    (h : List.Forall₂ (fun a b => (f a).Alike σ (g b)) as bs) :
    (ofList f as).Alike σ (Mentions.ofList g bs) := by
  induction h with
  | nil => exact fun x => by simp [Mentions.ofList]
  | cons hab _ ih => exact hab.append ih

/-- The mention of a class. -/
theorem ofClass (c : ClassRef) : (ofClass c).Alike σ (Mentions.ofClass (c.rename σ)) := by
  intro x
  rw [has_ofClass, has_ofClass]
  cases x with
  | inl i => simp [Renaming.either]
  | inr i => simp [Renaming.either, ClassRef.rename]

end Mentions.Alike

/-- What a type mentions. -/
theorem Ty.mentions_alike (σ : Renaming) (t : Ty) : t.mentions.Alike σ (t.rename σ).mentions := by
  intro x
  rw [mentions_rename]
  exact Mentions.has_rename

/-- What bindings mention, of which some may be hidden. -/
theorem Bindings.mentions_alike {σ : Renaming} {hidden : List String} {b b' : Bindings}
    (hvisible : Bindings.visible hidden b' = Bindings.rename σ b)
    (hforeign : ∀ entry ∈ b', entry.1 ∈ hidden → entry.2.mentions.Foreign σ) :
    (Bindings.mentions b).Alike σ (Bindings.mentions b') := by
  intro x
  unfold mentions
  rw [Mentions.has_ofList, Mentions.has_ofList]
  constructor
  · rintro ⟨entry, hentry, hx⟩
    have hnot : entry.1 ∉ hidden := fun hhidden => hforeign entry hentry hhidden x hx
    have hmem : entry ∈ Bindings.rename σ b := by
      rw [← hvisible]
      exact List.mem_filter.mpr ⟨hentry, by simpa using hnot⟩
    obtain ⟨source, hsource, rfl⟩ := List.mem_map.mp hmem
    exact ⟨source, hsource, (source.2.mentions_alike σ x).mp hx⟩
  · rintro ⟨entry, hentry, hx⟩
    have hmem : (entry.1, entry.2.rename σ) ∈ Bindings.visible hidden b' := by
      rw [hvisible]
      exact List.mem_map_of_mem hentry
    exact ⟨_, (List.mem_filter.mp hmem).1, (entry.2.mentions_alike σ x).mpr hx⟩

/-- What renumbered bindings mention. -/
theorem Bindings.mentions_rename_alike (σ : Renaming) (b : Bindings) :
    (Bindings.mentions b).Alike σ (Bindings.mentions (Bindings.rename σ b)) := by
  refine .ofList ?_
  unfold Bindings.rename
  rw [List.forall₂_map_right_iff]
  exact List.forall₂_same.mpr fun entry _ => entry.2.mentions_alike σ

/-- What a scope mentions. -/
theorem Frame.Alike.mentions {f g : Frame} (h : f.Alike L g) :
    f.mentions.Alike L.toRenaming g.mentions := by
  obtain ⟨own, hclasses, hown⟩ := h.classes
  have hshared : ∀ classes : List ClassRef, (Mentions.ofList .ofClass classes).Alike L.toRenaming
      (.ofList .ofClass (classes.map (ClassRef.rename L.toRenaming))) := by
    intro classes
    refine .ofList ?_
    rw [List.forall₂_map_right_iff]
    exact List.forall₂_same.mpr fun c _ => .ofClass c
  have hrecorded : (Mentions.ofList .ofClass f.classes).Alike L.toRenaming
      (.ofList .ofClass g.classes) := by
    intro x
    rw [← hshared f.classes x, hclasses, Mentions.has_ofList, Mentions.has_ofList]
    constructor
    · rintro ⟨c, hc, hx⟩
      rcases List.mem_append.mp hc with hmem | hmem
      · rw [Mentions.has_ofClass] at hx
        cases x with
        | inl i => cases hx
        | inr i => exact absurd (Sum.inr.inj hx) (hown c hmem i)
      · exact ⟨c, hmem, hx⟩
    · rintro ⟨c, hc, hx⟩
      exact ⟨c, List.mem_append_right _ hc, hx⟩
  have hcls : (Mentions.ofList .ofClass f.cls?.toList).Alike L.toRenaming
      (.ofList .ofClass g.cls?.toList) := by
    have hlist : g.cls?.toList = f.cls?.toList.map (ClassRef.rename L.toRenaming) := by
      rw [h.seen.cls?_eq]
      cases f.cls? <;> rfl
    rw [hlist]
    exact hshared _
  exact ((Bindings.mentions_alike h.bindings h.foreign).append hrecorded).append hcls

/-- What the members of a class mention that is not veiled. -/
theorem ClassBody.Alike.mentions {σ : Renaming} {veiled : Prop} {b b' : ClassBody}
    (h : b.Alike σ veiled b') (hveiled : ¬ veiled) : b.mentions.Alike σ b'.mentions := by
  unfold ClassBody.mentions
  rw [h.publicMembers, h.privateMembers hveiled]
  exact (Bindings.mentions_rename_alike σ _).append (Bindings.mentions_rename_alike σ _)

/-- A class without members mentions nothing. -/
theorem ClassBody.not_has_of_isEmpty {b : ClassBody} (h : b.isEmpty = true) (x : Nat ⊕ Nat) :
    ¬ b.mentions.Has x := by
  unfold isEmpty at h
  rw [Bool.and_eq_true, List.isEmpty_iff, List.isEmpty_iff] at h
  unfold mentions
  rw [h.1, h.2]
  simp [Bindings.mentions]

/-- Something is found on the second side, where some places have no counterpart, if and only if it
is found on the first one. -/
theorem exists_some_iff {α β : Type} {p : Nat → Option α} {q : Nat → Option β} {r : Nat → Nat}
    {R : Nat → α → β → Prop} {P : α → Prop} {Q : β → Prop}
    (hrel : ∀ i, Option.Rel (R i) (p i) (q (r i)))
    (hown : ∀ j, (∀ i, r i ≠ j) → ∀ b, q j = some b → ¬ Q b)
    (hR : ∀ i a b, R i a b → (Q b ↔ P a)) :
    (∃ b, (∃ j, q j = some b) ∧ Q b) ↔ ∃ a, (∃ i, p i = some a) ∧ P a := by
  constructor
  · rintro ⟨b, ⟨j, hj⟩, hb⟩
    by_cases hrange : ∃ i, r i = j
    · obtain ⟨i, rfl⟩ := hrange
      have hi := hrel i
      rw [hj] at hi
      generalize hfound : p i = found at hi
      cases hi with
      | some hab => exact ⟨_, ⟨i, hfound⟩, (hR i _ _ hab).mp hb⟩
    · exact absurd hb (hown j (fun i hi => hrange ⟨i, hi⟩) b hj)
  · rintro ⟨a, ⟨i, hi⟩, ha⟩
    have hj := hrel i
    rw [hi] at hj
    generalize hfound : q (r i) = found at hj
    cases hj with
    | some hab => exact ⟨_, ⟨r i, hfound⟩, (hR i _ _ hab).mpr ha⟩

/-- The bodies that functions have. -/
theorem SymbolTable.mem_filterMap_bodies {bodies : Array (Option Frame)} {f : Frame} :
    f ∈ bodies.toList.filterMap id ↔ ∃ i : Nat, bodies[i]?.join = some f := by
  rw [List.mem_filterMap]
  simp only [id, exists_eq_right]
  rw [List.mem_iff_getElem?]
  simp only [Array.getElem?_toList, Option.join_eq_some_iff]

namespace SymbolTable.Alike

variable {t u : SymbolTable}

/-- What the members of all classes mention. -/
theorem mentions_classes (h : t.Alike L u) (hveil : ∀ i, ¬ L.veiled i) :
    (Mentions.ofList ClassBody.mentions t.classes.toList).Alike L.toRenaming
      (.ofList ClassBody.mentions u.classes.toList) := by
  intro x
  rw [Mentions.has_ofList, Mentions.has_ofList]
  simp only [List.mem_iff_getElem?, Array.getElem?_toList]
  refine exists_some_iff h.classes ?_ fun i b b' hb => hb.mentions (hveil i) x
  intro j hj b hb
  exact ClassBody.not_has_of_isEmpty (h.ownClasses j hj b hb) _

/-- What the bodies of all functions mention. -/
theorem mentions_bodies (h : t.Alike L u) :
    (Mentions.ofList Frame.mentions (t.bodies.toList.filterMap id)).Alike L.toRenaming
      (.ofList Frame.mentions (u.bodies.toList.filterMap id)) := by
  intro x
  rw [Mentions.has_ofList, Mentions.has_ofList]
  simp only [mem_filterMap_bodies]
  refine exists_some_iff h.bodies ?_ fun i f g hfg => hfg.mentions x
  intro j hj g hg
  rw [h.ownBodies j hj] at hg
  cases hg

/-- What tables mention in which no class is veiled. -/
theorem mentions (h : t.Alike L u) (hveil : ∀ i, ¬ L.veiled i) :
    t.mentions.Alike L.toRenaming u.mentions := by
  have hframes : (Mentions.ofList Frame.mentions t.frames).Alike L.toRenaming
      (.ofList Frame.mentions u.frames) :=
    .ofList (h.frames.imp fun f g hfg => hfg.mentions)
  exact (hframes.append (h.mentions_classes hveil)).append h.mentions_bodies

end SymbolTable.Alike

/-! ### What is alive -/

namespace SymbolTable

/-- The functions that have a body. -/
def liveBodies (t : SymbolTable) : Finset Nat :=
  (Finset.range t.bodies.size).filter fun i => t.bodies[i]?.join.isSome

/-- The classes that have members. -/
def liveClasses (t : SymbolTable) : Finset Nat :=
  (Finset.range t.classes.size).filter fun i => t.classes[i]?.any fun b => !b.isEmpty

/-- The number of functions that have a body and of classes that have members. -/
def live (t : SymbolTable) : Nat := t.liveBodies.card + t.liveClasses.card

variable {t t' : SymbolTable} {i : Nat}

theorem mem_liveBodies : i ∈ t.liveBodies ↔ t.bodies[i]?.join.isSome = true := by
  unfold liveBodies
  rw [Finset.mem_filter, Finset.mem_range, and_iff_right_iff_imp]
  intro hsome
  by_contra hsize
  rw [Array.getElem?_eq_none (Nat.le_of_not_lt hsize)] at hsome
  cases hsome

theorem mem_liveClasses :
    i ∈ t.liveClasses ↔ (t.classes[i]?.any fun b => !b.isEmpty) = true := by
  unfold liveClasses
  rw [Finset.mem_filter, Finset.mem_range, and_iff_right_iff_imp]
  intro hsome
  by_contra hsize
  rw [Array.getElem?_eq_none (Nat.le_of_not_lt hsize)] at hsome
  cases hsome

/-- There is no more alive than there has been made. -/
theorem live_le (t : SymbolTable) : t.live ≤ t.bodies.size + t.classes.size := by
  have hbodies := Finset.card_filter_le (Finset.range t.bodies.size)
    fun i => t.bodies[i]?.join.isSome = true
  have hclasses := Finset.card_filter_le (Finset.range t.classes.size)
    fun i => (t.classes[i]?.any fun b => !b.isEmpty) = true
  rw [Finset.card_range] at hbodies hclasses
  exact Nat.add_le_add hbodies hclasses

/-- What is alive in the second table has been alive in the first one. -/
structure Outlives (t t' : SymbolTable) : Prop where
  bodies : t'.liveBodies ⊆ t.liveBodies
  classes : t'.liveClasses ⊆ t.liveClasses

namespace Outlives

/-- Nothing has changed. -/
theorem refl (t : SymbolTable) : t.Outlives t := ⟨subset_rfl, subset_rfl⟩

/-- One change after another. -/
theorem trans {t₁ t₂ t₃ : SymbolTable} (h : t₁.Outlives t₂) (h' : t₂.Outlives t₃) :
    t₁.Outlives t₃ :=
  ⟨h'.bodies.trans h.bodies, h'.classes.trans h.classes⟩

/-- Many changes of one kind. -/
theorem foldl {α : Type} {step : SymbolTable → α → SymbolTable}
    (h : ∀ (t : SymbolTable) (a : α), t.Outlives (step t a)) (items : List α) (t : SymbolTable) :
    t.Outlives (items.foldl step t) :=
  List.foldlRecOn items step (motive := t.Outlives) (refl t) fun t' ht' a _ => ht'.trans (h t' a)

/-- Taking the members of a class away. -/
theorem dropMembers (t : SymbolTable) (id : Nat) :
    t.Outlives (t.dropMembers id) ∧ id ∉ (t.dropMembers id).liveClasses := by
  have hmem : ∀ i, i ∈ (t.dropMembers id).liveClasses ↔ i ≠ id ∧ i ∈ t.liveClasses := by
    intro i
    rw [mem_liveClasses, mem_liveClasses]
    change ((t.classes.modify id ClassBody.clear)[i]?.any _) = true ↔ _
    rw [Array.getElem?_modify]
    split
    next heq =>
      subst heq
      cases t.classes[id]? <;> simp [ClassBody.clear, ClassBody.isEmpty]
    next hne => simp [Ne.symm hne]
  refine ⟨⟨subset_rfl, fun i hi => ((hmem i).mp hi).2⟩, ?_⟩
  intro hid
  exact ((hmem id).mp hid).1 rfl

/-- Letting go of a frame. -/
theorem discard (t : SymbolTable) (f : Frame) : t.Outlives (t.discard f) := by
  have hclear : ∀ (t : SymbolTable) (c : ClassRef), t.Outlives (t.clear c) :=
    fun t c => (dropMembers t c.id).1
  exact foldl hclear f.classes t

/-- Taking the body of a function away. -/
theorem dropBody (t : SymbolTable) (id : Nat) :
    t.Outlives (t.dropBody id) ∧ id ∉ (t.dropBody id).liveBodies := by
  unfold SymbolTable.dropBody
  split
  next frame hframe =>
    have hmem : ∀ i, i ∈ ({ t with bodies := t.bodies.modify id fun _ => none } :
        SymbolTable).liveBodies ↔ i ≠ id ∧ i ∈ t.liveBodies := by
      intro i
      rw [mem_liveBodies, mem_liveBodies]
      change ((t.bodies.modify id fun _ => none)[i]?.join.isSome) = true ↔ _
      rw [Array.getElem?_modify]
      split
      next heq =>
        subst heq
        cases t.bodies[id]? <;> simp
      next hne => simp [Ne.symm hne]
    have hdiscard := discard { t with bodies := t.bodies.modify id fun _ => none } frame
    refine ⟨.trans ⟨fun i hi => ((hmem i).mp hi).2, subset_rfl⟩ hdiscard, fun hid => ?_⟩
    exact ((hmem id).mp (hdiscard.bodies hid)).1 rfl
  next hnone =>
    refine ⟨refl t, fun hid => ?_⟩
    rw [mem_liveBodies, hnone] at hid
    cases hid

end Outlives

/-- One round of letting go. -/
def shed (t : SymbolTable) (bodies classes : List Nat) : SymbolTable :=
  classes.foldl dropMembers (bodies.foldl dropBody t)

/-- What a step takes away for good is gone after all steps. -/
theorem not_mem_foldl {alive : SymbolTable → Finset Nat} {step : SymbolTable → Nat → SymbolTable}
    (hstep : ∀ (t : SymbolTable) (id : Nat), alive (step t id) ⊆ alive t ∧ id ∉ alive (step t id))
    {ids : List Nat} {id : Nat} (hid : id ∈ ids) (t : SymbolTable) :
    id ∉ alive (ids.foldl step t) := by
  induction ids generalizing t with
  | nil => cases hid
  | cons first rest ih =>
    rcases List.mem_cons.mp hid with rfl | hid
    · have hrest : alive (rest.foldl step (step t id)) ⊆ alive (step t id) :=
        List.foldlRecOn rest step (motive := fun t' => alive t' ⊆ alive (step t id)) subset_rfl
          fun t' ht' a _ => (hstep t' a).1.trans ht'
      exact fun hmem => (hstep t id).2 (hrest hmem)
    · exact ih hid (step t first)

/-- Each round that lets go of something leaves less alive. -/
theorem live_shed {bodies classes : List Nat} (hbodies : ∀ i ∈ bodies, i ∈ t.liveBodies)
    (hclasses : ∀ i ∈ classes, i ∈ t.liveClasses) (h : ¬ (bodies = [] ∧ classes = [])) :
    (t.shed bodies classes).live < t.live := by
  have hdropped := Outlives.foldl (fun t id => (Outlives.dropBody t id).1) bodies t
  have hcleared := Outlives.foldl (fun t id => (Outlives.dropMembers t id).1) classes
    (bodies.foldl dropBody t)
  have hall : t.Outlives (t.shed bodies classes) := hdropped.trans hcleared
  have hle := Finset.card_le_card hall.bodies
  have hle' := Finset.card_le_card hall.classes
  unfold live
  by_cases hnil : bodies = []
  · have hne : classes ≠ [] := fun hc => h ⟨hnil, hc⟩
    obtain ⟨i, hi⟩ := List.exists_mem_of_ne_nil classes hne
    have hgone : i ∉ (t.shed bodies classes).liveClasses := by
      refine not_mem_foldl (fun t id => ?_) hi _
      exact ⟨(Outlives.dropMembers t id).1.classes, (Outlives.dropMembers t id).2⟩
    have hlt := Finset.card_lt_card
      ((Finset.ssubset_iff_of_subset hall.classes).mpr ⟨i, hclasses i hi, hgone⟩)
    omega
  · obtain ⟨i, hi⟩ := List.exists_mem_of_ne_nil bodies hnil
    have hgone : i ∉ (bodies.foldl dropBody t).liveBodies := by
      refine not_mem_foldl (fun t id => ?_) hi t
      exact ⟨(Outlives.dropBody t id).1.bodies, (Outlives.dropBody t id).2⟩
    have hlt := Finset.card_lt_card ((Finset.ssubset_iff_of_subset hall.bodies).mpr
      ⟨i, hbodies i hi, fun hmem => hgone (hcleared.bodies hmem)⟩)
    omega

/-! ### Rounds -/

variable {u : SymbolTable}

/-- A body is to go if nothing mentions its function. -/
theorem mem_staleBodies {held : Mentions} :
    i ∈ t.staleBodies held ↔ i ∈ t.liveBodies ∧ ¬ held.Has (.inl i) := by
  unfold staleBodies liveBodies
  rw [List.mem_filter, Finset.mem_filter, List.mem_range, Finset.mem_range, Bool.and_eq_true,
    and_assoc]
  have hheld : (!held.functions.contains i) = true ↔ ¬ held.Has (.inl i) := by simp [Mentions.Has]
  rw [hheld]

/-- Members are to go if nothing mentions their class. -/
theorem mem_staleClasses {held : Mentions} :
    i ∈ t.staleClasses held ↔ i ∈ t.liveClasses ∧ ¬ held.Has (.inr i) := by
  unfold staleClasses liveClasses
  rw [List.mem_filter, Finset.mem_filter, List.mem_range, Finset.mem_range, Bool.and_eq_true,
    and_assoc]
  have hheld : (!held.classes.contains i) = true ↔ ¬ held.Has (.inr i) := by simp [Mentions.Has]
  rw [hheld]

/-- The bodies and the members that are to go in the next round. -/
def stale (t : SymbolTable) (held : Mentions) : List Nat × List Nat :=
  (t.staleBodies (held ++ t.mentions), t.staleClasses (held ++ t.mentions))

/-- If nothing is to go, all rounds do nothing. -/
theorem reclaimRounds_of_stale_eq {held : Mentions} (h : t.stale held = ([], [])) (rounds : Nat) :
    reclaimRounds held rounds t = t := by
  obtain ⟨hbodies, hclasses⟩ := Prod.mk.inj h
  cases rounds with
  | zero => rfl
  | succ rounds =>
    unfold reclaimRounds
    dsimp only
    rw [hbodies, hclasses]
    rfl

/-- Otherwise the first round leaves less alive. -/
theorem reclaimRounds_succ {held : Mentions} (h : t.stale held ≠ ([], [])) (rounds : Nat) :
    reclaimRounds held (rounds + 1) t =
        reclaimRounds held rounds (t.shed (t.stale held).1 (t.stale held).2) ∧
      (t.shed (t.stale held).1 (t.stale held).2).live < t.live := by
  have hne : ¬ ((t.stale held).1 = [] ∧ (t.stale held).2 = []) :=
    fun hnil => h (Prod.ext hnil.1 hnil.2)
  refine ⟨?_, live_shed (fun i hi => (mem_staleBodies.mp hi).1)
    (fun i hi => (mem_staleClasses.mp hi).1) hne⟩
  rw [reclaimRounds]
  refine if_neg ?_
  rw [Bool.and_eq_true, List.isEmpty_iff, List.isEmpty_iff]
  exact hne

/-- A list in order is determined by what is in it. -/
theorem eq_map_of_mem_iff {r : Nat → Nat} (hr : StrictMono r) {l l' : List Nat}
    (hl : l.Pairwise (· < ·)) (hl' : l'.Pairwise (· < ·)) (h : ∀ j, j ∈ l' ↔ ∃ i ∈ l, r i = j) :
    l' = l.map r := by
  have hmap : (l.map r).Pairwise (· < ·) := hl.map r fun _ _ hlt => hr hlt
  have hperm : l'.Perm (l.map r) := by
    rw [List.perm_ext_iff_of_nodup (hl'.imp fun h => Nat.ne_of_lt h)
      (hmap.imp fun h => Nat.ne_of_lt h)]
    intro j
    rw [h j, List.mem_map]
  exact hperm.eq_of_sortedLE (hl'.sortedLT.sortedLE) (hmap.sortedLT.sortedLE)

namespace Alike

variable {held held' : Mentions} {j : Nat}

/-- The same functions have a body. -/
theorem mem_liveBodies_iff (h : t.Alike L u) : j ∈ u.liveBodies ↔
    ∃ i ∈ t.liveBodies, L.fn i = j := by
  have hsome : ∀ i, u.bodies[L.fn i]?.join.isSome = t.bodies[i]?.join.isSome := by
    intro i
    have hrel := h.bodies i
    generalize t.bodies[i]?.join = b at hrel
    generalize u.bodies[L.fn i]?.join = b' at hrel
    cases hrel <;> rfl
  constructor
  · intro hj
    by_cases hrange : ∃ i, L.fn i = j
    · obtain ⟨i, rfl⟩ := hrange
      rw [mem_liveBodies, hsome] at hj
      exact ⟨i, mem_liveBodies.mpr hj, rfl⟩
    · rw [mem_liveBodies, h.ownBodies j fun i hi => hrange ⟨i, hi⟩] at hj
      cases hj
  · rintro ⟨i, hi, rfl⟩
    rw [mem_liveBodies, hsome]
    exact mem_liveBodies.mp hi

/-- The same classes have members. -/
theorem mem_liveClasses_iff (h : t.Alike L u) :
    j ∈ u.liveClasses ↔ ∃ i ∈ t.liveClasses, L.cls i = j := by
  have hany : ∀ i, (u.classes[L.cls i]?.any fun b => !b.isEmpty) =
      t.classes[i]?.any fun b => !b.isEmpty := by
    intro i
    have hrel := h.classes i
    generalize t.classes[i]? = b at hrel
    generalize u.classes[L.cls i]? = b' at hrel
    cases hrel with
    | none => rfl
    | @some b b' hb =>
      have hpublic : b'.publicMembers.isEmpty = b.publicMembers.isEmpty := by
        rw [hb.publicMembers, Bindings.rename, List.isEmpty_map]
      have hprivate : b'.privateMembers.isEmpty = b.privateMembers.isEmpty := by
        have hnames := congrArg List.isEmpty hb.privateNames
        rwa [List.isEmpty_map, List.isEmpty_map] at hnames
      simp only [Option.any_some, ClassBody.isEmpty, hpublic, hprivate]
  constructor
  · intro hj
    by_cases hrange : ∃ i, L.cls i = j
    · obtain ⟨i, rfl⟩ := hrange
      rw [mem_liveClasses, hany] at hj
      exact ⟨i, mem_liveClasses.mpr hj, rfl⟩
    · rw [mem_liveClasses] at hj
      cases hb : u.classes[j]? with
      | none =>
        rw [hb] at hj
        cases hj
      | some b =>
        have hempty := h.ownClasses j (fun i hi => hrange ⟨i, hi⟩) b hb
        simp [hb, hempty] at hj
  · rintro ⟨i, hi, rfl⟩
    rw [mem_liveClasses, hany]
    exact mem_liveClasses.mp hi

/-- The same bodies are to go. -/
theorem staleBodies (h : t.Alike L u) (hheld : held.Alike L.toRenaming held') :
    u.staleBodies held' = (t.staleBodies held).map L.fn := by
  refine eq_map_of_mem_iff L.strictMono_fn (List.pairwise_lt_range.filter _)
    (List.pairwise_lt_range.filter _) fun j => ?_
  rw [mem_staleBodies, h.mem_liveBodies_iff]
  simp only [mem_staleBodies]
  constructor
  · rintro ⟨⟨i, hi, rfl⟩, hnot⟩
    exact ⟨i, ⟨hi, fun hmem => hnot ((hheld (.inl i)).mpr hmem)⟩, rfl⟩
  · rintro ⟨i, ⟨hi, hnot⟩, rfl⟩
    exact ⟨⟨i, hi, rfl⟩, fun hmem => hnot ((hheld (.inl i)).mp hmem)⟩

/-- The members of the same classes are to go. -/
theorem staleClasses (h : t.Alike L u) (hheld : held.Alike L.toRenaming held') :
    u.staleClasses held' = (t.staleClasses held).map L.cls := by
  refine eq_map_of_mem_iff L.strictMono_cls (List.pairwise_lt_range.filter _)
    (List.pairwise_lt_range.filter _) fun j => ?_
  rw [mem_staleClasses, h.mem_liveClasses_iff]
  simp only [mem_staleClasses]
  constructor
  · rintro ⟨⟨i, hi, rfl⟩, hnot⟩
    exact ⟨i, ⟨hi, fun hmem => hnot ((hheld (.inr i)).mpr hmem)⟩, rfl⟩
  · rintro ⟨i, ⟨hi, hnot⟩, rfl⟩
    exact ⟨⟨i, hi, rfl⟩, fun hmem => hnot ((hheld (.inr i)).mp hmem)⟩

/-- Taking the body of a function away. -/
theorem dropBody (h : t.Alike L u) (id : Nat) : (t.dropBody id).Alike L (u.dropBody (L.fn id)) := by
  have hcut : SymbolTable.Alike L { t with bodies := t.bodies.modify id fun _ => none }
      { u with bodies := u.bodies.modify (L.fn id) fun _ => none } := by
    refine ⟨h.frames, h.classes, h.ownClasses, h.nextClass, ?_, ?_, ?_, h.outside⟩
    · intro i
      dsimp only
      rw [Array.getElem?_modify, Array.getElem?_modify]
      simp only [L.toRenaming.fn_inj]
      split
      · cases t.bodies[i]? <;> cases u.bodies[L.fn i]? <;> exact .none
      · exact h.bodies i
    · intro j hj
      dsimp only
      rw [Array.getElem?_modify, if_neg (hj id)]
      exact h.ownBodies j hj
    · intro k
      dsimp only
      rw [Array.size_modify, Array.size_modify]
      exact h.nextFunction k
  have hrel := h.bodies id
  unfold SymbolTable.dropBody
  generalize t.bodies[id]?.join = b at hrel
  generalize u.bodies[L.fn id]?.join = b' at hrel
  cases hrel with
  | none => exact h
  | some hfg => exact hcut.discard hfg

/-- Taking the members of a class away, which is given by its number. -/
theorem dropMembers (h : t.Alike L u) (id : Nat) :
    (t.dropMembers id).Alike L (u.dropMembers (L.cls id)) :=
  h.clear ⟨id, ""⟩

/-- One round of letting go. -/
theorem shed (h : t.Alike L u) (bodies classes : List Nat) :
    (t.shed bodies classes).Alike L (u.shed (bodies.map L.fn) (classes.map L.cls)) := by
  have hbodies : ∀ (ids : List Nat) (t u : SymbolTable), t.Alike L u →
      (ids.foldl SymbolTable.dropBody t).Alike L ((ids.map L.fn).foldl SymbolTable.dropBody u) := by
    intro ids
    induction ids with
    | nil => exact fun _ _ h => h
    | cons id rest ih => exact fun _ _ h => ih _ _ (h.dropBody id)
  have hclasses : ∀ (ids : List Nat) (t u : SymbolTable), t.Alike L u →
      (ids.foldl SymbolTable.dropMembers t).Alike L
        ((ids.map L.cls).foldl SymbolTable.dropMembers u) := by
    intro ids
    induction ids with
    | nil => exact fun _ _ h => h
    | cons id rest ih => exact fun _ _ h => ih _ _ (h.dropMembers id)
  exact hclasses classes _ _ (hbodies bodies t u h)

/-- The same is to go in the next round. -/
theorem stale (h : t.Alike L u) (hveil : ∀ i, ¬ L.veiled i)
    (hheld : held.Alike L.toRenaming held') :
    u.stale held' = ((t.stale held).1.map L.fn, (t.stale held).2.map L.cls) := by
  have hmentioned := hheld.append (h.mentions hveil)
  exact Prod.ext (h.staleBodies hmentioned) (h.staleClasses hmentioned)

/-- All rounds, if each side has enough of them. -/
theorem reclaimRounds (hveil : ∀ i, ¬ L.veiled i) (hheld : held.Alike L.toRenaming held') :
    ∀ {rounds rounds' : Nat} {t u : SymbolTable}, t.Alike L u → t.live ≤ rounds → t.live ≤ rounds' →
      (SymbolTable.reclaimRounds held rounds t).Alike L
        (SymbolTable.reclaimRounds held' rounds' u) := by
  have hdone : ∀ {rounds rounds' : Nat} {t u : SymbolTable}, t.Alike L u → t.stale held = ([], []) →
      (SymbolTable.reclaimRounds held rounds t).Alike L
        (SymbolTable.reclaimRounds held' rounds' u) := by
    intro rounds rounds' t u h hnil
    have hnil' : u.stale held' = ([], []) := by
      rw [h.stale hveil hheld, hnil]
      rfl
    rw [reclaimRounds_of_stale_eq hnil, reclaimRounds_of_stale_eq hnil']
    exact h
  -- The induction is on the rounds of the first side. What is alive there bounds both.
  intro rounds
  induction rounds with
  | zero =>
    intro rounds' t u h hlive hlive'
    by_cases hnil : t.stale held = ([], [])
    · exact hdone h hnil
    · have hless := (reclaimRounds_succ hnil 0).2
      omega
  | succ rounds ih =>
    intro rounds' t u h hlive hlive'
    by_cases hnil : t.stale held = ([], [])
    · exact hdone h hnil
    · obtain ⟨hround, hless⟩ := reclaimRounds_succ hnil rounds
      cases rounds' with
      | zero => omega
      | succ rounds' =>
        have hstale := h.stale hveil hheld
        have hnil' : u.stale held' ≠ ([], []) := by
          intro heq
          rw [hstale, Prod.mk.injEq, List.map_eq_nil_iff, List.map_eq_nil_iff] at heq
          exact hnil (Prod.ext heq.1 heq.2)
        rw [hround, (reclaimRounds_succ hnil' rounds').1, hstale]
        exact ih (h.shed _ _) (by omega) (by omega)

/-- Letting go of all that nothing mentions. -/
theorem reclaim (h : t.Alike L u) (hveil : ∀ i, ¬ L.veiled i)
    (hheld : held.Alike L.toRenaming held') : (t.reclaim held).Alike L (u.reclaim held') := by
  have hbodies : t.bodies.size ≤ u.bodies.size := by
    have hnext := h.nextFunction 0
    have hle := StrictMono.le_apply L.strictMono_fn (x := t.bodies.size)
    rw [Nat.add_zero, Nat.add_zero] at hnext
    omega
  have hclasses : t.classes.size ≤ u.classes.size := by
    have hnext := h.nextClass 0
    have hle := StrictMono.le_apply L.strictMono_cls (x := t.classes.size)
    rw [Nat.add_zero, Nat.add_zero] at hnext
    omega
  have hlive := t.live_le
  exact reclaimRounds hveil hheld h hlive (by omega)

end Alike

end SymbolTable

end CWithClasses
