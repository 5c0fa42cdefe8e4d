import CWithClasses.Proofs.Grounding.Rooting
import CWithClasses.Proofs.Pairs.Defining
import CWithClasses.Proofs.Retention.Step

/-!
# Steps after which there is nothing to let go

When a scope is closed, what only it mentioned goes at once. The body of a function is an exception:
its scope is not let go but kept by the function. So if the function is mentioned somewhere, and
what is mentioned by its result and by its class is mentioned elsewhere too, there is still nothing
to let go.

`Check.Steadies` says two things of a step. From a state in which there is nothing to let go it
leads to another one of this kind; and it keeps all of any earlier state of this kind. The second
part asks nothing of the state in which the step is made, so it also holds inside of scopes whose
end will let go of all that has become superfluous.
-/

namespace CWithClasses

open Check

/-! ### Letting go -/

/-- With as many rounds as there are things alive, nothing is left to go. -/
theorem SymbolTable.stale_reclaimRounds (held : Mentions) {rounds : Nat} {t : SymbolTable}
    (h : t.live ≤ rounds) : (reclaimRounds held rounds t).stale held = ([], []) := by
  induction rounds generalizing t with
  | zero =>
    rw [reclaimRounds]
    by_contra hstale
    have hlt := (reclaimRounds_succ hstale 0).2
    omega
  | succ rounds ih =>
    by_cases hstale : t.stale held = ([], [])
    · rw [reclaimRounds_of_stale_eq hstale]
      exact hstale
    · obtain ⟨hround, hlt⟩ := reclaimRounds_succ hstale rounds
      rw [hround]
      exact ih (by omega)

/-- After letting go, there is nothing to let go any more. -/
theorem Checker.settled_reclaim (s : Checker) : s.reclaim.Settled := by
  have hstale : s.reclaim.symbols.stale s.mentions = ([], []) :=
    SymbolTable.stale_reclaimRounds s.mentions s.symbols.live_le
  obtain ⟨hbodies, hclasses⟩ := Prod.mk.inj hstale
  refine ⟨fun i hi => ?_, fun i hi => ?_⟩
  · by_contra hnot
    have hmem := SymbolTable.mem_staleBodies.mpr ⟨hi, hnot⟩
    change i ∈ s.reclaim.symbols.staleBodies (s.mentions ++ s.reclaim.symbols.mentions) at hmem
    rw [hbodies] at hmem
    cases hmem
  · by_contra hnot
    have hmem := SymbolTable.mem_staleClasses.mpr ⟨hi, hnot⟩
    change i ∈ s.reclaim.symbols.staleClasses (s.mentions ++ s.reclaim.symbols.mentions) at hmem
    rw [hclasses] at hmem
    cases hmem

/-! ### States -/

namespace Checker

variable {s s₁ : Checker} {X Y : Nat ⊕ Nat → Prop} {kind : FrameKind}

/-- All that is alive is mentioned or has the property. -/
structure SettledUpTo (X : Nat ⊕ Nat → Prop) (s : Checker) : Prop where
  bodies : ∀ i ∈ s.symbols.liveBodies, s.allMentions.Has (.inl i) ∨ X (.inl i)
  classes : ∀ i ∈ s.symbols.liveClasses, s.allMentions.Has (.inr i) ∨ X (.inr i)

namespace SettledUpTo

/-- The same is alive, and what is not mentioned any more has the property. -/
theorem of_live (h : s.SettledUpTo X) (hbodies : s₁.symbols.bodies = s.symbols.bodies)
    (hclasses : s₁.symbols.classes = s.symbols.classes)
    (hmentions : ∀ x, s.allMentions.Has x ∨ X x → s₁.allMentions.Has x ∨ Y x) :
    s₁.SettledUpTo Y := by
  refine ⟨fun i hi => hmentions _ (h.bodies i ?_), fun i hi => hmentions _ (h.classes i ?_)⟩
  · unfold SymbolTable.liveBodies at hi ⊢
    rwa [hbodies] at hi
  · unfold SymbolTable.liveClasses at hi ⊢
    rwa [hclasses] at hi

/-- A scope is closed. What only it mentioned is an exception from now on. -/
theorem popped (h : s.SettledUpTo X) {frame : Frame} {rest : SymbolTable}
    (hpop : s.symbols.pop? = some (frame, rest)) (e : Event) :
    ({ s with symbols := rest }.logged e).SettledUpTo fun x => X x ∨ frame.mentions.Has x := by
  obtain ⟨rfl, houter, hclasses, hbodies⟩ := SymbolTable.pop?_rest hpop
  have hframes : s.symbols.frames = s.symbols.current :: rest.frames := by rw [houter]; rfl
  refine h.of_live hbodies hclasses fun x hx => ?_
  change (s.mentions ++ rest.mentions).Has x ∨ _
  unfold allMentions at hx
  rw [Mentions.has_append, SymbolTable.has_mentions] at hx ⊢
  rw [hbodies, hclasses]
  rw [hframes] at hx
  rcases hx with (hx | ⟨f, hf, hx⟩ | hx) | hx
  · exact .inl (.inl hx)
  · rcases List.mem_cons.mp hf with rfl | hf
    · exact .inr (.inr hx)
    · exact .inl (.inr (.inl ⟨f, hf, hx⟩))
  · exact .inl (.inr (.inr hx))
  · exact .inr (.inl hx)

end SettledUpTo

/-- If there is nothing to let go, there is no exception. -/
theorem Settled.upTo (h : s.Settled) : s.SettledUpTo fun _ => False :=
  ⟨fun i hi => .inl (h.bodies i hi), fun i hi => .inl (h.classes i hi)⟩

/-- There is nothing to let go, and the classes of the open scopes have been made. -/
structure Steady (s : Checker) : Prop where
  settled : s.Settled
  made : ∀ c, .classBody c ∈ s.symbols.frames.map Frame.kind → c.id < s.symbols.classes.size

namespace Steady

/-- In a state that has kept all of a steady one, the classes of the open scopes have been made as
well. -/
theorem of_retains (h : s.Steady) (hkept : s.Retains False [] [] s₁)
    (hs₁ : s₁.Settled) : s₁.Steady := by
  refine ⟨hs₁, fun c hc => ?_⟩
  rw [hkept.symbols.kinds] at hc
  exact (h.made c hc).trans_le hkept.symbols.size_le

/-- A scope is opened. -/
theorem opened (h : s.Steady) (hkind : ∀ c, kind = .classBody c → c.id < s.symbols.classes.size) :
    (s.opened kind).Steady := by
  refine ⟨h.settled.opened kind, fun c hc => ?_⟩
  rcases List.mem_cons.mp hc with hc | hc
  · exact hkind c hc.symm
  · exact h.made c hc

/-- A function is entered. -/
theorem enterFunction (h : s.Steady) (result : Ty) : (s.enterFunction result).Steady :=
  ⟨h.settled.enterFunction result, h.made⟩

end Steady

end Checker

/-! ### Steps that lose nothing -/

/-- The step keeps all of any earlier state in which there was nothing to let go. -/
def Check.Lasting {α : Type} (x : Check α) : Prop :=
  ∀ s₀ : Checker, s₀.Settled → x.Retentive s₀ False

namespace Check.Lasting

variable {α β : Type} {kind : FrameKind} {x : Check α} {s₀ s s' : Checker} {a : α}

/-- Wherever it is made, the step keeps all of the earlier state. -/
theorem retaining (hx : x.Lasting) (hs₀ : s₀.Settled) (inner : List FrameKind) (returns : List Ty) :
    x.Retaining s₀ False inner returns fun _ => True :=
  hx s₀ hs₀ inner returns False.elim

/-- The step keeps all of the state that it is made in. -/
theorem retains (hx : x.Lasting) (hs : s.Settled) (h : x s = .ok a s') : s.Retains False [] [] s' :=
  (hx.retaining hs [] [] s a s' (.refl s) h).1

/-- One step after another. -/
theorem bind {f : α → Check β} {R : α → Prop} (hx : x.Lasting) (hR : x.Yields R)
    (hf : ∀ a, R a → (f a).Lasting) : (x >>= f).Lasting :=
  fun s₀ hs₀ => (Retentive.rules s₀ False).seq (p := True) (P := fun _ => True)
    (Q := fun _ => True) hR (hx s₀ hs₀) fun a ha => hf a ha s₀ hs₀

/-- After a step in a scope that is closed for good, there is nothing to let go, whatever the step
has left behind. -/
theorem settled_closing (hx : x.Lasting) (hs : s.Settled)
    (h : (do let (a, frame) ← Check.bracket kind x
             Check.discard frame
             return a : Check α) s = .ok a s') : s'.Settled := by
  obtain ⟨r, s₁, hbracket, hrest⟩ := exists_of_bind h
  obtain ⟨-, -, frame, hr, -⟩ := (hx.retaining hs [kind] []).bracket s r s₁ (.refl s) hbracket
  obtain ⟨_, s₂, hdiscard, hret⟩ := exists_of_bind hrest
  rw [hr] at hdiscard
  cases hdiscard
  cases hret
  exact Checker.settled_reclaim _

end Check.Lasting

/-! ### Steps that lead to steady states -/

/-- The step keeps all of any earlier state in which there was nothing to let go. From a steady
state in which the assumption holds, it leads to one in which there is nothing to let go, with a
result that satisfies a condition there. -/
structure Check.Steadies {α : Type} (p : Checker → Prop) (x : Check α) (Q : α → Checker → Prop) :
    Prop where
  lasting : x.Lasting
  settled : ∀ s a s', s.Steady → p s → x s = .ok a s' → s'.Settled ∧ Q a s'

namespace Check.Steadies

variable {α β : Type} {p q : Checker → Prop} {x : Check α} {P Q : α → Checker → Prop}

/-- The state is steady again. -/
theorem steady (hx : Steadies p x Q) {s s' : Checker} {a : α} (hs : s.Steady) (hp : p s)
    (h : x s = .ok a s') : s'.Steady ∧ Q a s' :=
  (hx.settled s a s' hs hp h).imp_left (hs.of_retains (hx.lasting.retains hs.settled h))

/-- A step that only has a result. -/
theorem ret {a : α} (ha : ∀ s, p s → Q a s) : Steadies p (pure a) Q where
  lasting _ _ _ _ _ := .ret trivial
  settled s b s' hs hp h := by
    cases h
    exact ⟨hs.settled, ha s hp⟩

/-- A fault has no result. -/
theorem fault (e : Fault) : Steadies p (throw e) Q where
  lasting _ _ _ _ _ := .fault e _
  settled _ _ _ _ _ h := by cases h

/-- One step after another. -/
theorem bind {f : α → Check β} {R : α → Prop} {T : β → Checker → Prop} (hR : x.Yields R)
    (hx : Steadies p x P) (hf : ∀ a, R a → Steadies (P a) (f a) T) : Steadies p (x >>= f) T := by
  refine ⟨hx.lasting.bind hR fun a ha => (hf a ha).lasting, fun s b s' hs hp h => ?_⟩
  obtain ⟨a, s₁, hfirst, hsecond⟩ := exists_of_bind h
  obtain ⟨hs₁, ha⟩ := hx.steady hs hp hfirst
  exact (hf a (hR s a s₁ hfirst)).settled s₁ b s' hs₁ ha hsecond

/-- One step after another, whatever the first one yields. -/
theorem next {f : α → Check β} {T : β → Checker → Prop} (hx : Steadies p x P)
    (hf : ∀ a, Steadies (P a) (f a) T) : Steadies p (x >>= f) T :=
  hx.bind (R := fun _ => True) (fun _ _ _ _ => trivial) fun a _ => hf a

/-- More may be assumed, and less concluded. -/
theorem conseq (hx : Steadies p x P) (hp : ∀ s, q s → p s) (hQ : ∀ a s, P a s → Q a s) :
    Steadies q x Q :=
  ⟨hx.lasting, fun s a s' hs hq h => (hx.settled s a s' hs (hp s hq) h).imp_right (hQ a s')⟩

/-- A step that loses nothing, by which only what is mentioned comes to life. -/
theorem of_live (hx : x.Lasting)
    (hbodies : ∀ s a s', x s = .ok a s' → s'.symbols.liveBodies ⊆ s.symbols.liveBodies)
    (hclasses : ∀ s a s', x s = .ok a s' → ∀ i ∈ s'.symbols.liveClasses,
      i ∈ s.symbols.liveClasses ∨ s'.allMentions.Has (.inr i)) : Steadies p x fun _ _ => True where
  lasting := hx
  settled s a s' hs _ h := ⟨(hx.retains hs.settled h).settled hs.settled
    (fun _ hi => .inl (hbodies s a s' h hi)) (hclasses s a s' h), trivial⟩

/-- A step that leaves the table alone. -/
theorem aside (hx : x.Lasting) (hsymbols : ∀ s a s', x s = .ok a s' → s'.symbols = s.symbols) :
    Steadies p x fun _ _ => True :=
  of_live hx (fun s a s' h => by rw [hsymbols s a s' h]) fun s a s' h i hi =>
    .inl (hsymbols s a s' h ▸ hi)

/-- A step for each item of a list. -/
theorem forM {items : List α} {f : α → Check PUnit}
    (hf : ∀ a ∈ items, Steadies (fun _ => True) (f a) fun _ _ => True) :
    Steadies (fun _ => True) (items.forM f) fun _ _ => True := by
  induction items with
  | nil => exact ret fun _ _ => trivial
  | cons a rest ih =>
    refine (hf a List.mem_cons_self).next fun _ => ?_
    exact ih fun b hb => hf b (List.mem_cons_of_mem _ hb)

/-- Recording a problem. -/
theorem report (e : Problem) (position : Position) :
    Steadies p (Check.report e position) fun _ _ => True := by
  refine aside (fun _ _ _ _ _ => .report e position) fun s _ _ h => ?_
  cases h
  exact s.symbols_reported _

/-- Adding an event to the log. -/
theorem log (e : Event) : Steadies p (Check.log e) fun _ _ => True := by
  refine aside (fun _ _ _ _ _ => .log e) fun s _ _ h => ?_
  cases h
  rfl

/-- Recording the type of a use of a name. -/
theorem resolve (name : String) (position : Position) (ty : Ty) :
    Steadies p (Check.resolve name position ty) fun _ _ => True := by
  refine aside (fun _ _ _ _ _ => .resolve name position ty) fun s _ _ h => ?_
  cases h
  rfl

/-- Making a function. -/
theorem newFunction (result : Ty) (params : List Ty) (required : Nat) :
    Steadies p (Check.newFunction result params required) fun _ _ => True := by
  have hlasting : (Check.newFunction result params required).Lasting := fun _ _ _ _ _ s a s' hs h =>
    ⟨(Retaining.newFunction result params required s a s' hs h).1, trivial⟩
  refine of_live hlasting (fun s _ _ h i hi => ?_) fun s _ _ h i hi => .inl ?_ <;> cases h
  · rw [SymbolTable.mem_liveBodies] at hi ⊢
    have hjoin := SymbolTable.join_append_none s.symbols.bodies 1 i
    rw [Array.replicate_one, Array.append_singleton] at hjoin
    rwa [← hjoin]
  · exact hi

/-- Making a class. -/
theorem newClass (name : String) : Steadies p (Check.newClass name) fun _ _ => True := by
  have hlasting : (Check.newClass name).Lasting := fun _ _ _ _ hadmits s a s' hs h =>
    ⟨(Retaining.newClass hadmits name s a s' hs h).1, trivial⟩
  refine of_live hlasting (fun s _ _ h i hi => ?_) fun s _ _ h i hi => .inl ?_ <;> cases h
  · rw [SymbolTable.mem_liveBodies] at hi ⊢
    rwa [(SymbolTable.declareClass_rest ..).2.1] at hi
  · exact (s.symbols.moreClasses_newClass name _).liveClasses_eq ▸ hi

/-- Binding a name. The class of an open scope is mentioned, so it may get members. -/
theorem declare (name : String) (position : Position) (ty : Ty) :
    Steadies p (Check.declare name position ty) fun _ _ => True := by
  have hinsert : ∀ {t t' : SymbolTable}, t.insert name ty = .ok t' →
      t'.bodies = t.bodies ∧ ∀ i ∈ t'.liveClasses, i ∈ t.liveClasses ∨ t'.Mentioned (.inr i) := by
    intro t t' hinsert
    obtain ⟨c, b, hc, -, rfl⟩ | ⟨-, -, rfl⟩ := SymbolTable.insert_cases hinsert
    · refine ⟨rfl, fun i hi => (SymbolTable.liveClasses_modifyClass hi).imp_right ?_⟩
      rintro rfl
      exact SymbolTable.mentioned_of_cls? List.mem_cons_self hc
    · exact ⟨rfl, fun _ => .inl⟩
  refine of_live (fun _ _ _ _ hadmits => .declare hadmits name position ty)
    (fun s _ s' h i hi => ?_) fun s _ s' h i hi => ?_
  · rw [SymbolTable.mem_liveBodies] at hi ⊢
    rcases declare_ok h with ⟨t, ht, rfl⟩ | hsymbols
    · rwa [(hinsert ht).1] at hi
    · rwa [hsymbols] at hi
  · rcases declare_ok h with ⟨t, ht, rfl⟩ | hsymbols
    · exact ((hinsert ht).2 i hi).imp_right fun hx => hx.allMentions
    · exact .inl (hsymbols ▸ hi)

/-- A step in a scope that is closed for good afterwards. -/
theorem closing (kind : FrameKind) (hx : x.Lasting) :
    Steadies p (do
      let (a, frame) ← Check.bracket kind x
      Check.discard frame
      return a) fun _ _ => True where
  lasting _ hs₀ _ _ _ := .closing hs₀ (hx.retaining hs₀ _ _)
  settled _ _ _ hs _ h := ⟨hx.settled_closing hs.settled h, trivial⟩

end Check.Steadies

/-! ### The logic -/

/-- Every table is seen like itself. -/
theorem SymbolTable.seen_refl (t : SymbolTable) : t.Seen Renaming.id.view t where
  frames := List.forall₂_same.mpr fun _ _ => Frame.seen_of_kept fun x _ => by cases x <;> rfl
  classBody _ := ClassBody.seen_of_kept fun x _ => by cases x <;> rfl
  outside _ _ := not_false

/-- What two runs have in common is asked of one run here. -/
def Check.Steadies.pairs : PairRules where
  pair x _ R := x.Steadies (fun _ => True) (fun _ _ => True) ∧ x.Yields fun a => ∃ b, R a b
  ret h := ⟨.ret fun _ _ => trivial, .ret ⟨_, h⟩⟩
  seq := by
    rintro α β γ δ x y f g P Q ⟨hx, hyields⟩ hf
    refine ⟨hx.bind hyields ?_, hyields.bind ?_⟩
    · rintro a ⟨b, hab⟩
      exact (hf a b hab).1
    · rintro a ⟨b, hab⟩
      exact (hf a b hab).2
  fault e := ⟨.fault e, .fault e⟩

namespace Check.Steadies

variable {α β : Type} {R : α → β → Prop}

/-- A step that does in each state what a step does of which this is known. -/
theorem pair_of_each {x : Check α} {y : Check β}
    (h : ∀ s, ∃ (z : Check α) (w : Check β), pairs.pair z w R ∧ x s = z s) : pairs.pair x y R := by
  refine ⟨⟨fun s₀ hs₀ inner returns hadmits s a s' hs hrun => ?_, fun s a s' hs hp hrun => ?_⟩,
    fun s a s' hrun => ?_⟩
  all_goals
    obtain ⟨z, w, ⟨hz, hyields⟩, hxz⟩ := h s
    rw [hxz] at hrun
  · exact hz.lasting s₀ hs₀ inner returns hadmits s a s' hs hrun
  · exact hz.settled s a s' hs hp hrun
  · exact hyields s a s' hrun

/-- A step whose result does not matter. -/
theorem pair_of {x y : Check Unit} (hx : x.Steadies (fun _ => True) fun _ _ => True) :
    pairs.pair x y fun _ _ => True :=
  ⟨hx, fun _ _ _ _ => ⟨(), trivial⟩⟩

/-- A step inside of loops and switches. -/
theorem nested (loops switches : Nat) {x : Check Unit}
    (hx : x.Steadies (fun _ => True) fun _ _ => True) :
    (Check.nested loops switches x).Steadies (fun _ => True) fun _ _ => True := by
  refine ⟨fun s₀ hs₀ _ _ hadmits => .nested loops switches (hx.lasting s₀ hs₀ _ _ hadmits), ?_⟩
  intro s _ s' hs _ h
  obtain ⟨s₁, hrun, rfl⟩ := exists_of_nested h
  have hnested : (s.nested loops switches).Steady :=
    ⟨⟨hs.settled.bodies, hs.settled.classes⟩, hs.made⟩
  have hs₁ := (hx.settled _ () s₁ hnested trivial hrun).1
  exact ⟨⟨hs₁.bodies, hs₁.classes⟩, trivial⟩

/-- A block. -/
theorem block {x : Check Unit} (hx : x.Lasting) :
    (Check.inScope .block x).Steadies (fun _ => True) fun _ _ => True := by
  rw [inScope_eq]
  exact closing .block hx

end Check.Steadies

open Check.Steadies in
/-- The steps of a check lead to steady states. Classes and functions are left to be shown. -/
def steadyPairs : RunningPairs where
  toView := Renaming.id.view
  toPairRules := Check.Steadies.pairs
  report e position := pair_of (.report e position)
  newFunction result params required :=
    ⟨.newFunction result params required, fun _ _ _ _ => ⟨_, rfl⟩⟩
  symbols hk := pair_of_each fun s => ⟨_, _, hk s.symbols s.symbols s.symbols.seen_refl, rfl⟩
  log e _ := pair_of (.log e)
  resolve name position ty := pair_of (.resolve name position ty)
  newClass name := ⟨.newClass name, fun _ _ _ _ => ⟨_, rfl⟩⟩
  declare _ position ty := pair_of (.declare _ position ty)
  unveiled _ := not_false
  nests := {
    read := fun hk => pair_of_each fun s =>
      ⟨_, _, hk s s (.refl (fun ty => ty.rename_id.symm) s), rfl⟩
    block := fun hx => pair_of (.block hx.1.lasting)
    nested := fun loops switches _ _ hx => pair_of (.nested loops switches hx.1)
    missingBody := fun _ => pair_of
      ⟨fun _ _ _ _ _ _ _ _ _ h => (by cases h), fun _ _ _ _ _ h => by cases h⟩ }

end CWithClasses
