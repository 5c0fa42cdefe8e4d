import CWithClasses.Proofs.Members.Grounded
import CWithClasses.Proofs.Redefinition
import CWithClasses.Proofs.Upkeep.Tree

/-!
# Tables that are upheld

Most steps leave a table upheld because they add nothing to what is bound in the innermost scope and
in the classes: members and bodies may only go. The steps that do add something are asked for leave:
a name is bound to a permitted type, a function is made whose number is a given one, and a body
becomes that of a function that may be mentioned.

Of a scope that is opened it does not matter what the scopes around it bind, since they bind the
same when it is closed again. So a table may be upheld inside of a scope by rules that the scopes
around it break.
-/

namespace CWithClasses

open Check

variable {G : TypeGuard} {D : String → Prop}

/-! ### Tables in which nothing is added -/

namespace SymbolTable

/-- No function and no class is unmade. -/
structure KeepsMade (t t' : SymbolTable) : Prop where
  functions : t.bodies.size ≤ t'.bodies.size
  classes : t.classes.size ≤ t'.classes.size

/-- The innermost scope binds the same in the second table, and all that is mentioned was mentioned
before. Members and bodies may have gone, and new functions without bodies may have been made. -/
structure Sheds (t t' : SymbolTable) : Prop extends t.KeepsMade t' where
  bindings : t'.current.bindings = t.current.bindings
  members : ∀ c name m, t'.member? c name = some m → t.member? c name = some m
  bodies : ∀ i : Nat, t.bodies[i]?.join = none → t'.bodies[i]?.join = none
  mentioned : ∀ x, t'.Mentioned x → t.Mentioned x

variable {t t₁ t₂ : SymbolTable} {x : Nat ⊕ Nat}

/-- Nothing changes. -/
theorem KeepsMade.refl (t : SymbolTable) : t.KeepsMade t := ⟨Nat.le_refl _, Nat.le_refl _⟩

/-- One change after another. -/
theorem KeepsMade.trans (h : t.KeepsMade t₁) (h' : t₁.KeepsMade t₂) : t.KeepsMade t₂ :=
  ⟨h.functions.trans h'.functions, h.classes.trans h'.classes⟩

/-- What has been made stays so. -/
theorem KeepsMade.made (h : t.KeepsMade t₁) (hx : t.Made x) : t₁.Made x :=
  hx.mono h.functions h.classes

/-- A table in which nothing is added is upheld like before. -/
theorem Upheld.sheds (h : t.Upheld G D) (hsheds : t.Sheds t₁) : t₁.Upheld G D where
  bindings name ty hname := h.bindings name ty (hsheds.bindings ▸ hname)
  members c name access ty hmember := h.members c name access ty (hsheds.members c name _ hmember)
  bodies i hi := hsheds.bodies i (h.bodies i hi)

namespace Sheds

/-- Nothing changes. -/
theorem refl (t : SymbolTable) : t.Sheds t where
  toKeepsMade := .refl t
  bindings := rfl
  members _ _ _ hm := hm
  bodies _ hi := hi
  mentioned _ hx := hx

/-- One change after another. -/
theorem trans (h : t.Sheds t₁) (h' : t₁.Sheds t₂) : t.Sheds t₂ where
  toKeepsMade := h.toKeepsMade.trans h'.toKeepsMade
  bindings := h'.bindings.trans h.bindings
  members c name m hm := h.members c name m (h'.members c name m hm)
  bodies i hi := h'.bodies i (h.bodies i hi)
  mentioned x hx := h.mentioned x (h'.mentioned x hx)

/-- Another access region. -/
theorem setAccess (t : SymbolTable) (access : Access) : t.Sheds (t.setAccess access) :=
  { refl t with
    mentioned := fun x hx => hx.imp_left fun ⟨f, hf, hx⟩ => by
      rcases List.mem_cons.mp hf with rfl | hf
      · exact ⟨t.current, List.mem_cons_self, hx⟩
      · exact ⟨f, List.mem_cons_of_mem _ hf, hx⟩ }

/-- A class may lose members. -/
theorem modifyClass (t : SymbolTable) (c : ClassRef) {f : ClassBody → ClassBody}
    (hf : ∀ b name m, (f b).member? name = some m → b.member? name = some m)
    (hmentions : ∀ b x, (f b).mentions.Has x → b.mentions.Has x) : t.Sheds (t.modifyClass c f) where
  functions := Nat.le_refl _
  classes := Array.size_modify.ge
  bindings := rfl
  members d name m hm := by
    unfold member? at hm ⊢
    rcases classBody_modifyClass_cases t c f d with hsame | ⟨hclass, hchanged⟩
    · exact hsame ▸ hm
    · rw [hchanged] at hm
      exact hclass ▸ hf _ name m hm
  bodies _ hi := hi
  mentioned x hx := by
    rcases mentioned_modifyClass hx with hx | hx
    · exact hx
    · exact .inr (exists_of_classBody (hmentions _ x hx))

/-- A class loses its members. -/
theorem clear (t : SymbolTable) (c : ClassRef) : t.Sheds (t.clear c) :=
  modifyClass t c (fun _ _ _ hm => by cases hm)
    fun _ x hx => absurd hx (ClassBody.not_has_of_isEmpty rfl x)

/-- A frame goes, and with it the members of its classes. -/
theorem discard (t : SymbolTable) (f : Frame) : t.Sheds (t.discard f) :=
  List.foldlRecOn (motive := fun t' : SymbolTable => t.Sheds t') f.classes
    SymbolTable.clear (.refl t) fun t' h c _ => h.trans (clear t' c)

/-- A function loses its body. -/
theorem dropBody (t : SymbolTable) (id : Nat) : t.Sheds (t.dropBody id) := by
  unfold SymbolTable.dropBody
  split
  next frame hbody =>
    let bare : SymbolTable := { t with bodies := t.bodies.modify id fun _ => none }
    have hbare : t.Sheds bare :=
      { refl t with
        functions := Nat.le_of_eq Array.size_modify.symm
        bodies := fun i hi => by
          change (t.bodies.modify id fun _ => none)[i]?.join = none
          rw [Array.getElem?_modify]
          split
          · cases t.bodies[i]? <;> rfl
          · exact hi }
    exact hbare.trans (discard bare frame)
  next => exact refl t

/-- All goes that is not mentioned. -/
theorem reclaim (t : SymbolTable) (held : Mentions) : t.Sheds (t.reclaim held) :=
  reclaim_induction held (.refl t) (fun t' id _ h => h.trans (dropBody t' id))
    fun t' id h => h.trans (clear t' ⟨id, ""⟩)

/-- A function is made, which has no body. -/
theorem withFunctions (s : Checker) (count : Nat) :
    s.symbols.Sheds (s.withFunctions count).symbols :=
  { refl s.symbols with
    functions := by
      unfold Checker.withFunctions
      rw [Array.size_append]
      exact Nat.le_add_right _ _
    bodies := fun i hi => (join_append_none s.symbols.bodies count i).trans hi }

end Sheds

end SymbolTable

/-! ### Tables in which something is added -/

/-- A member of a class is one that it had before, or the one that was added. -/
theorem ClassBody.member?_of_add {b b' : ClassBody} {name other : String} {ty : Ty}
    {access : Access}
    {m : Access × Ty} (h : b.add name ty access = .ok b') (hm : b'.member? other = some m) :
    b.member? other = some m ∨ other = name ∧ m.2 = ty := by
  unfold add at h
  split at h
  · cases h
  next hnone =>
    by_cases hname : other = name
    · subst hname
      refine .inr ⟨rfl, ?_⟩
      cases access with
      | pub =>
        cases h
        simp only [member?, List.lookup_cons_self, Option.some.injEq] at hm
        rw [← hm]
      | priv =>
        cases h
        unfold member? at hnone hm
        split at hnone
        · cases hnone
        next hpublic =>
          simp only [hpublic, List.lookup_cons_self, Option.map_some, Option.some.injEq] at hm
          rw [← hm]
    · have hlookup : ∀ bindings : Bindings,
          List.lookup other ((name, ty) :: bindings) = bindings.lookup other := by
        intro bindings
        rw [List.lookup_cons, beq_eq_false_iff_ne.mpr hname]
      unfold member? at hm ⊢
      cases access <;> cases h <;> exact .inl (by simpa only [hlookup] using hm)

namespace SymbolTable

variable {t t' : SymbolTable}

/-- No function and no class is unmade when a class is made. -/
theorem keepsMade_newClass (t : SymbolTable) (name : String) (c : ClassRef) :
    t.KeepsMade ((t.newClass name).2.declareClass c) :=
  ⟨Nat.le_of_eq (congrArg _ (declareClass_rest (t.newClass name).2 c).2.1.symm),
    (t.moreClasses_newClass name c).size_le⟩

/-- A function that gets a body leaves the bodies of all others alone. -/
theorem bodies_define {f : FunctionTy} {frame : Frame} (h : t.define? f frame = some t') {i : Nat}
    (hi : i ≠ f.id) : t'.bodies[i]?.join = t.bodies[i]?.join :=
  (body?_define (g := { f with id := i }) h).trans (if_neg hi)

namespace Upheld

/-- The same members and bodies. -/
theorem of_eq (h : t.Upheld G D) (hbindings : ∀ name ty, t'.current.bindings.lookup name = some ty →
      ty.Permitted G D name) (hclasses : ∀ c, t'.classBody c = t.classBody c)
    (hbodies : t'.bodies = t.bodies) : t'.Upheld G D where
  bindings := hbindings
  members c name access ty hmember := by
    unfold member? at hmember
    rw [hclasses] at hmember
    exact h.members c name access ty hmember
  bodies i hi := hbodies ▸ h.bodies i hi

/-- A new scope is empty. -/
theorem push (h : t.Upheld G D) (kind : FrameKind) : (t.push kind).Upheld G D where
  bindings _ _ hname := by cases hname
  members := h.members
  bodies := h.bodies

/-- A class is made that belongs to some scope. -/
theorem newClass (h : t.Upheld G D) (name : String) (c : ClassRef) :
    ((t.newClass name).2.declareClass c).Upheld G D := by
  obtain ⟨-, hbodies, hbindings, -⟩ := declareClass_rest (t.newClass name).2 c
  exact h.of_eq (hbindings ▸ h.bindings) (t.moreClasses_newClass name c).classBody_eq hbodies

/-- A class may get a member that is permitted. -/
theorem addMember (h : t.Upheld G D) {c : ClassRef} {name : String} {ty : Ty} {access : Access}
    {b : ClassBody} (hty : ty.Permitted G D name)
    (hb : (t.classBody c).add name ty access = .ok b) :
    (t.modifyClass c fun _ => b).Upheld G D := by
  refine ⟨h.bindings, fun d other access' ty' hmember => ?_, h.bodies⟩
  unfold member? at hmember
  rcases classBody_modifyClass_cases t c (fun _ => b) d with hsame | ⟨-, hchanged⟩
  · rw [hsame] at hmember
    exact h.members d other access' ty' hmember
  · rw [hchanged] at hmember
    rcases ClassBody.member?_of_add hb hmember with hold | ⟨rfl, rfl⟩
    · exact h.members c other access' ty' hold
    · exact hty

/-- A name may be bound to a permitted type. -/
theorem insert (h : t.Upheld G D) {name : String} {ty : Ty} (hty : ty.Permitted G D name)
    (hinsert : t.insert name ty = .ok t') : t'.Upheld G D := by
  rcases insert_cases hinsert with ⟨c, b, -, hb, rfl⟩ | ⟨-, -, rfl⟩
  · exact h.addMember hty hb
  · refine ⟨fun other ty' hother => ?_, h.members, h.bodies⟩
    by_cases hname : other = name
    · subst hname
      rw [List.lookup_cons_self] at hother
      exact Option.some.inj hother ▸ hty
    · rw [List.lookup_cons, beq_eq_false_iff_ne.mpr hname] at hother
      exact h.bindings other ty' hother

/-- A function that may be mentioned may get a body. -/
theorem define (h : t.Upheld G D) {f : FunctionTy} {frame : Frame} (hf : G.functions f.id)
    (hdefine : t.define? f frame = some t') : t'.Upheld G D := by
  obtain ⟨-, hframes, hclasses, -⟩ := define?_rest hdefine
  have hcurrent : t'.current = t.current := (List.cons.inj hframes).1
  refine ⟨hcurrent ▸ h.bindings, fun c name access ty hmember => ?_, fun i hi => ?_⟩
  · refine h.members c name access ty ?_
    unfold member? classBody at hmember ⊢
    rwa [hclasses] at hmember
  · exact (bodies_define hdefine (i := i) fun heq => hi (heq ▸ hf)).trans (h.bodies i hi)

/-- A scope is closed. The scope around it binds what it bound before. -/
theorem pop (h : t.Upheld G D) {u : SymbolTable} (hu : u.Upheld G D) {frame : Frame}
    (hpop : u.pop? = some (frame, t')) (hbindings : t'.current.bindings = t.current.bindings) :
    t'.Upheld G D := by
  obtain ⟨-, -, hclasses, hbodies⟩ := pop?_rest hpop
  refine hu.of_eq (hbindings ▸ h.bindings) (fun c => ?_) hbodies
  unfold classBody
  rw [hclasses]

end Upheld

end SymbolTable

/-! ### Steps that maintain a table -/

/-- A report leaves the table alone. -/
theorem Checker.symbols_reported (s : Checker) (d : Diagnostic) :
    (s.reported d).symbols = s.symbols := by
  rw [← s.withReportsOf_reported]
  rfl

/-- A name is bound, or it is reported why not. -/
theorem Check.declare_ok {name : String} {position : Position} {ty : Ty} {s s' : Checker}
    (h : Check.declare name position ty s = .ok () s') :
    (∃ t, s.symbols.insert name ty = .ok t ∧ s' = { s with symbols := t }) ∨
      s'.symbols = s.symbols := by
  unfold Check.declare at h
  rw [bind_symbols] at h
  cases hinsert : s.symbols.insert name ty with
  | ok t =>
    rw [hinsert] at h
    cases h
    exact .inl ⟨t, rfl, rfl⟩
  | error e =>
    rw [hinsert] at h
    cases h
    exact .inr (s.symbols_reported _)

/-- Letting go of a frame adds nothing. -/
theorem Checker.sheds_discard (s : Checker) (f : Frame) : s.symbols.Sheds (s.discard f).symbols :=
  (SymbolTable.Sheds.discard s.symbols f).trans (.reclaim _ _)

/-- A scope goes, if there is one. -/
theorem Check.sheds_discard {scope : Option Frame} {s s' : Checker}
    (h : Check.discard scope s = .ok () s') : s.symbols.Sheds s'.symbols := by
  cases scope <;> cases h
  · exact .refl _
  · exact s.sheds_discard _

/-- A scope that is not attached goes. -/
theorem FunctionBody.attachScope_refused {b : FunctionBody} {f : FunctionTy} {scope : Option Frame}
    {s s' : Checker} (h : b.attachScope f scope s = .ok () s') (hattach : b.attach = false) :
    s.symbols.Sheds s'.symbols := by
  rcases attachScope_cases h with ⟨hyes, -⟩ | ⟨s₁, hdiscard, hs'⟩
  · rw [hattach] at hyes
    cases hyes
  · have hsheds := Check.sheds_discard hdiscard
    rwa [hs']

/-- A function gets the scope of its body, or nothing is added. -/
theorem FunctionBody.attachScope_ok {b : FunctionBody} {f : FunctionTy} {scope : Option Frame}
    {s s' : Checker} (h : b.attachScope f scope s = .ok () s') :
    (∃ frame, s.symbols.define? f frame = some s'.symbols) ∨ s.symbols.Sheds s'.symbols := by
  rcases attachScope_cases h with ⟨-, frame, t, -, hdefine, rfl⟩ | ⟨s₁, hdiscard, hs'⟩
  · exact .inl ⟨frame, hdefine⟩
  · have hsheds := Check.sheds_discard hdiscard
    rw [hs']
    exact .inr hsheds

/-- A step in a scope of its own. The scope is closed again and handed over, and the scope around it
binds what it bound. -/
theorem Check.Keeps.inside_bracket {α : Type} {kind : FrameKind} {x : Check α} {s s' : Checker}
    {r : α × Option Frame} (hx : x.Keeps) (h : Check.bracket kind x s = .ok r s') :
    ∃ a s₁, x (s.opened kind) = .ok a s₁ ∧ r.2 = some s₁.symbols.current ∧
      s₁.symbols.pop? = some (s₁.symbols.current, s'.symbols) ∧
      s'.symbols.current.bindings = s.symbols.current.bindings := by
  have hinside := hx (s.opened kind)
  cases hrun : x (s.opened kind) with
  | error e s₁ =>
    rw [bracket_error hrun] at h
    cases h
  | ok a s₁ =>
    rw [hrun] at hinside
    obtain ⟨frame, rest, hpop, hbound, -⟩ := hinside.closed
    rw [bracket_ok hrun hpop] at h
    cases h
    obtain rfl := (SymbolTable.pop?_rest hpop).1
    rw [SymbolTable.bound_eq, SymbolTable.bound_eq] at hbound
    exact ⟨a, s₁, rfl, rfl, hpop, (Prod.mk.inj (List.cons.inj hbound).1).2⟩

/-- The functions that have been made from one state to the other are given ones. -/
def Checker.Makes (F : Nat → Prop) (s s' : Checker) : Prop :=
  ∀ i, s.symbols.bodies.size ≤ i → i < s'.symbols.bodies.size → F i

/-- The functions and classes that have been made may be mentioned. -/
structure Checker.MakesOnly (G : TypeGuard) (s s' : Checker) : Prop where
  functions : s.Makes G.functions s'
  classes : ∀ c : ClassRef, s.symbols.classes.size ≤ c.id → c.id < s'.symbols.classes.size →
    G.classes c

/-- A property of tables that steps maintain if they bind nothing but what is permitted. -/
structure TableLaw where
  guard : TypeGuard
  names : String → Prop
  holds : SymbolTable → Prop
  upheld : ∀ {t : SymbolTable}, holds t → t.Upheld guard names
  offers : ∀ {t : SymbolTable}, holds t → t.Offers guard
  sheds : ∀ {t t' : SymbolTable}, holds t → t.Sheds t' → holds t'
  push : ∀ {t : SymbolTable} {kind : FrameKind}, holds t →
    (∀ c, kind = .classBody c → guard.classes c) → holds (t.push kind)
  /-- The scope around the one that is closed binds what it bound before. -/
  pop : ∀ {t u t' : SymbolTable} {frame : Frame}, holds t → holds u → u.pop? = some (frame, t') →
    t'.current.bindings = t.current.bindings → holds t'
  newClass : ∀ {t : SymbolTable} (name : String), holds t → guard.classes (t.newClass name).1 →
    holds ((t.newClass name).2.declareClass (t.newClass name).1)
  insert : ∀ {t t' : SymbolTable} {name : String} {ty : Ty}, holds t →
    ty.Permitted guard names name → t.insert name ty = .ok t' → holds t'
  define : ∀ {t t' : SymbolTable} {f : FunctionTy} {frame : Frame}, holds t →
    guard.functions f.id → t.define? f frame = some t' → holds t'

/-- Tables that are upheld, if all classes may be named. -/
def TableLaw.guarded {G : TypeGuard} (hG : G.Open) (D : String → Prop) : TableLaw where
  guard := G
  names := D
  holds := SymbolTable.Upheld G D
  upheld h := h
  offers _ := hG.offers _
  sheds := .sheds
  push h _ := h.push _
  pop h hu := h.pop hu
  newClass name h _ := h.newClass name _
  insert h := h.insert
  define h := h.define

variable {I : TableLaw}

/-- The step keeps what the state has and unmakes nothing. If it makes only what may be mentioned,
then it maintains the law. -/
structure Check.Maintains (I : TableLaw) {α : Type} (p : Prop) (x : Check α)
    (Q : α → Prop) : Prop where
  keeps : x.Keeps
  made : ∀ s a s', x s = .ok a s' → s.symbols.KeepsMade s'.symbols
  holds : p → ∀ s a s', I.holds s.symbols → x s = .ok a s' → s.MakesOnly I.guard s' →
    I.holds s'.symbols ∧ Q a

namespace Check.Maintains

variable {α β : Type} {p q : Prop}

/-- A step that only has a result. -/
theorem ret {Q : α → Prop} (a : α) (ha : p → Q a) : Maintains I p (pure a) Q where
  keeps := .ret a
  made _ _ _ h := by
    cases h
    exact .refl _
  holds hp _ _ _ hs h _ := by
    cases h
    exact ⟨hs, ha hp⟩

/-- One step after another. -/
theorem seq {x : Check α} {f : α → Check β} {R P : α → Prop} {Q : β → Prop} (hR : x.Yields R)
    (hx : Maintains I p x P) (hf : ∀ a, R a → Maintains I (p ∧ P a) (f a) Q) :
    Maintains I p (x >>= f) Q := by
  refine ⟨hx.keeps.seq hR fun a ha =>
    (hf a ha).keeps, fun s b s' h => ?_, fun hp s b s' hs h hmakes => ?_⟩
  · obtain ⟨a, s₁, hfirst, hsecond⟩ := exists_of_bind h
    exact (hx.made s a s₁ hfirst).trans ((hf a (hR s a s₁ hfirst)).made s₁ b s' hsecond)
  · obtain ⟨a, s₁, hfirst, hsecond⟩ := exists_of_bind h
    have hrest := hf a (hR s a s₁ hfirst)
    have hle := hx.made s a s₁ hfirst
    have hle' := hrest.made s₁ b s' hsecond
    have hmakes₁ : s.MakesOnly I.guard s₁ :=
      ⟨fun i hi hlt => hmakes.functions i hi (hlt.trans_le hle'.functions),
        fun c hc hlt => hmakes.classes c hc (hlt.trans_le hle'.classes)⟩
    obtain ⟨hs₁, ha⟩ := hx.holds hp s a s₁ hs hfirst hmakes₁
    exact hrest.holds ⟨hp, ha⟩ s₁ b s' hs₁ hsecond
      ⟨fun i hi hlt => hmakes.functions i (hle.functions.trans hi) hlt,
        fun c hc hlt => hmakes.classes c (hle.classes.trans hc) hlt⟩

/-- More may be assumed, and less concluded. -/
theorem conseq {x : Check α} {P Q : α → Prop} (hx : Maintains I p x P) (hq : q → p)
    (hQ : ∀ a, q → P a → Q a) : Maintains I q x Q where
  keeps := hx.keeps
  made := hx.made
  holds hp s a s' hs h hmakes := (hx.holds (hq hp) s a s' hs h hmakes).imp_right (hQ a hp)

/-- A fault. -/
theorem fault {Q : α → Prop} (e : Fault) : Maintains I p (throw e) Q where
  keeps := fun s => ⟨[], .refl s⟩
  made _ _ _ h := by cases h
  holds _ _ _ _ _ h := by cases h

/-- Reading the table. -/
theorem symbols : Maintains I p Check.symbols I.holds where
  keeps := fun s => .refl s
  made _ _ _ h := by
    cases h
    exact .refl _
  holds _ _ _ _ hs h _ := by
    cases h
    exact ⟨hs, hs⟩

/-- Reading the state. -/
theorem read {k : Checker → Check α} {Q : α → Prop} (hk : ∀ s, Maintains I p (k s) Q) :
    Maintains I p (get >>= k) Q where
  keeps := fun s => (hk s).keeps s
  made s := (hk s).made s
  holds hp s := (hk s).holds hp s

/-- A change of the state that adds nothing to the table. -/
theorem change {f : Checker → Checker} (hkeeps : ∀ s : Checker, s.Keeps [] (f s))
    (hsheds : ∀ s : Checker, s.symbols.Sheds (f s).symbols) :
    Maintains I p (modify f) fun _ => True where
  keeps := .change hkeeps
  made s _ _ h := by
    cases h
    exact (hsheds s).toKeepsMade
  holds _ s _ _ hs h _ := by
    cases h
    exact ⟨I.sheds hs (hsheds s), trivial⟩

/-- A report. -/
theorem report (e : Problem) (position : Position) :
    Maintains I p (Check.report e position) fun _ => True := by
  refine change (fun s => .reported s _) fun s => ?_
  rw [s.symbols_reported]
  exact .refl _

/-- Making a class that may be named. -/
theorem newClass (name : String) :
    Maintains I p (Check.newClass name) fun c => c.name = name ∧ I.guard.classes c where
  keeps := .newClass name
  made s _ _ h := by
    cases h
    exact s.symbols.keepsMade_newClass name _
  holds _ s _ _ hs h hmakes := by
    cases h
    have hnew : I.guard.classes (s.symbols.newClass name).1 := by
      refine hmakes.classes _ (Nat.le_refl _) ?_
      change _ < (SymbolTable.declareClass _ _).classes.size
      rw [(SymbolTable.declareClass_rest ..).1]
      exact Nat.lt_of_lt_of_eq (Nat.lt_succ_self _) (Array.size_push _).symm
    exact ⟨I.newClass name hs hnew, rfl, hnew⟩

/-- Making a function whose number is a given one. -/
theorem newFunction {result : Ty} {params : List Ty} (required : Nat)
    (h : p → I.guard.types result ∧ ∀ t ∈ params, I.guard.types t) :
    Maintains I p (Check.newFunction result params required) I.guard.types where
  keeps := .newFunction result params required
  made s _ _ hrun := by
    rw [Check.newFunction_eq] at hrun
    cases hrun
    exact (SymbolTable.Sheds.withFunctions s 1).toKeepsMade
  holds hp s _ _ hs hrun hmakes := by
    rw [Check.newFunction_eq] at hrun
    cases hrun
    have hlt : s.symbols.bodies.size < (s.withFunctions 1).symbols.bodies.size := by
      simp [Checker.withFunctions]
    refine ⟨I.sheds hs (.withFunctions s 1), I.guard.function ?_ (h hp).1 (h hp).2⟩
    exact hmakes.functions _ (Nat.le_refl _) hlt

/-- Binding a name to a permitted type. -/
theorem declare (name : String) (position : Position) {ty : Ty}
    (hty : p → ty.Permitted I.guard I.names name) :
    Maintains I p (Check.declare name position ty) fun _ => True := by
  refine ⟨.declare name position ty, fun s _ s' h => ?_, fun hp s _ s' hs h _ => ?_⟩
  · rcases declare_ok h with ⟨t, hinsert, rfl⟩ | hsymbols
    · obtain ⟨hbodies, hclasses⟩ := SymbolTable.insert_made hinsert
      exact ⟨Nat.le_of_eq (congrArg _ hbodies.symm), hclasses.ge⟩
    · exact hsymbols ▸ .refl _
  · rcases declare_ok h with ⟨t, hinsert, rfl⟩ | hsymbols
    · exact ⟨I.insert hs (hty hp) hinsert, trivial⟩
    · exact ⟨hsymbols ▸ hs, trivial⟩

/-- Letting go of a frame. -/
theorem discard (frame : Option Frame) : Maintains I p (Check.discard frame) fun _ => True := by
  cases frame with
  | none => exact ret () fun _ => trivial
  | some f => exact change (fun s => .discard s f) fun s => s.sheds_discard f

/-- Giving a function that may be mentioned the scope of its body. -/
theorem attachScope {b : FunctionBody} {f : FunctionTy} (scope : Option Frame)
    (hf : p → I.guard.functions f.id) : Maintains I p (b.attachScope f scope) fun _ => True := by
  refine ⟨.attachScope b f scope, fun s _ s' h => ?_, fun hp s _ s' hs h _ => ?_⟩
  · rcases b.attachScope_ok h with ⟨frame, hdefine⟩ | hsheds
    · obtain ⟨-, -, hclasses, hsize⟩ := SymbolTable.define?_rest hdefine
      exact ⟨hsize, Nat.le_of_eq (congrArg _ hclasses.symm)⟩
    · exact hsheds.toKeepsMade
  · rcases b.attachScope_ok h with ⟨frame, hdefine⟩ | hsheds
    · exact ⟨I.define hs (hf hp) hdefine, trivial⟩
    · exact ⟨I.sheds hs hsheds, trivial⟩

/-- A step in a scope of its own. -/
theorem bracket {kind : FrameKind} {x : Check α}
    (hkind : p → ∀ c, kind = .classBody c → I.guard.classes c)
    (hx : Maintains I p x fun _ => True) :
    Maintains I p (Check.bracket kind x) fun _ => True := by
  refine ⟨.bracket kind hx.keeps, fun s r s' h => ?_, fun hp s r s' hs h hmakes => ?_⟩
  · obtain ⟨a, s₁, hrun, -, hpop, -⟩ := hx.keeps.inside_bracket h
    obtain ⟨-, -, hclasses, hbodies⟩ := SymbolTable.pop?_rest hpop
    obtain ⟨hfunctions, hmade⟩ := hx.made (s.opened kind) a s₁ hrun
    exact ⟨hbodies ▸ hfunctions, hclasses ▸ hmade⟩
  · obtain ⟨a, s₁, hrun, -, hpop, hbindings⟩ := hx.keeps.inside_bracket h
    obtain ⟨-, -, hclasses, hbodies⟩ := SymbolTable.pop?_rest hpop
    have hmakes₁ : (s.opened kind).MakesOnly I.guard s₁ :=
      ⟨fun i hi hlt => hmakes.functions i hi (hbodies ▸ hlt),
        fun c hc hlt => hmakes.classes c hc (hclasses ▸ hlt)⟩
    obtain ⟨hs₁, -⟩ := hx.holds hp _ a s₁ (I.push hs (hkind hp)) hrun hmakes₁
    exact ⟨I.pop hs hs₁ hpop hbindings, trivial⟩

/-- A step inside of loops and switches. -/
theorem nested (loops switches : Nat) {x : Check Unit} (hx : Maintains I p x fun _ => True) :
    Maintains I p (Check.nested loops switches x) fun _ => True := by
  refine ⟨.nested loops switches hx.keeps, fun s a s' h => ?_, fun hp s a s' hs h hmakes => ?_⟩
  · obtain ⟨s₁, hrun, rfl⟩ := exists_of_nested h
    exact hx.made (s.nested loops switches) a s₁ hrun
  · obtain ⟨s₁, hrun, rfl⟩ := exists_of_nested h
    exact hx.holds hp (s.nested loops switches) a s₁ hs hrun ⟨hmakes.functions, hmakes.classes⟩

/-- A step inside of a function. -/
theorem inFunction (result : Ty) {x : Check Unit} (hx : Maintains I p x fun _ => True) :
    Maintains I p (Check.inFunction result x) fun _ => True := by
  have henter : Maintains I p (modify (·.enterFunction result)) fun _ => True :=
    change (fun _ => .of_eq rfl rfl rfl rfl) fun s => .refl s.symbols
  have hleave : Maintains I p (modify (·.leaveFunction)) fun _ => True :=
    change (fun _ => .of_eq rfl rfl rfl rfl) fun s => .refl s.symbols
  have hany : ∀ y : Check Unit, y.Yields fun _ => True := fun _ _ _ _ _ => trivial
  refine henter.seq (hany _) fun _ _ => conseq ?_ And.left fun _ _ h => h
  exact hx.seq (hany _) fun _ _ => hleave.conseq And.left fun _ _ h => h

end Check.Maintains

/-- The logic of steps that maintain a law. -/
def TableLaw.logic (I : TableLaw) : DeclaringLogic where
  triple := Check.Maintains I
  ret := .ret
  seq := .seq
  conseq := .conseq
  guard := I.guard
  names := I.names
  fault := .fault
  symbols := .conseq .symbols id fun _ _ => I.offers
  log _ := .change (fun _ => .of_eq rfl rfl rfl rfl) fun s => .refl s.symbols
  report position _ := .report _ position
  resolve _ _ _ := .change (fun _ => ⟨.refl _, List.prefix_rfl, List.prefix_append _ _, rfl⟩)
    fun s => .refl s.symbols
  newFunction := .newFunction
  table := .conseq .symbols id fun _ _ => I.upheld
  read := .read
  redeclared _ position := .report _ position
  newClass := .newClass
  declare := .declare
  markComplete c := .change (fun _ => .of_symbols (.of_eq rfl rfl)) fun s =>
    .modifyClass s.symbols c (fun _ _ _ h => h) fun _ _ h => h
  setAccess access :=
    .change (fun _ => .of_symbols (.of_eq rfl rfl)) fun s => .setAccess s.symbols access
  discard := .discard
  attachScope := .attachScope
  bracket := .bracket
  inFunction := .inFunction
  nested := .nested
  missingBody c := ⟨.missingBody c, fun _ _ _ h => (by cases h), fun _ _ _ _ _ h => by cases h⟩

/-- The logic of steps that keep tables upheld, if all classes may be named. -/
abbrev guardedLogic {G : TypeGuard} (hG : G.Open) (D : String → Prop) : DeclaringLogic :=
  (TableLaw.guarded hG D).logic

/-- The logic of steps that maintain a table in which only given functions are mentioned. -/
abbrev upkeepLogic (F : Nat → Prop) (D : String → Prop) : DeclaringLogic := guardedLogic (.deep F) D

end CWithClasses
