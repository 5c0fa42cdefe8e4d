import CWithClasses.Proofs.Operations
import Mathlib.Data.List.Induction

/-!
# Scopes and the classes they own

A class belongs to the innermost scope that is no class body at the time when it is declared. That
may be a scope several levels out, and a class that is declared again may belong to more than one.
When a scope is gone for good, the classes that belong to it lose their members, and nothing else is
lost.

Which scope a class belongs to is told by the operations alone. `openings` follows them and keeps,
for each open scope, when it was opened and by what; it knows nothing of frames. A scope is told
from all others by the time at which it was opened.
-/

namespace CWithClasses

/-! ### Scopes in a history of operations -/

/-- A scope in a history: when it was opened, and what opened it. The scope at the bottom was there
before the first operation, at time `0`. -/
structure Opening where
  time : Nat
  kind : FrameKind

namespace Opening

/-- Whether classes may belong to the scope: it is no class body. -/
def isHost (o : Opening) : Bool :=
  match o.kind with
  | .classBody _ => false
  | _ => true

/-- The open scopes after an operation at the given time. The last scope stays. -/
def after (scopes : List Opening) (time : Nat) : Operation → List Opening
  | .push kind => ⟨time, kind⟩ :: scopes
  | .pop _ => if scopes.length ≤ 1 then scopes else scopes.tail
  | _ => scopes

end Opening

/-- The scopes that are open after some operations, the innermost one first. -/
def openings (ops : List Operation) : List Opening :=
  (ops.zipIdx 1).foldl (fun scopes entry => Opening.after scopes entry.2 entry.1) [⟨0, .global⟩]

/-- The class was declared, once or more often, while the scope was the innermost one that is no
class body. -/
def DeclaredIn (ops : List Operation) (scope : Opening) (c : ClassRef) : Prop :=
  ∃ before d after, ops = before ++ .declareClass d :: after ∧ d.id = c.id ∧
    (openings before).find? Opening.isHost = some scope

section History

variable {ops : List Operation} {op : Operation} {scope : Opening} {c : ClassRef}

/-- One more operation. -/
theorem openings_append (ops : List Operation) (op : Operation) :
    openings (ops ++ [op]) = Opening.after (openings ops) (ops.length + 1) op := by
  unfold openings
  rw [List.zipIdx_append, List.foldl_append, Nat.add_comm 1]
  rfl

/-- Scopes that are further in were opened later, and all of them by now. -/
theorem openings_ordered (ops : List Operation) :
    (openings ops).Pairwise (fun a b => b.time < a.time) ∧
      ∀ o ∈ openings ops, o.time ≤ ops.length := by
  induction ops using List.reverseRecOn with
  | nil => exact ⟨List.pairwise_singleton _ _, by simp [openings]⟩
  | append_singleton ops op ih =>
    obtain ⟨hpairwise, htimes⟩ := ih
    have hlater : ∀ o ∈ openings ops, o.time ≤ (ops ++ [op]).length := by
      intro o ho
      have hle := htimes o ho
      simp only [List.length_append]
      omega
    rw [openings_append]
    cases op with
    | push kind =>
      refine ⟨List.pairwise_cons.mpr ⟨fun o ho => ?_, hpairwise⟩, fun o ho => ?_⟩
      · have hle := htimes o ho
        change o.time < ops.length + 1
        omega
      · rcases List.mem_cons.mp ho with rfl | ho
        · simp
        · exact hlater o ho
    | pop kept =>
      unfold Opening.after
      dsimp only
      split
      · exact ⟨hpairwise, hlater⟩
      · exact ⟨hpairwise.tail, fun o ho => hlater o (List.mem_of_mem_tail ho)⟩
    | _ => exact ⟨hpairwise, hlater⟩

/-- Only the scope at the bottom was there before the first operation. -/
theorem time_ne_zero {outer : List Opening} (hopen : openings ops = scope :: outer)
    (houter : outer ≠ []) : scope.time ≠ 0 := by
  have hordered := (openings_ordered ops).1
  rw [hopen] at hordered
  obtain ⟨o, ho⟩ := List.exists_mem_of_ne_nil outer houter
  have hlt := (List.pairwise_cons.mp hordered).1 o ho
  omega

/-- What was declared before one more operation, or by it. -/
theorem declaredIn_append : DeclaredIn (ops ++ [op]) scope c ↔ DeclaredIn ops scope c ∨
    ∃ d, op = .declareClass d ∧ d.id = c.id ∧
      (openings ops).find? Opening.isHost = some scope := by
  constructor
  · rintro ⟨before, d, after, hops, hid, hhost⟩
    cases after using List.reverseRecOn with
    | nil =>
      obtain ⟨rfl, hop⟩ := List.append_inj' hops rfl
      exact .inr ⟨d, (List.cons.inj hop).1, hid, hhost⟩
    | append_singleton after last =>
      rw [← List.cons_append, ← List.append_assoc] at hops
      obtain ⟨rfl, -⟩ := List.append_inj' hops rfl
      exact .inl ⟨before, d, after, rfl, hid, hhost⟩
  · rintro (⟨before, d, after, rfl, hid, hhost⟩ | ⟨d, rfl, hid, hhost⟩)
    · exact ⟨before, d, after ++ [op], by simp, hid, hhost⟩
    · exact ⟨ops, d, [], rfl, hid, hhost⟩

/-- An operation that declares no class changes nothing about where classes were declared. -/
theorem declaredIn_append_of_ne (h : ∀ d, op ≠ .declareClass d) :
    DeclaredIn (ops ++ [op]) scope c ↔ DeclaredIn ops scope c := by
  rw [declaredIn_append, or_iff_left]
  rintro ⟨d, hop, -⟩
  exact h d hop

/-- Nothing is declared in a scope before it is opened. -/
theorem DeclaredIn.time_le (h : DeclaredIn ops scope c) : scope.time ≤ ops.length := by
  obtain ⟨before, d, after, rfl, -, hhost⟩ := h
  have hle := (openings_ordered before).2 scope (List.mem_of_find?_eq_some hhost)
  rw [List.length_append]
  omega

/-- Nothing is declared in a class body. -/
theorem DeclaredIn.isHost (h : DeclaredIn ops scope c) : scope.isHost = true := by
  obtain ⟨before, d, after, -, -, hhost⟩ := h
  exact List.find?_some hhost

end History

/-! ### Frames and their history -/

/-- The class is recorded in the frame. -/
def Frame.Owns (f : Frame) (c : ClassRef) : Prop := ∃ d ∈ f.classes, d.id = c.id

/-- What a frame owns in which one more class was recorded. -/
theorem Frame.owns_record {f : Frame} {c d : ClassRef} :
    (f.record d).Owns c ↔ f.Owns c ∨ d.id = c.id := by
  unfold Frame.record Frame.Owns
  split
  next hknown =>
    obtain ⟨known, hmem, hid⟩ := List.any_eq_true.mp hknown
    refine (or_iff_left_of_imp fun hc => ?_).symm
    exact ⟨known, hmem, (eq_of_beq hid).trans hc⟩
  next => simp [or_and_right, exists_or]

/-- The history of a scope says what opened its frame, and which classes the frame owns. The scope
at the bottom may own others, which were there before the first operation. -/
structure Opening.Describes (ops : List Operation) (o : Opening) (f : Frame) : Prop where
  kind : f.kind = o.kind
  classes : o.time ≠ 0 → ∀ c, f.Owns c ↔ DeclaredIn ops o c

namespace Opening.Describes

variable {ops : List Operation} {op : Operation} {o : Opening} {f : Frame}

/-- Classes belong to a scope unless its frame stands for a class body. -/
theorem isClassBody_eq (h : o.Describes ops f) : f.isClassBody = !o.isHost := by
  unfold Frame.isClassBody Frame.cls? Opening.isHost
  rw [h.kind]
  cases o.kind <;> rfl

/-- One more operation that declares no class. -/
theorem append (h : o.Describes ops f) (hop : ∀ d, op ≠ .declareClass d) :
    o.Describes (ops ++ [op]) f :=
  ⟨h.kind, fun htime c => (h.classes htime c).trans (declaredIn_append_of_ne hop).symm⟩

/-- A scope that has just been opened. -/
theorem new (ops : List Operation) (kind : FrameKind) :
    Opening.Describes (ops ++ [.push kind]) ⟨ops.length + 1, kind⟩ { kind } := by
  refine ⟨rfl, fun _ c => iff_of_false (by simp [Frame.Owns]) fun h => ?_⟩
  rw [declaredIn_append_of_ne (by simp)] at h
  have hle : ops.length + 1 ≤ ops.length := h.time_le
  omega

/-- A class is declared, in this scope or in another one. -/
theorem declare (h : o.Describes ops f) {f' : Frame} {d : ClassRef} (hkind : f'.kind = f.kind)
    (howns : ∀ c, f'.Owns c ↔ f.Owns c ∨
      d.id = c.id ∧ (openings ops).find? isHost = some o) :
    o.Describes (ops ++ [.declareClass d]) f' := by
  refine ⟨hkind.trans h.kind, fun htime c => ?_⟩
  rw [howns, h.classes htime, declaredIn_append]
  simp

/-- Only one of the frames records the class: that of the innermost scope that is no class body. -/
theorem recordClass (d : ClassRef) {scopes : List Opening} {frames : List Frame}
    (h : List.Forall₂ (Opening.Describes ops) scopes frames)
    (hordered : scopes.Pairwise fun a b => b.time < a.time)
    (hhost : (openings ops).find? isHost = scopes.find? isHost) :
    List.Forall₂ (Opening.Describes (ops ++ [.declareClass d])) scopes
      (SymbolTable.recordClass d frames) := by
  have hother : ∀ {o : Opening} {f : Frame}, (openings ops).find? isHost ≠ some o →
      o.Describes ops f → o.Describes (ops ++ [.declareClass d]) f :=
    fun hne hf => hf.declare rfl fun c => by simp [hne]
  induction h with
  | nil => exact .nil
  | @cons o f scopes frames hf hrest ih =>
    obtain ⟨hlater, hordered⟩ := List.pairwise_cons.mp hordered
    have hbody := hf.isClassBody_eq
    unfold SymbolTable.recordClass
    cases hisHost : o.isHost with
    | false =>
      -- A class body leaves the class to the scopes around it.
      rw [List.find?_cons_of_neg (by simp [hisHost])] at hhost
      rw [hisHost, Bool.not_false] at hbody
      rw [if_pos hbody]
      refine .cons (hother (fun hfound => ?_) hf) (ih hordered hhost)
      have hbad := List.find?_some hfound
      rw [hisHost] at hbad
      cases hbad
    | true =>
      -- The class is recorded here. The scopes further out are told from this one by their times.
      rw [List.find?_cons_of_pos hisHost] at hhost
      rw [hisHost, Bool.not_true] at hbody
      rw [if_neg (by simp [hbody])]
      refine .cons (hf.declare (congrArg Prod.fst (SymbolTable.scope_record f d)) fun c => ?_) ?_
      · simp [Frame.owns_record, hhost]
      · refine ((List.forall₂_and_left _ _).mpr ⟨hlater, hrest⟩).imp fun o' f' hf' =>
          hother ?_ hf'.2
        intro hfound
        obtain rfl : o = o' := Option.some.inj (hhost.symm.trans hfound)
        exact Nat.lt_irrefl _ hf'.1

end Opening.Describes

namespace SymbolTable

variable {t t' : SymbolTable} {ops : List Operation}

/-- The history of the operations describes all frames of the table. -/
def Follows (t : SymbolTable) (ops : List Operation) : Prop :=
  List.Forall₂ (Opening.Describes ops) (openings ops) t.frames

namespace Follows

/-- Opening a scope. -/
theorem push (h : t.Follows ops) (kind : FrameKind) :
    (t.push kind).Follows (ops ++ [.push kind]) := by
  unfold Follows
  rw [openings_append]
  exact .cons (.new ops kind) (h.imp fun _ _ hf => hf.append (by simp))

/-- Closing a scope. -/
theorem close (h : t.Follows ops) (kept : Bool) :
    (t.close kept).Follows (ops ++ [.pop kept]) := by
  have hlength : (openings ops).length = t.outer.length + 1 := h.length_eq
  have hlater : List.Forall₂ (Opening.Describes (ops ++ [.pop kept])) (openings ops) t.frames :=
    h.imp fun _ _ hf => hf.append (by simp)
  unfold Follows
  rw [openings_append, (t.frames_close kept).2]
  unfold Opening.after
  by_cases houter : t.outer = []
  · rw [if_pos houter, if_pos (by simp [hlength, houter])]
    exact hlater
  · have hpos := List.length_pos_iff.mpr houter
    rw [if_neg houter, if_neg (by omega)]
    simpa only [List.drop_one] using List.forall₂_drop 1 hlater

/-- Declaring a class. -/
theorem declareClass (h : t.Follows ops) (d : ClassRef) :
    (t.declareClass d).Follows (ops ++ [.declareClass d]) := by
  unfold Follows
  rw [frames_declareClass, openings_append]
  exact Opening.Describes.recordClass d h (openings_ordered ops).1 rfl

/-- An operation that neither opens nor closes a scope, nor declares a class. The innermost scope
may have got other bindings or another access region. -/
theorem other (h : t.Follows ops) {op : Operation} (hop : ∀ d, op ≠ .declareClass d)
    (hscopes : openings (ops ++ [op]) = openings ops) (hkind : t'.current.kind = t.current.kind)
    (hclasses : t'.current.classes = t.current.classes) (houter : t'.outer = t.outer) :
    t'.Follows (ops ++ [op]) := by
  have hlater := h.imp fun _ _ hf => Opening.Describes.append hf hop
  obtain ⟨o, scopes, ho, hrest, heq⟩ := List.forall₂_cons_right_iff.mp hlater
  unfold Follows
  rw [hscopes, heq]
  refine .cons ⟨hkind.trans ho.kind, fun htime c => ?_⟩ (houter ▸ hrest)
  rw [← ho.classes htime c, Frame.Owns, Frame.Owns, hclasses]

/-- Every operation, if built-in names are only declared at the start. -/
theorem apply (h : t.Follows ops) {op : Operation} (hop : ∀ entry, op ≠ .builtin entry) :
    (op.apply t).Follows (ops ++ [op]) := by
  cases op with
  | push kind => exact h.push kind
  | pop kept => exact h.close kept
  | declareClass d => exact h.declareClass d
  | builtin entry => exact absurd rfl (hop entry)
  | insert name ty =>
    change ((t.insert name ty).toOption.getD t).Follows _
    unfold SymbolTable.insert SymbolTable.addMember
    split <;> split <;> exact h.other (by simp) (openings_append _ _) rfl rfl rfl
  | addMember c name ty access =>
    change ((t.addMember c name ty access).toOption.getD t).Follows _
    unfold SymbolTable.addMember
    split <;> exact h.other (by simp) (openings_append _ _) rfl rfl rfl
  | setAccess access => exact h.other (by simp) (openings_append _ _) rfl rfl rfl
  | newClass name => exact h.other (by simp) (openings_append _ _) rfl rfl rfl
  | clear c => exact h.other (by simp) (openings_append _ _) rfl rfl rfl

/-- The open scopes are those of the history. -/
theorem kinds (h : t.Follows ops) : t.frames.map (·.kind) = (openings ops).map (·.kind) := by
  have hmap : ∀ {scopes : List Opening} {frames : List Frame},
      List.Forall₂ (Opening.Describes ops) scopes frames →
        frames.map (·.kind) = scopes.map (·.kind) := by
    intro scopes frames h
    induction h with
    | nil => rfl
    | cons hf _ ih => rw [List.map_cons, List.map_cons, hf.kind, ih]
  exact hmap h

variable {scope : Opening} {outer : List Opening}

/-- The innermost frame is that of the innermost scope. -/
theorem current (h : t.Follows ops) (hopen : openings ops = scope :: outer) :
    scope.Describes ops t.current := by
  unfold Follows at h
  rw [hopen] at h
  exact (List.forall₂_cons.mp h).1

/-- There are frames around the innermost one if there are scopes around it. -/
theorem outer_ne_nil (h : t.Follows ops) (hopen : openings ops = scope :: outer)
    (houter : outer ≠ []) : t.outer ≠ [] := by
  unfold Follows at h
  rw [hopen] at h
  have hlength := (List.forall₂_cons.mp h).2.length_eq
  rw [← List.length_pos_iff] at houter ⊢
  omega

end Follows

/-! ### What is lost with a scope -/

/-- A class that is cleared loses its members, and the others keep theirs. -/
theorem classBody_clear (t : SymbolTable) (c d : ClassRef) :
    (t.clear d).classBody c = if d.id = c.id then (t.classBody c).clear else t.classBody c := by
  unfold clear modifyClass classBody
  dsimp only
  rw [Array.getElem?_modify]
  split
  · cases t.classes[c.id]? <;> rfl
  · rfl

/-- A frame that is gone takes the members of the classes that it owned with it, and no others. -/
theorem classBody_discard (t : SymbolTable) (f : Frame) (c : ClassRef) :
    (f.Owns c → (t.discard f).classBody c = (t.classBody c).clear) ∧
      (¬ f.Owns c → (t.discard f).classBody c = t.classBody c) := by
  unfold Frame.Owns discard
  generalize f.classes = classes
  induction classes generalizing t with
  | nil => simp
  | cons d rest ih =>
    obtain ⟨hcleared, hkept⟩ := ih (t.clear d)
    rw [classBody_clear] at hcleared hkept
    rw [List.foldl_cons, List.exists_mem_cons_iff]
    by_cases hrest : ∃ e ∈ rest, e.id = c.id
    · refine ⟨fun _ => (hcleared hrest).trans ?_, fun hnot => absurd (.inr hrest) hnot⟩
      -- The class is cleared once more, which makes no difference.
      split <;> rfl
    · rw [hkept hrest]
      by_cases hd : d.id = c.id
      · simp [hd]
      · simp [hd, hrest]

/-- So does the innermost scope when it is closed for good, unless it is the last one. -/
theorem classBody_close (houter : t.outer ≠ []) (c : ClassRef) :
    (t.current.Owns c → (t.close false).classBody c = (t.classBody c).clear) ∧
      (¬ t.current.Owns c → (t.close false).classBody c = t.classBody c) := by
  obtain ⟨next, outer, hcons⟩ := List.exists_cons_of_ne_nil houter
  have hpop : t.pop? = some (t.current, { t with current := next, outer }) := by
    unfold pop?
    rw [hcons]
  unfold close
  rw [hpop]
  exact classBody_discard { t with current := next, outer } t.current c

/-! ### Functions without bodies -/

/-- No function has a body. One that has takes the body with it when it goes, and the classes that
were declared there lose their members too. -/
def Bodiless (t : SymbolTable) : Prop := ∀ i : Nat, t.bodies[i]?.join = none

namespace Bodiless

/-- Binding a name. -/
theorem insert (h : t.Bodiless) (name : String) (ty : Ty) :
    ((t.insert name ty).toOption.getD t).Bodiless := by
  unfold SymbolTable.insert SymbolTable.addMember
  split <;> split <;> exact h

/-- Declaring a class. -/
theorem declareClass (h : t.Bodiless) (d : ClassRef) : (t.declareClass d).Bodiless := by
  unfold SymbolTable.declareClass
  split <;> exact h

/-- Closing a scope. -/
theorem close (h : t.Bodiless) (kept : Bool) : (t.close kept).Bodiless := by
  unfold SymbolTable.close pop?
  cases t.outer with
  | nil => exact h
  | cons next outer =>
    cases kept with
    | true => exact h
    | false =>
      intro i
      exact (congrArg (fun bodies => bodies[i]?.join) (bodies_discard _ _)).trans (h i)

/-- Making the type of a built-in name. -/
theorem builtinTy (h : t.Bodiless) (name : String) (b : Builtin) :
    (t.builtinTy name b).2.Bodiless := by
  cases b with
  | value ty => exact h
  | newClass => exact declareClass (t := (t.newClass name).2.markComplete _) h _
  | objectOf cls => exact h
  | function result params =>
    intro i
    change (t.bodies.push none)[i]?.join = none
    rw [Array.getElem?_push]
    split
    · rfl
    · exact h i

/-- No operation gives a function its body. -/
theorem apply (h : t.Bodiless) (op : Operation) : (op.apply t).Bodiless := by
  cases op with
  | push kind => exact h
  | pop kept => exact h.close kept
  | insert name ty => exact h.insert name ty
  | setAccess access => exact h
  | newClass name => exact h
  | declareClass d => exact h.declareClass d
  | addMember c name ty access =>
    change ((t.addMember c name ty access).toOption.getD t).Bodiless
    unfold SymbolTable.addMember
    split <;> exact h
  | clear c => exact h
  | builtin entry =>
    change (t.declareBuiltin entry).Bodiless
    rw [Journal.Covers.declareBuiltin_eq]
    exact (h.builtinTy entry.1 entry.2).insert _ _

/-- A class that is held keeps its members when all is let go of that nothing mentions. -/
theorem classBody_reclaim (h : t.Bodiless) {held : Mentions} {c : ClassRef}
    (hc : c.id ∈ held.classes) : (t.reclaim held).classBody c = t.classBody c := by
  refine (reclaim_rounds (P := fun u => u.Bodiless ∧ u.classBody c = t.classBody c) held ⟨h, rfl⟩
    ?_ ?_).2
  · intro u v id _ hu _ hid
    have hstale := (List.mem_filter.mp hid).2
    rw [hu.1 id] at hstale
    cases hstale
  · intro u v id _ _ hv hid
    have hstale := (List.mem_filter.mp hid).2
    simp only [Bool.and_eq_true, Bool.not_eq_true', List.contains_eq_mem,
      decide_eq_false_iff_not] at hstale
    have hne : id ≠ c.id := by
      rintro rfl
      exact hstale.2 (List.mem_append_left _ hc)
    refine ⟨hv.1, ?_⟩
    change (v.clear ⟨id, c.name⟩).classBody c = _
    rw [classBody_clear, if_neg hne]
    exact hv.2

end Bodiless

end SymbolTable

/-! ### Sessions -/

namespace Session

variable {config : Option Config} {ops : List Operation}

/-- In every session, the table follows the history of the operations. -/
theorem follows (hops : ∀ op ∈ ops, ∀ entry, op ≠ .builtin entry) :
    ((start config).run ops).table.Follows ops := by
  induction ops using List.reverseRecOn with
  | nil =>
    have hscopes : (start config).table.scopes = [(.global, .pub)] := by
      cases config with
      | none => rfl
      | some config => rw [table_start, SymbolTable.scopes_populated]
    obtain ⟨f, hframes, hf⟩ := List.map_eq_singleton_iff.mp hscopes
    change List.Forall₂ _ _ (start config).table.frames
    rw [hframes]
    exact .cons ⟨congrArg Prod.fst hf, fun hzero => absurd rfl hzero⟩ .nil
  | append_singleton ops op ih =>
    have hrun : (start config).run (ops ++ [op]) = ((start config).run ops).step op :=
      List.foldl_append
    rw [hrun]
    refine SymbolTable.Follows.apply (ih fun op hop => hops op (List.mem_append_left _ hop)) ?_
    exact hops op (List.mem_append_right _ List.mem_cons_self)

/-- In every session, no function has a body. -/
theorem bodiless (config : Option Config) (ops : List Operation) :
    ((start config).run ops).table.Bodiless := by
  have hrun : ∀ (s : Session) (ops : List Operation), s.table.Bodiless →
      (s.run ops).table.Bodiless :=
    fun s ops hs => List.foldlRecOn (motive := fun s : Session => s.table.Bodiless) ops step hs
      fun _ hs op _ => hs.apply op
  have hempty : SymbolTable.empty.Bodiless := by simp [SymbolTable.Bodiless, SymbolTable.empty]
  cases config with
  | none => exact hrun _ ops hempty
  | some config => exact hrun _ ops (hrun _ _ hempty)

end Session

/-- When a scope is closed for good, the classes that were declared while it was the innermost one
that is no class body lose their members. All other classes keep theirs, and so do all classes if
the scope is a class body; the frames around the scope are as they were. Whoever holds on to a class
sees no more change than this when all is let go of that nothing mentions any more. Built-in names
may be there from the start, but are not declared later. -/
theorem Session.close_clears_declared (config : Option Config) {ops : List Operation}
    (hops : ∀ op ∈ ops, ∀ entry, op ≠ .builtin entry) {scope : Opening} {outer : List Opening}
    (hopen : openings ops = scope :: outer) (houter : outer ≠ []) :
    let t := ((start config).run ops).table
    let closed := t.close false
    t.frames.map (·.kind) = (openings ops).map (·.kind) ∧ closed.frames = t.frames.tail ∧
    (∀ c, DeclaredIn ops scope c → closed.classBody c = (t.classBody c).clear) ∧
    (∀ c, ¬ DeclaredIn ops scope c → closed.classBody c = t.classBody c) ∧
    (∀ c, (t.classBody c).isEmpty = false →
      ((closed.classBody c).isEmpty = true ↔ DeclaredIn ops scope c)) ∧
    (scope.isHost = false → ∀ c, closed.classBody c = t.classBody c) ∧
    ∀ held : Mentions, (closed.reclaim held).frames = closed.frames ∧
      ∀ c, c.id ∈ held.classes → (closed.reclaim held).classBody c = closed.classBody c := by
  intro t closed
  have hfollows : t.Follows ops := follows hops
  have hscope := hfollows.current hopen
  have htouter := hfollows.outer_ne_nil hopen houter
  have htime := time_ne_zero hopen houter
  have hcleared : ∀ c, DeclaredIn ops scope c → closed.classBody c = (t.classBody c).clear :=
    fun c hc => (t.classBody_close htouter c).1 ((hscope.classes htime c).mpr hc)
  have hkept : ∀ c, ¬ DeclaredIn ops scope c → closed.classBody c = t.classBody c :=
    fun c hc => (t.classBody_close htouter c).2 (mt (hscope.classes htime c).mp hc)
  refine ⟨hfollows.kinds, ?_, hcleared,
    hkept, fun c hmembers => ?_, fun hbody c => ?_, fun held => ?_⟩
  · rw [(t.frames_close false).2, if_neg htouter]
  · by_cases hc : DeclaredIn ops scope c
    · rw [hcleared c hc]
      exact iff_of_true rfl hc
    · rw [hkept c hc, hmembers]
      exact iff_of_false (by simp) hc
  · refine hkept c fun hc => ?_
    have hhost := hc.isHost
    rw [hbody] at hhost
    cases hhost
  · refine ⟨closed.frames_reclaim held, fun c hc => ?_⟩
    exact ((bodiless config ops).close false).classBody_reclaim hc

/-- Inside a block, the body of a class from outside is opened, and another class is declared there
twice. Both classes get a member before the class body is closed again. -/
def nestingOperations : List Operation :=
  [.newClass "Outer", .declareClass ⟨0, "Outer"⟩, .newClass "Inner", .push .block,
   .push (.classBody ⟨0, "Outer"⟩), .declareClass ⟨1, "Inner"⟩, .declareClass ⟨1, "Inner"⟩,
   .addMember ⟨0, "Outer"⟩ "x" .int .priv, .addMember ⟨1, "Inner"⟩ "y" .char .pub, .pop false]

/-- Closing the block empties the class that was declared in it, and not the one from outside, whose
body was open there. -/
theorem Session.close_nestingOperations :
    let t := ((start none).run nestingOperations).table
    let closed := t.close false
    closed.frames = t.frames.tail ∧
    ((t.classBody ⟨1, "Inner"⟩).isEmpty = false ∧ (closed.classBody ⟨1, "Inner"⟩).isEmpty = true) ∧
    DeclaredIn nestingOperations ⟨4, .block⟩ ⟨1, "Inner"⟩ ∧
    ¬ DeclaredIn nestingOperations ⟨4, .block⟩ ⟨0, "Outer"⟩ := by
  have hopen : openings nestingOperations = [⟨4, .block⟩, ⟨0, .global⟩] := rfl
  obtain ⟨-, hframes, -, -, hemptied, -⟩ :=
    close_clears_declared none (by simp [nestingOperations]) hopen (by simp)
  have hinner : DeclaredIn nestingOperations ⟨4, .block⟩ ⟨1, "Inner"⟩ :=
    ⟨nestingOperations.take 5, ⟨1, "Inner"⟩, nestingOperations.drop 6, rfl, rfl, rfl⟩
  refine ⟨hframes, ⟨by decide, (hemptied _ (by decide)).mpr hinner⟩, hinner, ?_⟩
  rw [← hemptied _ (by decide)]
  decide

end CWithClasses
