import CWithClasses.Scope.Lifetime
import CWithClasses.Type.Compatible

/-!
# Types without unknown parts

`unknown` may hide inside a type: as the element of an array, behind pointers, or among the
result and the parameters of a function. A type is *known* if it occurs nowhere in it, and a
symbol table is known if all types in its scopes, members and function bodies are.

The type that an operator chooses is known if those of its operands are, and no operation of
the symbol table makes up a type of its own.
-/

namespace CWithClasses

/-! ### Types -/

mutual

/-- `unknown` occurs nowhere in the type. -/
def Ty.Known : Ty → Prop
  | .unknown => False
  | .array element _ => element.Known
  | .function _ result params _ => result.Known ∧ Ty.AllKnown params
  | .pointer target => target.Known
  | _ => True

/-- `unknown` occurs in none of the types. -/
def Ty.AllKnown : List Ty → Prop
  | [] => True
  | t :: rest => t.Known ∧ Ty.AllKnown rest

end

namespace Ty

@[simp] theorem known_int : Known .int := trivial
@[simp] theorem known_double : Known .double := trivial
@[simp] theorem known_char : Known .char := trivial
@[simp] theorem known_bool : Known .bool := trivial
@[simp] theorem known_void : Known .void := trivial
@[simp] theorem known_object (c : ClassRef) : Known (.object c) := trivial
@[simp] theorem not_known_unknown : ¬ Known .unknown := fun h => h

@[simp] theorem known_pointer {t : Ty} : Known (.pointer t) ↔ t.Known := Iff.rfl

@[simp] theorem known_array {t : Ty} {n : Nat} : Known (.array t n) ↔ t.Known := Iff.rfl

/-- A row of types is known if each of them is. -/
theorem allKnown_iff {ts : List Ty} : AllKnown ts ↔ ∀ t ∈ ts, t.Known := by
  induction ts with
  | nil => exact ⟨fun _ t ht => absurd ht List.not_mem_nil, fun _ => trivial⟩
  | cons t rest ih => exact (and_congr_right fun _ => ih).trans List.forall_mem_cons.symm

@[simp] theorem known_function {id required : Nat} {result : Ty} {params : List Ty} :
    Known (.function id result params required) ↔ result.Known ∧ ∀ t ∈ params, t.Known :=
  and_congr_right fun _ => allKnown_iff

/-- A known type is no pointer to something unknown either. -/
theorem Known.isUnknown_eq {t : Ty} (ht : t.Known) : t.isUnknown = false := by
  induction t using Ty.isUnknown.induct with
  | case1 => exact absurd ht not_known_unknown
  | case2 t ih => simpa [isUnknown] using ih (known_pointer.mp ht)
  | case3 t hunknown hpointer => unfold isUnknown; split <;> simp_all

/-- Decay only takes a type apart. -/
theorem Known.decay {t : Ty} (ht : t.Known) : t.decay.Known := by
  unfold Ty.decay
  split <;> simpa using ht

/-- What a known type leads to is known. -/
theorem Known.pointee {t target : Ty} (ht : t.Known) (h : t.pointee? = some target) :
    target.Known := by
  have hdecay := ht.decay
  unfold pointee? at h
  split at h
  next heq =>
    rw [heq, known_pointer] at hdecay
    rwa [← Option.some.inj h]
  next => cases h

/-- Calling a known function gives a known result and takes known parameters. -/
theorem Known.asFunction {t : Ty} {f : FunctionTy} (ht : t.Known) (h : t.asFunction? = some f) :
    f.result.Known ∧ ∀ param ∈ f.params, param.Known := by
  unfold asFunction? at h
  split at h
  · cases h
    exact known_function.mp ht
  · cases h
    exact known_function.mp (known_pointer.mp ht)
  · cases h

/-- The wider of two known types is known. -/
theorem Known.commonArithmetic {a b t : Ty} (ha : a.Known) (hb : b.Known)
    (h : commonArithmetic? a b = some t) : t.Known := by
  unfold commonArithmetic? at h
  rw [ha.isUnknown_eq, hb.isUnknown_eq] at h
  cases hm : a.rank? with
  | none => simp [hm] at h
  | some m =>
    cases hn : b.rank? with
    | none => simp [hm, hn] at h
    | some n =>
      have ht : (if n ≤ m then a else b) = t := by simpa [hm, hn] using h
      rw [← ht]
      split
      · exact ha
      · exact hb

/-- What two known branches have in common is known. -/
theorem Known.commonType {a b t : Ty} (ha : a.Known) (hb : b.Known)
    (h : commonType? a b = some t) : t.Known := by
  unfold commonType? at h
  split at h
  next t' harith =>
    cases h
    exact ha.commonArithmetic hb harith
  next =>
    split at h
    · cases h
      exact ha.decay
    · split at h
      · cases h
        exact hb.decay
      · cases h

/-- Promotion stays within the known types. -/
theorem Known.promote {t : Ty} (ht : t.Known) : (promote t).Known := by
  unfold CWithClasses.promote
  cases h : commonArithmetic? t .int with
  | none => exact ht
  | some t' => exact ht.commonArithmetic known_int h

end Ty

/-! ### Members and frames -/

/-- All bound types are known. -/
def Bindings.Known (b : Bindings) : Prop := ∀ entry ∈ b, entry.2.Known

/-- A lookup finds one of the bound types. -/
theorem Bindings.Known.lookup {b : Bindings} {name : String} {t : Ty} (hb : Bindings.Known b)
    (h : b.lookup name = some t) : t.Known := by
  obtain ⟨front, back, rfl, _⟩ := List.lookup_eq_some_iff.mp h
  exact hb (name, t) (by simp)

/-- One more known binding does no harm. -/
theorem Bindings.Known.cons {b : Bindings} {name : String} {t : Ty} (hb : Bindings.Known b)
    (ht : t.Known) : Bindings.Known ((name, t) :: b) := by
  intro entry hentry
  rcases List.mem_cons.mp hentry with rfl | hrest
  · exact ht
  · exact hb entry hrest

namespace ClassBody

/-- All members are known, whoever may name them. -/
def Known (b : ClassBody) : Prop := ∀ access, Bindings.Known (b.table access)

/-- A class without members is known. -/
theorem known_empty (complete : Bool) : Known { complete } := by
  intro access entry hentry
  cases access <;> simp [table] at hentry

/-- A member is found in the table of its region. -/
theorem lookup_table {b : ClassBody} {name : String} {access : Access} {t : Ty}
    (h : b.member? name = some (access, t)) : (b.table access).lookup name = some t := by
  unfold member? at h
  split at h
  next hpublic =>
    cases h
    exact hpublic
  next =>
    obtain ⟨_, hprivate, heq⟩ := Option.map_eq_some_iff.mp h
    cases heq
    exact hprivate

/-- A member of a known class is known. -/
theorem Known.member {b : ClassBody} {name : String} {access : Access} {t : Ty} (hb : b.Known)
    (h : b.member? name = some (access, t)) : t.Known :=
  (hb access).lookup (lookup_table h)

/-- A new member goes into one table; the other stays as it is. -/
theorem Known.add {b b' : ClassBody} {name : String} {t : Ty} {access : Access} (hb : b.Known)
    (ht : t.Known) (h : b.add name t access = .ok b') : b'.Known := by
  unfold ClassBody.add at h
  split at h
  · cases h
  · split at h <;> cases h <;> intro access <;> cases access
    · exact (hb .pub).cons ht
    · exact hb .priv
    · exact hb .pub
    · exact (hb .priv).cons ht

end ClassBody

/-- Recording a class binds nothing. -/
theorem Frame.record_bindings (f : Frame) (c : ClassRef) : (f.record c).bindings = f.bindings := by
  unfold Frame.record
  split <;> rfl

/-- A changed array holds what it held before, and possibly one changed item. -/
private theorem mem_of_mem_modify {α : Type} {xs : Array α} {i : Nat} {f : α → α} {a : α}
    (h : a ∈ xs.modify i f) : a ∈ xs ∨ ∃ b ∈ xs, a = f b := by
  obtain ⟨j, hj⟩ := Array.mem_iff_getElem?.mp h
  rw [Array.getElem?_modify] at hj
  split at hj
  · obtain ⟨b, hb, rfl⟩ := Option.map_eq_some_iff.mp hj
    exact Or.inr ⟨b, Array.mem_iff_getElem?.mpr ⟨j, hb⟩, rfl⟩
  · exact Or.inl (Array.mem_iff_getElem?.mpr ⟨j, hj⟩)

/-- A scope that has a class is the body of the class. -/
theorem Frame.kind_of_cls? {f : Frame} {c : ClassRef} (h : f.cls? = some c) :
    f.kind = .classBody c := by
  unfold cls? at h
  split at h <;> cases h
  assumption

namespace SymbolTable

/-- All types in a symbol table are known. -/
structure Known (t : SymbolTable) : Prop where
  /-- The bindings of the open scopes. -/
  frames : ∀ f ∈ t.frames, Bindings.Known f.bindings
  /-- The members of all classes. -/
  classes : ∀ b ∈ t.classes, b.Known
  /-- The bindings of function bodies that have been checked. -/
  bodies : ∀ f, some f ∈ t.bodies → Bindings.Known f.bindings

variable {t t' : SymbolTable}

/-! ### Looking up -/

/-- A member is one of a class that has been made. -/
theorem exists_of_member? {c : ClassRef} {name : String} {m : Access × Ty}
    (h : t.member? c name = some m) : ∃ b, t.classes[c.id]? = some b ∧ b.member? name = some m := by
  unfold member? SymbolTable.classBody at h
  cases hb : t.classes[c.id]? with
  | none =>
    rw [hb] at h
    cases h
  | some b =>
    rw [hb] at h
    exact ⟨b, rfl, h⟩

/-- The members of classes, of which one may have been changed. -/
theorem classBody_modifyClass_cases (t : SymbolTable) (c : ClassRef) (f : ClassBody → ClassBody)
    (d : ClassRef) : (t.modifyClass c f).classBody d = t.classBody d ∨
      t.classBody d = t.classBody c ∧ (t.modifyClass c f).classBody d = f (t.classBody c) := by
  unfold SymbolTable.classBody modifyClass
  dsimp only
  rw [Array.getElem?_modify]
  split
  next heq =>
    rw [heq]
    cases t.classes[d.id]? with
    | none => exact .inl rfl
    | some b => exact .inr ⟨rfl, rfl⟩
  next => exact .inl rfl

/-- The members of a class of a known table are known. -/
theorem Known.classBody (ht : t.Known) (c : ClassRef) : (t.classBody c).Known := by
  unfold SymbolTable.classBody
  cases h : t.classes[c.id]? with
  | none => exact ClassBody.known_empty false
  | some b => exact ht.classes b (Array.mem_of_getElem? h)

/-- A member of a class is known. -/
theorem Known.member (ht : t.Known) {c : ClassRef} {name : String} {access : Access} {ty : Ty}
    (h : t.member? c name = some (access, ty)) : ty.Known :=
  (ht.classBody c).member h

/-- What a name means in one of the open scopes is known. -/
theorem Known.findIn (ht : t.Known) {f : Frame} (hf : f ∈ t.frames) {name : String} {ty : Ty}
    (h : t.findIn f name = some ty) : ty.Known := by
  unfold SymbolTable.findIn at h
  split at h
  · obtain ⟨⟨access, ty'⟩, hmember, rfl⟩ := Option.map_eq_some_iff.mp h
    exact ht.member hmember
  · exact (ht.frames f hf).lookup h

/-- What a name means in the innermost scope is known. -/
theorem Known.lookupLocal (ht : t.Known) {name : String} {ty : Ty}
    (h : t.lookupLocal? name = some ty) : ty.Known :=
  ht.findIn (by simp [SymbolTable.frames]) h

/-- What a name means is known. -/
theorem Known.lookup (ht : t.Known) {name : String} {ty : Ty} (h : t.lookup? name = some ty) :
    ty.Known := by
  obtain ⟨f, hf, hfind⟩ := List.exists_of_findSome?_eq_some h
  exact ht.findIn hf hfind

/-- A member that may be named is known. -/
theorem Known.memberLookup (ht : t.Known) {c : ClassRef} {name : String} {inside : Bool} {ty : Ty}
    (h : t.memberLookup c name inside = .ok ty) : ty.Known := by
  unfold SymbolTable.memberLookup at h
  split at h
  next hmember =>
    cases h
    exact ht.member hmember
  next hmember =>
    split at h <;> cases h
    exact ht.member hmember
  next => cases h

/-- A name that is looked up as a type gives a class. -/
theorem lookupTypeName_object {name : String} {ty : Ty} (h : t.lookupTypeName name = .ok ty) :
    ∃ c, ty = .object c := by
  unfold lookupTypeName at h
  split at h
  next c _ =>
    cases h
    exact ⟨c, rfl⟩
  next =>
    cases hlookup : t.lookup name with
    | error e =>
      rw [hlookup] at h
      cases h
    | ok found =>
      rw [hlookup] at h
      cases found with
      | object c =>
        cases h
        exact ⟨c, rfl⟩
      | _ => cases h

/-! ### Changing a table -/

/-- Tables with the same types are known alike. -/
theorem Known.of_eq (ht : t.Known)
    (hframes : ∀ f ∈ t'.frames, ∃ g ∈ t.frames, f.bindings = g.bindings)
    (hclasses : t'.classes = t.classes) (hbodies : t'.bodies = t.bodies) : t'.Known where
  frames := by
    intro f hf
    obtain ⟨g, hg, heq⟩ := hframes f hf
    rw [heq]
    exact ht.frames g hg
  classes := by rw [hclasses]; exact ht.classes
  bodies := by rw [hbodies]; exact ht.bodies

/-- A class may change as long as its members stay known. -/
theorem Known.modifyAt (ht : t.Known) (i : Nat) {f : ClassBody → ClassBody}
    (hf : ∀ b, b.Known → (f b).Known) : { t with classes := t.classes.modify i f }.Known where
  frames := ht.frames
  classes := by
    intro b hb
    rcases mem_of_mem_modify hb with hold | ⟨b', hb', rfl⟩
    · exact ht.classes b hold
    · exact hf b' (ht.classes b' hb')
  bodies := ht.bodies

/-- Marking a class as complete adds no members. -/
theorem Known.markComplete (ht : t.Known) (c : ClassRef) : (t.markComplete c).Known := by
  refine ht.modifyAt c.id ?_
  intro b hb access
  cases access with
  | pub => exact hb .pub
  | priv => exact hb .priv

/-- Members may always go. -/
theorem Known.clear (ht : t.Known) (c : ClassRef) : (t.clear c).Known :=
  ht.modifyAt c.id fun b _ => ClassBody.known_empty b.complete

/-- A new class has no members yet. -/
theorem Known.newClass (ht : t.Known) (name : String) : (t.newClass name).2.Known where
  frames := ht.frames
  classes := by
    intro b hb
    rcases Array.mem_push.mp hb with hold | rfl
    · exact ht.classes b hold
    · exact ClassBody.known_empty false
  bodies := ht.bodies

/-- A new function has no body yet. -/
theorem Known.newFunction (ht : t.Known) (result : Ty) (params : List Ty) (required : Nat) :
    (t.newFunction result params required).2.Known where
  frames := ht.frames
  classes := ht.classes
  bodies := by
    intro f hf
    rcases Array.mem_push.mp hf with hold | hnew
    · exact ht.bodies f hold
    · cases hnew

/-- In the body of a class, a name becomes that of a member. Elsewhere the innermost scope binds
it. -/
theorem insert_cases {name : String} {ty : Ty} (h : t.insert name ty = .ok t') :
    (∃ c b, t.current.cls? = some c ∧ (t.classBody c).add name ty t.current.access = .ok b ∧
      t' = t.modifyClass c fun _ => b) ∨
    (t.current.cls? = none ∧ t.current.bindings.lookup name = none ∧
      t' = { t with
        current := { t.current with bindings := (name, ty) :: t.current.bindings } }) := by
  unfold insert addMember at h
  split at h
  next c hcls =>
    split at h <;> cases h
    next b hadd => exact .inl ⟨c, b, hcls, hadd, rfl⟩
  next hcls =>
    split at h <;> cases h
    next hfree => exact .inr ⟨hcls, hfree, rfl⟩

/-- A known type may be bound. -/
theorem Known.insert (ht : t.Known) {name : String} {ty : Ty} (hty : ty.Known)
    (h : t.insert name ty = .ok t') : t'.Known := by
  rcases insert_cases h with ⟨c, b, -, hadd, rfl⟩ | ⟨-, -, rfl⟩
  · exact ht.modifyAt c.id fun _ _ => (ht.classBody c).add hty hadd
  · refine ⟨?_, ht.classes, ht.bodies⟩
    intro f hf
    rcases List.mem_cons.mp hf with rfl | houter
    · exact (ht.frames t.current (by simp [SymbolTable.frames])).cons hty
    · exact ht.frames f (List.mem_cons_of_mem _ houter)

/-- Recording a class in one of several scopes binds nothing in any of them. -/
theorem mem_recordClass {c : ClassRef} {f : Frame} {frames : List Frame}
    (hf : f ∈ recordClass c frames) : ∃ g ∈ frames, f.bindings = g.bindings := by
  induction frames with
  | nil => simp [recordClass] at hf
  | cons g rest ih =>
    unfold recordClass at hf
    split at hf
    · rcases List.mem_cons.mp hf with rfl | hrest
      · exact ⟨f, by simp, rfl⟩
      · obtain ⟨g', hg', heq⟩ := ih hrest
        exact ⟨g', List.mem_cons_of_mem _ hg', heq⟩
    · rcases List.mem_cons.mp hf with rfl | hrest
      · exact ⟨g, by simp, Frame.record_bindings g c⟩
      · exact ⟨f, List.mem_cons_of_mem _ hrest, rfl⟩

/-- A class may come to belong to a scope. -/
theorem Known.declareClass (ht : t.Known) (c : ClassRef) : (t.declareClass c).Known := by
  unfold SymbolTable.declareClass
  split
  · refine ht.of_eq ?_ rfl rfl
    intro f hf
    rcases List.mem_cons.mp hf with rfl | houter
    · exact ⟨t.current, by simp [SymbolTable.frames], rfl⟩
    · obtain ⟨g, hg, heq⟩ := mem_recordClass houter
      exact ⟨g, List.mem_cons_of_mem _ hg, heq⟩
  · refine ht.of_eq ?_ rfl rfl
    intro f hf
    rcases List.mem_cons.mp hf with rfl | houter
    · exact ⟨t.current, by simp [SymbolTable.frames], Frame.record_bindings _ c⟩
    · exact ⟨f, List.mem_cons_of_mem _ houter, rfl⟩

/-- A new scope is empty. -/
theorem Known.push (ht : t.Known) (kind : FrameKind) : (t.push kind).Known where
  frames := by
    intro f hf
    rcases List.mem_cons.mp hf with rfl | hold
    · intro entry hentry
      cases hentry
    · exact ht.frames f hold
  classes := ht.classes
  bodies := ht.bodies

/-- Closing a scope hands it over and leaves the others. -/
theorem pop?_rest {frame : Frame} (h : t.pop? = some (frame, t')) :
    frame = t.current ∧ t'.frames = t.outer ∧ t'.classes = t.classes ∧ t'.bodies = t.bodies := by
  unfold pop? at h
  split at h
  next => cases h
  next houter =>
    cases h
    exact ⟨rfl, houter.symm, rfl, rfl⟩

/-- Closing a scope hands over its bindings and leaves the others. -/
theorem Known.pop (ht : t.Known) {f : Frame} (h : t.pop? = some (f, t')) :
    t'.Known ∧ Bindings.Known f.bindings := by
  obtain ⟨rfl, hframes, hclasses, hbodies⟩ := pop?_rest h
  refine ⟨ht.of_eq (fun g hg => ⟨g, ?_, rfl⟩) hclasses hbodies, ht.frames _ List.mem_cons_self⟩
  exact List.mem_cons_of_mem _ (hframes ▸ hg)

/-- The access region of a scope has nothing to do with its bindings. -/
theorem Known.setAccess (ht : t.Known) (access : Access) : (t.setAccess access).Known := by
  refine ht.of_eq ?_ rfl rfl
  intro f hf
  rcases List.mem_cons.mp hf with rfl | houter
  · exact ⟨t.current, by simp [SymbolTable.frames], rfl⟩
  · exact ⟨f, List.mem_cons_of_mem _ houter, rfl⟩

/-- A function gets a body only if it has none, and all else is left alone. -/
theorem define?_rest {f : FunctionTy} {body : Frame} (h : t.define? f body = some t') :
    t.body? f = none ∧ t'.frames = t.frames ∧ t'.classes = t.classes ∧
      t.bodies.size ≤ t'.bodies.size := by
  unfold define? at h
  split at h <;> cases h
  next hnone => exact ⟨hnone, rfl, rfl, by simp [Array.rightpad]⟩

/-- A function that cannot get a body has one. -/
theorem isSome_of_define? {f : FunctionTy} {body : Frame} (h : t.define? f body = none) :
    (t.body? f).isSome = true := by
  unfold define? at h
  split at h
  next hbody => rw [hbody, Option.isSome_some]
  next => cases h

/-- A function may get a known scope as its body. -/
theorem Known.define (ht : t.Known) {f : FunctionTy} {body : Frame}
    (hbody : Bindings.Known body.bindings) (h : t.define? f body = some t') : t'.Known := by
  unfold define? at h
  split at h
  · cases h
  · cases h
    refine ⟨ht.frames, ht.classes, ?_⟩
    intro g (hg : some g ∈ (t.bodies.rightpad (f.id + 1) none).modify f.id fun _ => some body)
    rcases mem_of_mem_modify hg with hold | ⟨_, _, hnew⟩
    · rcases Array.mem_append.mp hold with hbefore | hplace
      · exact ht.bodies g hbefore
      · cases Array.eq_of_mem_replicate hplace
    · cases hnew
      exact hbody

/-! ### Letting go -/

/-- A frame may go for good. -/
theorem Known.discard (ht : t.Known) (f : Frame) : (t.discard f).Known := by
  unfold SymbolTable.discard
  generalize f.classes = classes
  induction classes generalizing t with
  | nil => exact ht
  | cons c rest ih => exact ih (ht.clear c)

/-- The body of a function may go. -/
theorem Known.dropBody (ht : t.Known) (id : Nat) : (t.dropBody id).Known := by
  unfold SymbolTable.dropBody
  split
  next frame _ =>
    apply Known.discard
    refine ⟨ht.frames, ht.classes, ?_⟩
    intro g (hg : some g ∈ t.bodies.modify id fun _ => none)
    rcases mem_of_mem_modify hg with hold | ⟨_, _, hnew⟩
    · exact ht.bodies g hold
    · cases hnew
  next => exact ht

/-- The members of a class may go. -/
theorem Known.dropMembers (ht : t.Known) (id : Nat) : (t.dropMembers id).Known :=
  ht.modifyAt id fun b _ => ClassBody.known_empty b.complete

/-- What keeps a table known may be done again and again. -/
theorem Known.foldl {f : SymbolTable → Nat → SymbolTable}
    (hf : ∀ {t : SymbolTable}, t.Known → ∀ i, (f t i).Known) (ht : t.Known) (ids : List Nat) :
    (ids.foldl f t).Known :=
  List.foldlRecOn (motive := SymbolTable.Known) ids f ht fun _ h i _ => hf h i

/-- Whatever is mentioned nowhere may go. -/
theorem Known.reclaim (ht : t.Known) (held : Mentions) : (t.reclaim held).Known := by
  unfold SymbolTable.reclaim
  generalize t.bodies.size + t.classes.size = rounds
  induction rounds generalizing t with
  | zero => exact ht
  | succ rounds ih =>
    unfold reclaimRounds
    dsimp only
    split
    · exact ht
    · have hbodies := ht.foldl (fun h id => h.dropBody id) (t.staleBodies (held ++ t.mentions))
      exact ih (hbodies.foldl (fun h id => h.dropMembers id) _)

/-- A table that holds nothing is known. -/
theorem known_empty : SymbolTable.empty.Known where
  frames := by
    intro f hf entry hentry
    rw [List.mem_singleton.mp hf] at hentry
    cases hentry
  classes := by simp [SymbolTable.empty]
  bodies := by simp [SymbolTable.empty]

end SymbolTable

end CWithClasses
