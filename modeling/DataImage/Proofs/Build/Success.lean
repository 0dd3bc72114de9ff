import DataImage.Proofs.Build.Resolve
import DataImage.Proofs.Catalog.Forms

/-!
# Steps that succeed

Whether a step of a build succeeds hardly depends on the image that it starts from. Layouts succeed
when the catalog says that they exist. Contents succeed when the catalog gives them and all that
they refer to is available (`Catalog.Available`): then requests succeed too, whichever of the values
have a global already (`Build.contentsOf_succeeds`, `Build.request_succeeds`).

The only thing to know about the image is which values are marked as being built, because the marks
bound the depth to which arrays and strings can be built inside one another.
-/

namespace DataImage

/-! ## What is available -/

/-- Each value of the set can be built and referred to, and refers only to values of the set. -/
structure Catalog.Available (c : Catalog) (values : DescriptorId → Prop) : Prop where
  built : ∀ d, values d → ∃ v w, c.descriptor? d = some v ∧ v.isNested = false ∧
    c.Laid v.context ∧ c.contents? d = some w ∧ ∀ e ∈ w.references, values e

/-- What is reached from the set is in the set. -/
theorem Catalog.Available.reaches {c : Catalog} {values : DescriptorId → Prop}
    (h : c.Available values) {d e : DescriptorId} (hd : values d) (hde : c.Reaches d e) :
    values e := by
  induction hde with
  | refl => exact hd
  | tail _ hrefers ih =>
    obtain ⟨v, w, -, -, -, hw, hrefs⟩ := h.built _ ih
    obtain ⟨w', hw', hmem⟩ := hrefers
    obtain rfl := Option.some.inj (hw.symm.trans hw')
    exact hrefs _ hmem

namespace Build

variable {α β : Type} {c : Catalog} {marks : List DescriptorId}

/-- A step succeeds at every image with the given marks, and keeps them. -/
def Succeeds (marks : List DescriptorId) (x : Build α) : Prop :=
  ∀ s : Image, s.building = marks → ∃ a s', x s = .ok a s' ∧ s'.building = marks

namespace Succeeds

protected theorem pure (a : α) : Succeeds marks (pure a) := fun s hs => ⟨a, s, rfl, hs⟩

protected theorem bind {x : Build α} {f : α → Build β} (hx : Succeeds marks x)
    (hf : ∀ a, Succeeds marks (f a)) : Succeeds marks (x >>= f) := by
  intro s hs
  obtain ⟨a, s₁, hx, hs₁⟩ := hx s hs
  obtain ⟨b, s₂, hf, hs₂⟩ := hf a s₁ hs₁
  refine ⟨b, s₂, ?_, hs₂⟩
  rw [run_bind hx, hf]

theorem get_bind {f : Image → Build β} (hf : ∀ s, s.building = marks → Succeeds marks (f s)) :
    Succeeds marks (get >>= f) :=
  fun s hs => hf s hs s hs

theorem onModule (f : Module → α × Module) : Succeeds marks (Build.onModule f) :=
  fun s hs => ⟨(f s.module).1, { s with module := (f s.module).2 }, rfl, hs⟩

theorem modify {f : Image → Image} (hf : ∀ s, (f s).building = s.building) :
    Succeeds marks (modify f : Build Unit) :=
  fun s hs => ⟨(), f s, rfl, (hf s).trans hs⟩

theorem modifyModule (f : Module → Module) : Succeeds marks (Build.modifyModule f) :=
  modify fun _ => rfl

theorem descriptor_bind {d : DescriptorId} {v : Descriptor} (hv : c.descriptor? d = some v)
    {f : Descriptor → Build β} (hf : Succeeds marks (f v)) :
    Succeeds marks (Build.descriptor c d >>= f) := by
  rw [Build.descriptor, hv]
  exact hf

theorem bitWidth_bind {t : TypeId} (ht : c.FitsWidth t) {f : Nat → Build β}
    (hf : Succeeds marks (f ((c.typeDef t).size * 8))) :
    Succeeds marks (Build.bitWidth c t >>= f) := by
  rw [Build.bitWidth_eq, if_pos ht]
  exact hf

theorem mapM {f : α → Build β} {l : List α} (hf : ∀ a ∈ l, Succeeds marks (f a)) :
    Succeeds marks (l.mapM f) := by
  induction l with
  | nil => exact Succeeds.pure []
  | cons a l ih =>
    rw [List.mapM_cons]
    exact (hf a List.mem_cons_self).bind fun _ =>
      (ih fun b hb => hf b (List.mem_cons_of_mem _ hb)).bind fun _ => Succeeds.pure _

theorem within {x : Build α} (hx : Succeeds marks x) (d : DescriptorId) :
    Succeeds marks (Build.within d x) := by
  intro s hs
  obtain ⟨a, s', hx, hs'⟩ := hx s hs
  exact ⟨a, s', by simp only [Build.within, hx], hs'⟩

theorem whileBuilding {d : DescriptorId} (hd : d ∉ marks) {x : Build α}
    (hx : Succeeds (d :: marks) x) : Succeeds marks (Build.whileBuilding d x) := by
  intro s hs
  obtain ⟨a, s', hx, hs'⟩ := hx { s with building := d :: s.building } (congrArg _ hs)
  refine ⟨a, { s' with building := s'.building.filter (· ≠ d) }, ?_, ?_⟩
  · simp only [Build.whileBuilding, hx]
  · rw [hs', List.filter_cons_of_neg (by simp), List.filter_eq_self]
    intro e he
    rw [decide_eq_true_iff]
    rintro rfl
    exact hd he

end Succeeds

/-! ## Layouts -/

section

variable {layout : TypeId → Build StructId}

theorem storageWith_succeeds {t : TypeId}
    (h : ∀ u ∈ (c.shapeOf t).layouts, Succeeds marks (layout u)) :
    Succeeds marks (storageWith c layout t) := by
  unfold storageWith
  unfold Catalog.shapeOf at h
  split
  · exact Succeeds.pure _
  · rename_i hheld
    rw [if_neg hheld] at h
    exact (h t List.mem_cons_self).bind fun _ => Succeeds.pure _

theorem partStorages_succeeds {t : TypeId} {parts : List Part} {slots : List Shape}
    (hslots : c.partShapes? parts = some slots)
    (h : ∀ slot ∈ slots, ∀ u ∈ slot.layouts, Succeeds marks (layout u)) :
    Succeeds marks (parts.mapM (partStorage c layout t)) := by
  refine Succeeds.mapM fun part hpart => ?_
  obtain ⟨slot, hslot, hshape⟩ :=
    Partial.exists_of_forall₂_right (Partial.mapM_eq_some_iff.1 hslots).flip hpart
  cases part with
  | padding =>
    obtain rfl := Option.some.inj hshape
    exact storageWith_succeeds (h _ hslot)
  | field f =>
    obtain rfl := Option.some.inj hshape
    exact storageWith_succeeds (h _ hslot)
  | zeroSized offset | overflow offset => cases hshape

theorem layoutFields_succeeds {t : TypeId} {slots : List Shape} (hbody : c.body? t = some slots)
    (h : ∀ slot ∈ slots, ∀ u ∈ slot.layouts, Succeeds marks (layout u)) :
    Succeeds marks (layoutFields c layout t) := by
  cases hkind : (c.typeDef t).kind with
  | scalar signed =>
    have hscalar : (c.typeDef t).isScalar = true := by rw [TypeDef.isScalar, hkind]
    simp only [layoutFields, hkind]
    exact Succeeds.bitWidth_bind (Catalog.fitsWidth_of_body? hscalar hbody) (Succeeds.pure _)
  | valueType =>
    simp only [layoutFields, Catalog.body?, hkind] at hbody ⊢
    exact partStorages_succeeds hbody h
  | reference =>
    by_cases hobject : t = Core.object
    · simp only [layoutFields, Catalog.body?, hkind, if_pos hobject] at hbody ⊢
      obtain rfl := Option.some.inj hbody
      exact (h _ List.mem_cons_self _ List.mem_cons_self).bind fun _ => Succeeds.pure _
    · simp only [layoutFields, Catalog.body?, hkind, if_neg hobject] at hbody ⊢
      cases hbase : (c.typeDef t).base with
      | none => simp [hbase] at hbody
      | some base =>
        simp only [hbase] at hbody ⊢
        obtain ⟨own, hown, rfl⟩ := Option.map_eq_some_iff.1 hbody
        refine (h _ List.mem_cons_self _ List.mem_cons_self).bind fun _ => ?_
        exact (partStorages_succeeds hown fun slot hslot =>
          h slot (List.mem_cons_of_mem _ hslot)).bind fun _ => Succeeds.pure _
  | array element =>
    simp only [layoutFields, Catalog.body?, hkind] at hbody ⊢
    obtain rfl := Option.some.inj hbody
    refine (h _ List.mem_cons_self _ List.mem_cons_self).bind fun _ => ?_
    have helement : ∀ u ∈ (c.shapeOf element).layouts, Succeeds marks (layout u) :=
      fun u hu => h (.array (c.shapeOf element) 0) (List.mem_cons_of_mem _ List.mem_cons_self) u hu
    exact (storageWith_succeeds helement).bind fun _ => Succeeds.pure _

end

theorem layoutWithin_succeeds {depth : Nat} {t : TypeId}
    (h : (c.sizeWithin depth t).isSome = true) : Succeeds marks (layoutWithin c depth t) := by
  induction depth generalizing t with
  | zero => simp [Catalog.sizeWithin] at h
  | succ depth ih =>
    rw [Catalog.sizeWithin] at h
    cases hbody : c.body? t with
    | none => simp [hbody] at h
    | some slots =>
      rw [hbody, Option.bind_some, Shape.isSome_sizes?] at h
      rw [layoutWithin]
      refine Succeeds.get_bind fun s _ => ?_
      cases s.layouts.lookup t with
      | some id => exact Succeeds.pure id
      | none =>
        refine (layoutFields_succeeds hbody fun slot hslot u hu => ih (h slot hslot u hu)).bind
          fun fields => (Succeeds.onModule _).bind fun id => ?_
        refine Succeeds.bind (Succeeds.modify ?_) fun _ => Succeeds.pure id
        exact fun _ => rfl

/-- **A type with a struct can be laid out.** -/
theorem layoutOf_succeeds {t : TypeId} (h : c.Laid t) : Succeeds marks (layoutOf c t) :=
  layoutWithin_succeeds h

theorem storageOf_succeeds {t : TypeId} (h : c.Stored t) : Succeeds marks (storageOf c t) :=
  storageWith_succeeds fun u hu => layoutOf_succeeds (h u hu)

/-- **A method that can be declared is declared.** -/
theorem declarationOf_succeeds {m : MethodId} (h : c.Declarable m) :
    Succeeds marks (declarationOf c m) := by
  rw [declarationOf]
  refine Succeeds.get_bind fun s _ => ?_
  cases s.declarations.lookup m with
  | some id => exact Succeeds.pure id
  | none =>
    refine (Succeeds.mapM fun t ht => storageOf_succeeds (h.1 t ht)).bind fun params => ?_
    have hresult : Succeeds marks ((c.method m).result.mapM (storageOf c)) := by
      cases hr : (c.method m).result with
      | none => exact Succeeds.pure none
      | some t =>
        rw [Option.mapM_some, map_eq_pure_bind]
        exact (storageOf_succeeds (h.2 t hr)).bind fun _ => Succeeds.pure _
    refine hresult.bind fun result => (Succeeds.onModule _).bind fun id => ?_
    refine Succeeds.bind (Succeeds.modify ?_) fun _ => Succeeds.pure id
    exact fun _ => rfl

/-! ## Registering -/

theorem register_succeeds (d : DescriptorId) (g : GlobalId) :
    Succeeds marks (register c d g) := by
  rw [register]
  refine Succeeds.get_bind fun s _ => ?_
  cases s.global? d with
  | some registered => exact (Succeeds.modifyModule _).bind fun _ => Succeeds.pure _
  | none =>
    refine Succeeds.bind (Succeeds.modify ?_) fun _ => ?_
    · exact fun _ => rfl
    · split
      · exact (Succeeds.modifyModule _).bind fun _ => Succeeds.pure g
      · exact Succeeds.pure g

theorem requestWith_succeeds {contents : DescriptorId → Build Constant} {d : DescriptorId}
    {v : Descriptor} (hv : c.descriptor? d = some v) (hnested : v.isNested = false)
    (hlaid : c.Laid v.context)
    (hcontents : d ∉ marks → Succeeds (d :: marks) (contents d)) :
    Succeeds marks (requestWith c contents d) := by
  rw [requestWith]
  refine Succeeds.get_bind fun s hs => ?_
  cases s.global? d with
  | some g => exact Succeeds.pure _
  | none =>
    refine Succeeds.descriptor_bind hv ?_
    simp only [hnested, Bool.false_eq_true, if_false]
    split
    · rename_i htakes
      rw [Bool.and_eq_true, Bool.not_eq_true', List.contains_eq_mem, decide_eq_false_iff_not,
        hs] at htakes
      refine ((hcontents htakes.2).whileBuilding htakes.2).bind fun built => ?_
      exact (Succeeds.onModule _).bind fun g => register_succeeds d g
    · exact (layoutOf_succeeds hlaid).bind fun layout =>
        (Succeeds.onModule _).bind fun g => register_succeeds d g

/-! ## Integers and code -/

theorem scalar_succeeds {t : TypeId} {raw : UInt64} {v : Value}
    (h : c.scalar? t raw = some v) : Succeeds marks (scalar c t raw) := by
  unfold scalar
  unfold Catalog.scalar? at h
  dsimp only at h ⊢
  split at h
  · cases h
  · rename_i hwidth
    rw [if_neg hwidth]
    split at h
    · rename_i hraw
      rw [if_pos hraw]
      exact (storageOf_succeeds (Catalog.zero?_eq_some_iff.1 h).1).bind fun _ => Succeeds.pure _
    · rename_i hraw
      rw [if_neg hraw]
      obtain ⟨hwidth, h⟩ := Option.ite_none_right_eq_some.1 h
      exact Succeeds.bitWidth_bind hwidth
        ((layoutOf_succeeds (Catalog.instance?_eq_some_iff.1 h).1).bind fun _ => Succeeds.pure _)

theorem codeContents_succeeds {t : TypeId} (place : Place) {p : CodePointerId} {v : Value}
    (h : c.code? t p = some v) : Succeeds marks (codeContents c t place p) := by
  obtain ⟨m, hp, hm, hlaid, -⟩ := Catalog.code?_eq_some_iff.1 h
  simp only [codeContents, hp]
  exact (declarationOf_succeeds hm).bind fun _ =>
    (layoutOf_succeeds hlaid).bind fun _ => Succeeds.pure _

/-! ## Contents -/

section

variable {contents : DescriptorId → Build Constant} {part : DescriptorId → Option Value}
  {values : DescriptorId → Prop}
  (hparts : ∀ d v, part d = some v → (∀ r ∈ v.references, values r) →
    Succeeds marks (contents d))
  (hrequests : ∀ d, values d → Succeeds marks (requestWith c contents d))

include hparts hrequests

theorem payloadContents_succeeds {t : TypeId} (place : Place) (payload : Payload) {v : Value}
    (h : c.payload? part t payload = some v) (hv : ∀ r ∈ v.references, values r) :
    Succeeds marks (payloadContents c contents t place payload) := by
  cases payload with
  | null => exact scalar_succeeds h
  | scalar raw =>
    simp only [payloadContents, Catalog.payload?] at h ⊢
    split at h
    · rename_i hscalar
      rw [if_pos hscalar]
      exact scalar_succeeds h
    · cases h
  | descriptor d =>
    obtain ⟨w, hw, h⟩ := Option.bind_eq_some_iff.1 h
    refine Succeeds.descriptor_bind hw ?_
    cases hnested : w.isNested with
    | true =>
      rw [if_pos hnested] at h
      exact hparts d v h hv
    | false =>
      rw [if_neg (Bool.eq_false_iff.1 hnested)] at h
      obtain rfl := Option.some.inj h
      exact (hrequests d (hv d (List.mem_singleton.2 rfl))).bind fun _ => Succeeds.pure _
  | code p => cases h

theorem fieldContents_succeeds {o : ObjectValue} {f : FieldId} {v : Value}
    (h : c.held? part f (o.fields.lookup f) = some v) (hv : ∀ r ∈ v.references, values r) :
    Succeeds marks (fieldContents c contents o f) := by
  unfold fieldContents
  dsimp only
  generalize o.fields.lookup f = held at h ⊢
  rcases held with _ | _ | raw | d | p
  · exact (storageOf_succeeds (Catalog.zero?_eq_some_iff.1 h).1).bind fun _ => Succeeds.pure _
  · exact payloadContents_succeeds hparts hrequests _ .null h hv
  · exact payloadContents_succeeds hparts hrequests _ (.scalar raw) h hv
  · exact payloadContents_succeeds hparts hrequests _ (.descriptor d) h hv
  · simp only [Catalog.held?, Catalog.codeField?] at h ⊢
    split at h
    · rename_i htarget
      rw [if_pos htarget]
      exact codeContents_succeeds _ h
    · rename_i htarget
      rw [if_neg htarget]
      split at h
      · rename_i htype
        rw [if_pos htype]
        obtain ⟨target, htarget, h⟩ := Option.bind_eq_some_iff.1 h
        refine (codeContents_succeeds _ htarget).bind fun _ => ?_
        exact (layoutOf_succeeds (Catalog.instance?_eq_some_iff.1 h).1).bind
          fun _ => Succeeds.pure _
      · cases h

theorem regionContents_succeeds {o : ObjectValue} {t : TypeId} {offset : Nat} {vs : List Value}
    (h : c.regionValues? part o t offset = some vs) (hvs : ∀ v ∈ vs, ∀ r ∈ v.references, values r) :
    Succeeds marks (regionContents c contents o t offset) := by
  refine Succeeds.mapM fun p hp => ?_
  obtain ⟨v, hv, hpv⟩ := Partial.exists_of_forall₂_right (Partial.mapM_eq_some_iff.1 h).flip hp
  cases p with
  | padding => exact scalar_succeeds hpv
  | field f => exact fieldContents_succeeds hparts hrequests hpv (hvs v hv)
  | zeroSized offset | overflow offset => cases hpv

omit hparts in
theorem headerContents_succeeds {context : TypeId} {isMutable : Bool} {v : Value}
    (h : c.header? context isMutable = some v) (hv : ∀ r ∈ v.references, values r) :
    Succeeds marks (headerContents c contents context isMutable) := by
  obtain ⟨vtable, word, hvtable, hword, hheader, hobject, rfl⟩ :=
    Catalog.header?_eq_some_iff.1 h
  have htable : values vtable := hv vtable (by simp [Value.references, Value.referencesAll])
  simp only [headerContents, hvtable]
  refine (scalar_succeeds hword).bind fun _ => (hrequests vtable htable).bind fun _ => ?_
  exact (layoutOf_succeeds hheader).bind fun _ =>
    (layoutOf_succeeds hobject).bind fun _ => Succeeds.pure _

omit hparts hrequests in
theorem characters_succeeds {o : ObjectValue} {v : Value} (h : c.characters? o = some v) :
    Succeeds marks (characters c o) := by
  obtain ⟨hstored, units, hunits, -⟩ := Catalog.characters?_eq_some_iff.1 h
  refine (storageOf_succeeds hstored).bind fun _ => Succeeds.bind ?_ fun _ => Succeeds.pure _
  refine Succeeds.mapM fun unit hunit => ?_
  obtain ⟨w, -, hw⟩ :=
    Partial.exists_of_forall₂_right (Partial.mapM_eq_some_iff.1 hunits).flip hunit
  exact scalar_succeeds hw

theorem topContents_succeeds {o : ObjectValue} {t : TypeId} {v : Value}
    (h : c.top? part o t = some v) (hv : ∀ r ∈ v.references, values r) :
    Succeeds marks (topContents c contents o t) := by
  unfold topContents
  rcases Catalog.top?_eq_some_iff.1 h with ⟨ht, hheader⟩ | ⟨ht, hlaid, fields, hfields, rfl⟩
  · rw [if_pos ht]
    exact headerContents_succeeds hrequests hheader hv
  · rw [if_neg ht]
    refine (regionContents_succeeds hparts hrequests hfields fun w hw r hr => ?_).bind fun _ => ?_
    · exact hv r (Value.mem_referencesAll.2 ⟨w, hw, hr⟩)
    · exact (layoutOf_succeeds hlaid).bind fun _ => Succeeds.pure _

theorem classContents_succeeds {o : ObjectValue} {t : TypeId} {base v : Value}
    (h : c.class? part o base t = some v) (hv : ∀ r ∈ v.references, values r)
    (built : Constant) : Succeeds marks (classContents c contents o built t) := by
  obtain ⟨own, hown, h⟩ := Catalog.class?_eq_some_iff.1 h
  unfold classContents
  rcases h with ⟨ht, chars, hchars, rfl⟩ | ⟨ht, hlaid, rfl⟩
  · refine (regionContents_succeeds hparts hrequests hown fun w hw r hr => ?_).bind fun _ => ?_
    · exact hv r (Value.mem_referencesAll.2
        ⟨w, List.mem_append_left _ (List.mem_cons_of_mem _ hw), hr⟩)
    · rw [if_pos ht]
      exact (characters_succeeds hchars).bind fun _ => Succeeds.pure _
  · refine (regionContents_succeeds hparts hrequests hown fun w hw r hr => ?_).bind fun _ => ?_
    · exact hv r (Value.mem_referencesAll.2 ⟨w, List.mem_cons_of_mem _ hw, hr⟩)
    · rw [if_neg ht]
      exact (layoutOf_succeeds hlaid).bind fun _ => Succeeds.pure _

theorem foldlM_classContents_succeeds {o : ObjectValue} {below : List TypeId} {base v : Value}
    (h : below.foldlM (c.class? part o) base = some v) (hv : ∀ r ∈ v.references, values r)
    (built : Constant) : Succeeds marks (below.foldlM (classContents c contents o) built) := by
  induction below generalizing base built with
  | nil => exact Succeeds.pure built
  | cons t below ih =>
    rw [List.foldlM_cons, Option.bind_eq_bind, Option.bind_eq_some_iff] at h
    obtain ⟨w, hw, h⟩ := h
    rw [List.foldlM_cons]
    refine (classContents_succeeds hparts hrequests hw (fun r hr => ?_) built).bind
      fun built => ih h built
    exact hv r (Catalog.references_subset_foldlM h hr)

theorem objectContents_succeeds {o : ObjectValue} {t : TypeId} {v : Value}
    (h : c.object? part o t = some v) (hv : ∀ r ∈ v.references, values r) :
    Succeeds marks (objectContents c contents o t) := by
  obtain ⟨a, top, ha, htop, hbelow⟩ := Catalog.object?_eq_some_iff.1 h
  simp only [objectContents, ha]
  refine (topContents_succeeds hparts hrequests htop fun r hr => ?_).bind
    fun built => foldlM_classContents_succeeds hparts hrequests hbelow hv built
  exact hv r (Catalog.references_subset_foldlM hbelow hr)

theorem arrayContents_succeeds {a : ArrayValue} {v : Value} (h : c.array? part a = some v)
    (hv : ∀ r ∈ v.references, values r) : Succeeds marks (arrayContents c contents a) := by
  obtain ⟨element, base, elements, hkind, hbase, helements, hstored, rfl⟩ :=
    Catalog.array?_eq_some_iff.1 h
  obtain ⟨header, length, hheader, hlength, hlaid, rfl⟩ := Catalog.arrayBase?_eq_some_iff.1 hbase
  have hrest : ∀ (header length : Constant) (layout : StructId) (ks : Build (List Constant)),
      Succeeds marks ks → Succeeds marks (ks >>= fun ks => storageOf c element >>= fun storage =>
        pure (Constant.anon [.named layout [header, length], .array storage ks])) :=
    fun _ _ _ _ hks => hks.bind fun _ => (storageOf_succeeds hstored).bind fun _ => Succeeds.pure _
  simp only [arrayContents, hkind]
  refine (headerContents_succeeds hrequests hheader fun r hr => ?_).bind fun built => ?_
  · exact hv r (List.mem_append_left _ (List.mem_append_left _ hr))
  refine (scalar_succeeds hlength).bind fun builtLength => (layoutOf_succeeds hlaid).bind
    fun layout => ?_
  rcases Catalog.elements?_eq_some_iff.1 helements with
    ⟨values, hvalues, hlen, hmap⟩ | ⟨hvalues, hlen, hscalar, hmap⟩
  · simp only [hvalues]
    refine hrest built builtLength layout _ ?_
    unfold valueElements
    dsimp only
    rw [if_neg (not_not.2 hlen)]
    refine Succeeds.mapM fun entry hp => ?_
    obtain ⟨p, i⟩ := entry
    obtain ⟨w, hw, hpw⟩ := Partial.exists_of_forall₂_right (Partial.mapM_eq_some_iff.1 hmap).flip
      (List.fst_mem_of_mem_zipIdx hp)
    refine payloadContents_succeeds hparts hrequests _ _ hpw fun r hr => hv r ?_
    rw [Value.references, Value.mem_referencesAll]
    exact ⟨_, List.mem_cons_of_mem _ List.mem_cons_self,
      Value.mem_referencesAll.2 ⟨w, hw, hr⟩⟩
  · simp only [hvalues]
    refine hrest built builtLength layout _ ?_
    unfold sourceElements
    dsimp only
    rw [if_neg (not_not.2 hlen)]
    have all : Succeeds marks ((a.source.getD []).mapM (scalar c element)) := by
      refine Succeeds.mapM fun raw hraw => ?_
      obtain ⟨w, -, hw⟩ :=
        Partial.exists_of_forall₂_right (Partial.mapM_eq_some_iff.1 hmap).flip hraw
      exact scalar_succeeds hw
    cases hsource : a.source.getD [] with
    | nil => exact Succeeds.pure []
    | cons raw rest =>
      rw [hsource] at all hscalar
      have hscalar := hscalar.resolve_left (List.cons_ne_nil _ _)
      rw [hscalar]
      exact all

theorem valueContents_succeeds {w : Descriptor} {t : TypeId} {v : Value}
    (h : c.valueAs? part w t = some v) (hv : ∀ r ∈ v.references, values r) :
    Succeeds marks (valueContents c contents w t) := by
  cases w with
  | object o => exact objectContents_succeeds hparts hrequests h hv
  | array a => exact arrayContents_succeeds hparts hrequests h hv

end

/-! ## Depth -/

/-- Marks are values, so there are no more marks than values. -/
theorem length_marks_le (hnodup : marks.Nodup)
    (hmarks : ∀ m ∈ marks, m.index < c.descriptors.length) :
    marks.length ≤ c.descriptors.length := by
  have hsub : marks ⊆ (List.range c.descriptors.length).map DescriptorId.mk := fun m hm =>
    List.mem_map.2 ⟨m.index, List.mem_range.2 (hmarks m hm), rfl⟩
  simpa using hnodup.length_le_of_subset hsub

section

variable {values : DescriptorId → Prop} (hvalues : c.Available values)

include hvalues

/-- Enough depth is left when, for each value that is not marked yet, all values can be under
construction. -/
theorem contentsWithin_succeeds {depth rounds : Nat} (hnodup : marks.Nodup)
    (hmarks : ∀ m ∈ marks, m.index < c.descriptors.length)
    (hdepth : (c.descriptors.length + 1) * (c.descriptors.length - marks.length) + rounds ≤ depth)
    {d : DescriptorId} {t : TypeId} {v : Value} (h : c.valueWithin rounds d t = some v)
    (hv : ∀ r ∈ v.references, values r) : Succeeds marks (contentsWithin c depth d t) := by
  induction depth generalizing marks rounds d t v with
  | zero =>
    obtain rfl : rounds = 0 := by omega
    cases h
  | succ depth ih =>
    obtain _ | rounds := rounds
    · cases h
    rw [Catalog.valueWithin_succ, Option.bind_eq_some_iff] at h
    obtain ⟨w, hw, h⟩ := h
    refine Succeeds.descriptor_bind hw (Succeeds.within ?_ d)
    refine valueContents_succeeds (fun e u he hu => ?_) (fun e he => ?_) h hv
    · obtain ⟨x, hx, hu'⟩ := Option.bind_eq_some_iff.1 he
      refine Succeeds.descriptor_bind hx (ih hnodup hmarks ?_ hu' hu)
      omega
    · obtain ⟨x, u, hx, hnested, hlaid, hu, hrefs⟩ := hvalues.built e he
      refine requestWith_succeeds hx hnested hlaid fun hmark => ?_
      have hlt : e.index < c.descriptors.length := (List.getElem?_eq_some_iff.1 hx).1
      have hnodup' : (e :: marks).Nodup := List.nodup_cons.2 ⟨hmark, hnodup⟩
      have hmarks' : ∀ m ∈ e :: marks, m.index < c.descriptors.length :=
        List.forall_mem_cons.2 ⟨hlt, hmarks⟩
      have hlen := length_marks_le hnodup' hmarks'
      rw [List.length_cons] at hlen
      rw [Catalog.contents?, Catalog.contentsWithin?, hx, Option.bind_some] at hu
      refine Succeeds.descriptor_bind hx (ih hnodup' hmarks' ?_ hu hrefs)
      rw [List.length_cons]
      obtain ⟨k, hk⟩ := Nat.exists_eq_add_of_le hlen
      rw [show c.descriptors.length - marks.length = k + 1 by omega, Nat.mul_add] at hdepth
      rw [show c.descriptors.length - (marks.length + 1) = k by omega]
      omega

theorem contentsOf_succeeds (hnodup : marks.Nodup)
    (hmarks : ∀ m ∈ marks, m.index < c.descriptors.length) {d : DescriptorId} {w : Value}
    (hw : c.contents? d = some w) (hrefs : ∀ r ∈ w.references, values r) :
    Succeeds marks (contentsOf c d) := by
  obtain ⟨v, hv, hw⟩ := Option.bind_eq_some_iff.1 hw
  refine Succeeds.descriptor_bind hv (contentsWithin_succeeds hvalues hnodup hmarks ?_ hw hrefs)
  rw [depthBound, Nat.mul_add (c.descriptors.length + 1) c.descriptors.length 1, Nat.mul_one]
  exact Nat.add_le_add_right (Nat.mul_le_mul_left _ (Nat.sub_le _ _)) _

/-- **A value that is available can be requested.** -/
theorem request_succeeds {d : DescriptorId} (hd : values d) : Succeeds [] (request c d) := by
  obtain ⟨v, w, hv, hnested, hlaid, hw, hrefs⟩ := hvalues.built d hd
  refine requestWith_succeeds hv hnested hlaid fun _ => ?_
  refine contentsOf_succeeds hvalues (List.nodup_singleton d) (fun m hm => ?_) hw hrefs
  obtain rfl := List.mem_singleton.1 hm
  exact (List.getElem?_eq_some_iff.1 hv).1

theorem fill_succeeds {d : DescriptorId} (hd : values d) (g : GlobalId) :
    Succeeds [] (fill c d g) := by
  obtain ⟨v, w, hv, -, -, hw, hrefs⟩ := hvalues.built d hd
  refine (contentsOf_succeeds hvalues List.nodup_nil (fun m hm => absurd hm List.not_mem_nil)
    hw hrefs).bind fun built => ?_
  refine Succeeds.descriptor_bind hv ?_
  split
  · exact (Succeeds.onModule _).bind fun fresh => Succeeds.modifyModule _
  · exact Succeeds.modifyModule _

theorem materialize_succeeds {d : DescriptorId} (hd : values d) :
    Succeeds [] (materialize c d) := by
  refine (request_succeeds hvalues hd).bind fun g => Succeeds.get_bind fun s _ => ?_
  split
  · exact (fill_succeeds hvalues hd g).bind fun _ => Succeeds.pure g
  · exact Succeeds.pure g

/-- **Values that are available can all be filled.** -/
theorem resolveFrom_succeeds {known : TypeId → Prop} (hc : c.Closed known) {s : Image}
    (hs : s.Coherent c known) (hmarks : s.building = [])
    (hentries : ∀ e ∈ s.entries, values e.1) (steps start filled : Nat) :
    ∃ n s', resolveFrom c steps start filled s = .ok n s' := by
  induction steps generalizing s start filled with
  | zero => exact ⟨filled, s, rfl⟩
  | succ steps ih =>
    cases hnext : s.nextPlaceholder? start with
    | none =>
      refine ⟨filled, s, ?_⟩
      rw [resolveFrom, run_bind (run_get s), hnext]
      rfl
    | some found =>
      obtain ⟨i, d, g⟩ := found
      obtain ⟨-, hentry, hempty, -⟩ := nextPlaceholder?_eq_some hs hnext
      have hmem := List.mem_of_getElem? hentry
      obtain ⟨u, s₁, hfill, hmarks₁⟩ := fill_succeeds hvalues (hentries _ hmem) g s hmarks
      obtain ⟨-, hs₁, -, hadds⟩ := (fill_advances hc hs hmem hempty).of_ok hfill
      have hentries₁ : ∀ e ∈ s₁.entries, values e.1 := by
        intro e he
        rcases hadds e he with he | ⟨r, hr, hreach⟩
        · exact hentries e he
        · obtain rfl := List.mem_singleton.1 hr
          exact hvalues.reaches (hentries _ hmem) hreach
      obtain ⟨n, s₂, hrest⟩ := ih hs₁ hmarks₁ hentries₁ (i + 1) (filled + 1)
      refine ⟨n, s₂, ?_⟩
      rw [resolveFrom, run_bind (run_get s), hnext]
      exact (run_bind hfill _).trans hrest

end

end Build

end DataImage
