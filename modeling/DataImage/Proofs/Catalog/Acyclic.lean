import DataImage.Proofs.Catalog.CoreTypes
import DataImage.Proofs.Catalog.Citations
import DataImage.Proofs.Catalog.WellTyped

/-!
# Catalogs without endless containment

There are three ways in which a catalog can ask for something endless: a class can derive from
itself, a value type can hold itself in place, and a value can be put in place inside itself. In an
acyclic catalog (`Catalog.Acyclic`) there is nothing of the kind. Then no layout asks for itself
(`Catalog.Acyclic.not_opens_self`): layouts of value types lead to layouts of value types, those of
classes to their bases, and those of array classes to the class of all arrays.
-/

namespace DataImage.Catalog

variable {c : Catalog}

/-- Whether a class has the other type as its base. -/
def Derives (c : Catalog) (t u : TypeId) : Prop :=
  (c.typeDef t).kind = .reference ∧ (c.typeDef t).base = some u

/-- Whether a value is put in place inside another one. -/
def Inlines (c : Catalog) (d e : DescriptorId) : Prop :=
  ∃ v w, c.descriptor? d = some v ∧ .descriptor e ∈ c.payloads v ∧ c.descriptor? e = some w ∧
    w.isNested = true

/-- **Nothing in an acyclic catalog contains itself**: no class derives from itself, no value type
holds itself in place, no value is put in place inside itself. -/
structure Acyclic (c : Catalog) : Prop where
  inheritance : ∀ t, ¬ Relation.TransGen c.Derives t t
  containment : ∀ t, ¬ Relation.TransGen c.Embeds t t
  inlining : ∀ d, ¬ Relation.TransGen c.Inlines d d

namespace InRange

variable (h : c.InRange) {t : TypeId} {offset : Nat}

include h

theorem notMem_of_valueType (hc : c.Rooted) (ht : (c.typeDef t).kind = .valueType) :
    .overflow offset ∉ c.region t 0 := by
  have hregion := h.regions t (hc.ne_object_of_valueType ht) (Or.inr ht) offset
  rwa [regionStart_of_valueType ht] at hregion

theorem notMem_of_wraps {base : TypeId} (ht : c.Wraps t base) :
    .overflow offset ∉ c.region t (c.typeDef base).size := by
  obtain ⟨kind, ne, isBase⟩ := ht
  have hregion := h.regions t ne (Or.inl kind) offset
  rwa [regionStart_of_base kind isBase] at hregion

end InRange

/-! ## Which layouts a layout asks for -/

/-- The types whose layout a part asks for. -/
def partOpens (c : Catalog) : Part → List TypeId
  | .padding => (c.shapeOf Core.byte).layouts
  | .field f => (c.shapeOf (c.field f).type).layouts
  | .zeroSized _ | .overflow _ => []

/-- The types whose layout the layout of a type asks for. -/
def opens (c : Catalog) (t : TypeId) : List TypeId :=
  match (c.typeDef t).kind with
  | .scalar _ => []
  | .valueType => (c.region t 0).flatMap c.partOpens
  | .reference =>
    if t = Core.object then [Core.objectHeader]
    else match (c.typeDef t).base with
      | none => []
      | some base => base :: (c.region t (c.typeDef base).size).flatMap c.partOpens
  | .array element => Core.array :: (c.shapeOf element).layouts

theorem inPlace_of_mem_partOpens {p : Part} {u : TypeId} (h : u ∈ c.partOpens p) :
    (c.typeDef u).isHeldByReference = false := by
  cases p with
  | padding => exact (eq_of_mem_layouts h).2
  | field f => exact (eq_of_mem_layouts h).2
  | zeroSized offset | overflow offset => exact absurd h List.not_mem_nil

/-- Only known types ask for layouts. -/
theorem mem_knownTypes_of_mem_opens {t u : TypeId} (h : u ∈ c.opens t) : t ∈ c.knownTypes := by
  by_contra hunknown
  rw [opens, typeDef_of_notMem_knownTypes hunknown] at h
  exact absurd h List.not_mem_nil

/-- Only known types have a base. -/
theorem mem_knownTypes_of_derives {t u : TypeId} (h : c.Derives t u) : t ∈ c.knownTypes := by
  by_contra hunknown
  have hkind := h.1
  rw [typeDef_of_notMem_knownTypes hunknown] at hkind
  cases hkind

namespace Acyclic

/-- Types that are made of earlier ones and values that are made of later ones contain no cycle. -/
theorem of_order (hbases : ∀ t ∈ c.knownTypes, ∀ u ∈ (c.typeDef t).base, u.index < t.index)
    (hfields : ∀ t ∈ c.knownTypes, (c.typeDef t).kind = .valueType →
      ∀ u ∈ (c.region t 0).flatMap c.partOpens, u.index < t.index)
    (hparts : ∀ i < c.descriptors.length, ∀ v ∈ c.descriptors[i]?, ∀ p ∈ c.payloads v,
      ∀ j < c.descriptors.length, p = .descriptor ⟨j⟩ →
        (c.descriptors[j]?.any (·.isNested)) = true → i < j) : c.Acyclic where
  inheritance := acyclic_of_rank TypeId.index fun t u h =>
    hbases t (mem_knownTypes_of_derives h) u (Option.mem_def.2 h.2)
  containment := acyclic_of_rank TypeId.index fun t u h => by
    obtain ⟨hkind, hinPlace, f, hf, rfl⟩ := h
    refine hfields t (mem_knownTypes_of_embeds ⟨hkind, hinPlace, f, hf, rfl⟩) hkind _
      (List.mem_flatMap.2 ⟨.field f, hf, ?_⟩)
    rw [partOpens, shapeOf, hinPlace]
    exact List.mem_singleton.2 rfl
  -- values lead to later ones, so what gets smaller is the number of those that follow
  inlining := acyclic_of_rank (fun d => c.descriptors.length - d.index) fun d e h => by
    obtain ⟨v, w, hv, he, hw, hnested⟩ := h
    have hd := (List.getElem?_eq_some_iff.1 hv).1
    have hlt := (List.getElem?_eq_some_iff.1 hw).1
    have hany : c.descriptors[e.index]?.any (·.isNested) = true := by
      rw [show c.descriptors[e.index]? = some w from hw]
      exact hnested
    have := hparts d.index hd v hv _ he e.index hlt rfl hany
    omega

variable (h : c.Acyclic) (hc : c.Rooted)

include h hc

/-- The layouts of types that are held in place come to an end. -/
theorem acc_of_inPlace {t : TypeId} (ht : (c.typeDef t).isHeldByReference = false) :
    Acc (fun u t => u ∈ c.opens t) t := by
  induction t using (wellFounded_embeds h.containment).induction with
  | h t ih =>
    refine ⟨t, fun u hu => ?_⟩
    rcases kind_of_inPlace ht with hscalar | hkind
    · obtain ⟨signed, hkind⟩ := kind_of_isScalar hscalar
      rw [opens, hkind] at hu
      exact absurd hu List.not_mem_nil
    · rw [opens, hkind] at hu
      obtain ⟨p, hp, hu⟩ := List.mem_flatMap.1 hu
      have hinPlace := inPlace_of_mem_partOpens hu
      cases p with
      | padding =>
        obtain ⟨rfl, -⟩ := eq_of_mem_layouts hu
        refine ⟨_, fun w hw => ?_⟩
        obtain ⟨signed, hkind⟩ := kind_of_isScalar (hc.isScalar_core (t := Core.byte) rfl rfl)
        rw [opens, hkind] at hw
        exact absurd hw List.not_mem_nil
      | field f =>
        obtain ⟨rfl, -⟩ := eq_of_mem_layouts hu
        exact ih _ ⟨hkind, hinPlace, f, hp, rfl⟩ hinPlace
      | zeroSized offset | overflow offset => exact absurd hu List.not_mem_nil

theorem acc_object : Acc (fun u t => u ∈ c.opens t) Core.object := by
  refine ⟨_, fun u hu => ?_⟩
  rw [opens, hc.kind_object] at hu
  obtain rfl := List.mem_singleton.1 hu
  exact h.acc_of_inPlace hc (inPlace_of_valueType hc.kind_objectHeader)

/-- The layout of a class comes to an end if that of its base does. -/
theorem acc_of_base {t : TypeId} (hkind : (c.typeDef t).kind = .reference)
    (hbase : ∀ base, (c.typeDef t).base = some base → Acc (fun u t => u ∈ c.opens t) base) :
    Acc (fun u t => u ∈ c.opens t) t := by
  by_cases hobject : t = Core.object
  · rw [hobject]
    exact h.acc_object hc
  · refine ⟨t, fun u hu => ?_⟩
    simp only [opens, hkind, if_neg hobject] at hu
    cases hb : (c.typeDef t).base with
    | none =>
      rw [hb] at hu
      exact absurd hu List.not_mem_nil
    | some base =>
      rw [hb] at hu
      rcases List.mem_cons.1 hu with rfl | hu
      · exact hbase u hb
      · obtain ⟨p, -, hu⟩ := List.mem_flatMap.1 hu
        exact h.acc_of_inPlace hc (inPlace_of_mem_partOpens hu)

theorem acc_array : Acc (fun u t => u ∈ c.opens t) Core.array := by
  refine h.acc_of_base hc hc.kind_array fun base hbase => ?_
  obtain rfl := Option.some.inj (hc.base_array.symm.trans hbase)
  exact h.acc_object hc

/-- **Every layout comes to an end.** -/
theorem acc (t : TypeId) : Acc (fun u t => u ∈ c.opens t) t := by
  have hinheritance : WellFounded fun u t => c.Derives t u :=
    wellFounded_of_acyclic (fun _ _ => mem_knownTypes_of_derives) h.inheritance
  induction t using hinheritance.induction with
  | h t ih =>
    cases hkind : (c.typeDef t).kind with
    | scalar signed =>
      refine ⟨t, fun u hu => ?_⟩
      rw [opens, hkind] at hu
      exact absurd hu List.not_mem_nil
    | valueType => exact h.acc_of_inPlace hc (inPlace_of_valueType hkind)
    | reference => exact h.acc_of_base hc hkind fun base hbase => ih base ⟨hkind, hbase⟩
    | array element =>
      refine ⟨t, fun u hu => ?_⟩
      rw [opens, hkind] at hu
      rcases List.mem_cons.1 hu with rfl | hu
      · exact h.acc_array hc
      · exact h.acc_of_inPlace hc (eq_of_mem_layouts hu).2

/-- **No layout asks for itself**, however many layouts are between. -/
theorem not_opens_self (t : TypeId) : ¬ Relation.TransGen (fun t u => u ∈ c.opens t) t t :=
  acyclic_of_wellFounded ⟨h.acc hc⟩ t

end Acyclic

/-- An array of one cell, which is put in place and refers back to the array. -/
def ring : Catalog :=
  let cell : TypeId := ⟨18⟩
  let cells : TypeId := ⟨19⟩
  let back : FieldId := ⟨8⟩
  let c := ((new 4).addValueType "Cell" 4).2
  let c := (c.addArrayType cell).2
  let c := (c.addField cell "Back" 0 cells).2
  let c := (c.addDescriptor (.array
    { context := cells, isMutable := true, length := 1, values := some [.descriptor ⟨6⟩] })).2
  (c.addDescriptor (.object
    { context := cell, nesting := some ⟨5⟩, isMutable := true,
      fields := [(back, .descriptor ⟨5⟩)] })).2

theorem ring_declared : ring.Declared :=
  (((((Declared.new 4).addValueType _ _).addArrayType _).addField _ _ _ _).addDescriptor
    _).addDescriptor _

theorem ring_acyclic : ring.Acyclic :=
  .of_order (by decide +kernel) (by decide +kernel) (by decide +kernel)

theorem ring_inRange : ring.InRange :=
  .of_all ring_declared.wellDeclared (by decide +kernel) (by decide +kernel)

/-- A value type with a field that ends where no word of 32 bits can point to, and one value of that
type, with nothing in the field. -/
def wide : Catalog :=
  let body : TypeId := ⟨18⟩
  let frame : TypeId := ⟨19⟩
  let c := ((new 4).addValueType "Body" (UInt32.size - 8)).2
  let c := (c.addValueType "Frame" 12).2
  let c := (c.addField frame "Body" 8 body).2
  (c.addDescriptor (.object { context := frame, isMutable := false })).2

theorem wide_declared : wide.Declared :=
  ((((Declared.new 4).addValueType _ _).addValueType _ _).addField _ _ _ _).addDescriptor _

theorem wide_scoped : wide.Scoped := by decide +kernel

/-- The type of the field has no fields itself. -/
theorem wide_eq_padding {offset : Nat} {p : Part} (hp : p ∈ wide.region ⟨18⟩ offset) :
    p = .padding :=
  eq_padding_of_mem_region (fun _ => rfl) hp

theorem wide_acyclic : wide.Acyclic := by
  refine .of_order (by decide +kernel) (fun t ht hkind u hu => ?_) (by decide +kernel)
  by_cases hbody : t = ⟨18⟩
  · subst hbody
    obtain ⟨p, hp, hu⟩ := List.mem_flatMap.1 hu
    obtain rfl := wide_eq_padding hp
    obtain ⟨rfl, -⟩ := eq_of_mem_layouts hu
    decide
  · have hfields : ∀ t ∈ wide.knownTypes, t ≠ ⟨18⟩ → (wide.typeDef t).kind = .valueType →
        ∀ u ∈ (wide.region t 0).flatMap wide.partOpens, u.index < t.index := by decide +kernel
    exact hfields t ht hbody hkind u hu

/-- The value and the virtual tables are well typed. -/
theorem wide_wellTyped : wide.WellTyped fun d => d.index < wide.descriptors.length where
  scalars := fun t ht => by
    have hscalars : ∀ i, i < wide.types.length → (wide.typeDef ⟨i⟩).isScalar = true →
        (wide.typeDef ⟨i⟩).size ≠ 0 ∧ (wide.typeDef ⟨i⟩).size ≤ 8 := by decide +kernel
    exact hscalars t.index ht
  acyclic := wide_acyclic.containment
  notZeroSized := fun t _ hkind offset hmem => by
    by_cases hbody : t = ⟨18⟩
    · subst hbody
      cases wide_eq_padding hmem
    · have hparts : ∀ i, i < wide.types.length → i ≠ 18 →
          (wide.region ⟨i⟩ (wide.regionStart ⟨i⟩)).all
            (fun | .zeroSized _ => false | _ => true) = true := by decide +kernel
      have hlt : t.index < wide.types.length := by
        refine wide_declared.wellDeclared.index_lt_of_kind fun hscalar => ?_
        rw [hscalar] at hkind
        rcases hkind with hkind | hkind <;> cases hkind
      have hne : t.index ≠ 18 := fun hindex => hbody (congrArg TypeId.mk hindex)
      cases List.all_eq_true.1 (hparts t.index hlt hne) _ hmem
  vtables := fun t d hd => vtable_of_all (by decide +kernel) hd
  wellTyped := fun d hd => by
    have hflat : wide.descriptors.all (wide.isFlatObject [Core.vtable, ⟨19⟩]) = true := by
      decide +kernel
    refine ⟨_, List.getElem?_eq_getElem hd, wellTypedValue_of_flat
      (List.all_eq_true.1 hflat _ (List.getElem_mem hd)) (fun t ht => ?_) fun e v hv =>
        (List.getElem?_eq_some_iff.1 hv).1⟩
    rcases List.mem_cons.1 ht with rfl | ht
    · exact Or.inr ⟨[Core.vtable], .derived rfl (by decide) rfl .root, List.not_mem_nil⟩
    · exact Or.inl (List.mem_singleton.1 ht ▸ rfl)

end DataImage.Catalog
