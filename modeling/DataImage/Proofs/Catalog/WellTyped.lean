import DataImage.Proofs.Acyclic
import DataImage.Proofs.Catalog.Chain
import DataImage.Proofs.Catalog.Conforming

/-!
# Well-typed values

`Catalog.WellTyped` says of a set of values that each of them has fields or elements that suit their
types. Nothing is asked of the geometry of types: fields may overlap, leave gaps, or run past the
end of their type. Only a type that contains itself, and a field without bytes where the walk over a
region comes by, are ruled out.

The numbers that layouts are made with are words of 32 bits. Where they suffice (`Catalog.InRange`),
well-typed values can be encoded (`Catalog.Encodable`): they have contents, and their contents
conform to the types (`Encodable.contents`). Value types do not contain themselves, so parts of
parts are dealt with by recursion on the value type that they fill.
-/

namespace DataImage.Catalog

/-! ## What is asked of values -/

/-- Whether a value type holds a value of another type in place. -/
def Embeds (c : Catalog) (t u : TypeId) : Prop :=
  (c.typeDef t).kind = .valueType ∧ (c.typeDef u).isHeldByReference = false ∧
    ∃ f, .field f ∈ c.region t 0 ∧ (c.field f).type = u

/-- What a field or an element of a type may hold: nothing, an integer, the address of a value, or
an instance of the very value type. -/
inductive Suits (c : Catalog) (values : DescriptorId → Prop) (t : TypeId) : Payload → Prop where
  | null : Suits c values t .null
  | scalar {raw : UInt64} (isScalar : (c.typeDef t).isScalar = true) :
    Suits c values t (.scalar raw)
  | reference {d : DescriptorId} {v : Descriptor} (mem : values d)
    (value : c.descriptor? d = some v)
    (notNested : v.isNested = false) (held : (c.typeDef t).isHeldByReference = true) :
    Suits c values t (.descriptor d)
  | part {d : DescriptorId} {o : ObjectValue} (mem : values d)
    (value : c.descriptor? d = some (.object o)) (nested : o.nesting.isSome = true)
    (context : o.context = t) (kind : (c.typeDef t).kind = .valueType) :
    Suits c values t (.descriptor d)

/-- What a field may hold: what suits its type, or the address of a method. -/
inductive SuitsField (c : Catalog) (values : DescriptorId → Prop) (f : FieldId) :
    Payload → Prop where
  | payload {p : Payload} (suits : c.Suits values (c.field f).type p) : SuitsField c values f p
  | code {p : CodePointerId} {m : MethodId} (target : c.codePointer? p = some (.method m))
    (field : f = Core.codePointerTarget ∨ (c.field f).type = Core.codePointer) :
    SuitsField c values f (.code p)

/-- Whether the elements of an array suit its element type, one for each position. -/
def SuitsElements (c : Catalog) (values : DescriptorId → Prop) (a : ArrayValue)
    (element : TypeId) : Prop :=
  match a.values with
  | some payloads => payloads.length = a.length ∧ ∀ p ∈ payloads, c.Suits values element p
  | none => (a.source.getD []).length = a.length ∧
    (a.source.getD [] = [] ∨ (c.typeDef element).isScalar = true)

/-- Whether objects can be of a type: a value type, or a class that does not derive from strings. -/
def Instantiable (c : Catalog) (t : TypeId) : Prop :=
  (c.typeDef t).kind = .valueType ∨ ∃ ts, c.Chain t ts ∧ Core.string ∉ ts.dropLast

/-- Whether a value has fields or elements that suit their types. -/
def WellTypedValue (c : Catalog) (values : DescriptorId → Prop) : Descriptor → Prop
  | .object o => c.Instantiable o.context ∧
    ∀ f p, o.fields.lookup f = some p → c.SuitsField values f p
  | .array a => ∃ element, (c.typeDef a.context).kind = .array element ∧
    c.SuitsElements values a element

/-- **A set of well-typed values**, with all that they refer to and with all virtual tables. -/
structure WellTyped (c : Catalog) (values : DescriptorId → Prop) : Prop where
  /-- Integers have one to eight bytes. -/
  scalars : ∀ t, t.index < c.types.length → (c.typeDef t).isScalar = true →
    (c.typeDef t).size ≠ 0 ∧ (c.typeDef t).size ≤ 8
  /-- No layout contains itself. -/
  acyclic : ∀ t, ¬ Relation.TransGen c.Embeds t t
  /-- No layout contains a field without bytes. -/
  notZeroSized : ∀ t, t ≠ Core.object →
    (c.typeDef t).kind = .reference ∨ (c.typeDef t).kind = .valueType →
    ∀ offset, .zeroSized offset ∉ c.region t (c.regionStart t)
  vtables : ∀ t d, c.vtable? t = some d →
    values d ∧ ∃ v, c.descriptor? d = some v ∧ v.isNested = false
  wellTyped : ∀ d, values d → ∃ v, c.descriptor? d = some v ∧ c.WellTypedValue values v

/-- **Whether words of 32 bits suffice for layouts**: for the width in bits of each integer type,
and for the end of each field that the walk over a type comes by. -/
structure InRange (c : Catalog) : Prop where
  widths : ∀ t, (c.typeDef t).isScalar = true → c.FitsWidth t
  regions : ∀ t, t ≠ Core.object →
    (c.typeDef t).kind = .reference ∨ (c.typeDef t).kind = .valueType →
    ∀ offset, .overflow offset ∉ c.region t (c.regionStart t)

/-- A set of well-typed values with types that words suffice for. -/
structure Encodable (c : Catalog) (values : DescriptorId → Prop) : Prop extends
  c.WellTyped values, c.InRange

variable {c : Catalog} {values : DescriptorId → Prop}

/-- Words suffice for all types if they do for each of the declared ones. -/
theorem InRange.of_all (hc : c.WellDeclared)
    (hwidths : ∀ i, i < c.types.length → (c.typeDef ⟨i⟩).isScalar = true → c.FitsWidth ⟨i⟩)
    (hregions : ∀ i, i < c.types.length → (c.region ⟨i⟩ (c.regionStart ⟨i⟩)).all
      (fun | .overflow _ => false | _ => true) = true) : c.InRange where
  widths := fun t ht => by
    rcases Nat.lt_or_ge t.index c.types.length with hlt | hge
    · exact hwidths t.index hlt ht
    · have hsize : (c.typeDef t).size = 0 := by
        rw [hc.typeDef_eq, declaredType, List.getD_eq_getElem?_getD, List.getElem?_eq_none hge]
        rfl
      exact fitsWidth_of_le (Nat.le_of_eq hsize) (by decide)
  regions := fun t _ hkind offset hmem => by
    have hlt : t.index < c.types.length := by
      refine hc.index_lt_of_kind fun hscalar => ?_
      rw [hscalar] at hkind
      rcases hkind with hkind | hkind <;> cases hkind
    cases List.all_eq_true.1 (hregions t.index hlt) _ hmem

/-- The values of a set that can be referred to. -/
def Referable (c : Catalog) (values : DescriptorId → Prop) (d : DescriptorId) : Prop :=
  values d ∧ ∃ v, c.descriptor? d = some v ∧ v.isNested = false

/-! ## Values without parts -/

/-- Whether a part of a region can be stored and is no instance of a value type. -/
def isFlatPart (c : Catalog) : Part → Bool
  | .padding => true
  | .field f => (c.typeDef (c.field f).type).kind ≠ .valueType
  | .zeroSized _ | .overflow _ => false

/-- Value types without parts do not contain themselves. -/
theorem acyclic_of_flat
    (h : ∀ t, (c.typeDef t).kind = .valueType → (c.region t 0).all c.isFlatPart = true)
    (t : TypeId) : ¬ Relation.TransGen c.Embeds t t := by
  intro hcycle
  obtain ⟨u, hembeds, -⟩ := Relation.TransGen.head'_iff.1 hcycle
  obtain ⟨u', -, hkind, -, f, hf, rfl⟩ := Relation.TransGen.tail'_iff.1 hcycle
  exact of_decide_eq_true (List.all_eq_true.1 (h u' hkind) _ hf) hembeds.1

/-- Whether a payload suits a type without being a part. -/
def suitsFlat (c : Catalog) (t : TypeId) : Payload → Bool
  | .null => true
  | .scalar _ => (c.typeDef t).isScalar
  | .descriptor d => (c.typeDef t).isHeldByReference && (c.descriptor? d).any (!·.isNested)
  | .code _ => false

theorem Suits.of_flat {t : TypeId} {p : Payload} (h : c.suitsFlat t p = true)
    (hvalues : ∀ d v, c.descriptor? d = some v → values d) : c.Suits values t p := by
  cases p with
  | null => exact .null
  | scalar raw => exact .scalar h
  | descriptor d =>
    obtain ⟨hheld, hany⟩ := Bool.and_eq_true_iff.1 h
    cases hv : c.descriptor? d with
    | none =>
      rw [hv] at hany
      cases hany
    | some v =>
      rw [hv, Option.any_some, Bool.not_eq_true'] at hany
      exact .reference (hvalues d v hv) hv hany hheld
  | code p => cases h

/-- Whether a value is an object of one of some types, without parts. -/
def isFlatObject (c : Catalog) (contexts : List TypeId) : Descriptor → Bool
  | .object o => contexts.contains o.context &&
    o.fields.all fun e => c.suitsFlat (c.field e.1).type e.2
  | .array _ => false

theorem wellTypedValue_of_flat {contexts : List TypeId} {v : Descriptor}
    (h : c.isFlatObject contexts v = true) (hcontexts : ∀ t ∈ contexts, c.Instantiable t)
    (hvalues : ∀ d v, c.descriptor? d = some v → values d) : c.WellTypedValue values v := by
  cases v with
  | object o =>
    obtain ⟨hcontext, hfields⟩ := Bool.and_eq_true_iff.1 h
    refine ⟨hcontexts _ (List.contains_iff_mem.1 hcontext), fun f p hp => ?_⟩
    have hsuits := List.all_eq_true.1 hfields _ (Partial.mem_of_lookup_eq_some hp)
    exact .payload (.of_flat hsuits hvalues)
  | array a => cases h

/-- All virtual tables can be referred to if each of them can. -/
theorem vtable_of_all (h : ∀ e ∈ c.vtables, e.2.index < c.descriptors.length ∧
      ((c.descriptor? e.2).all fun v => !v.isNested) = true) {t : TypeId} {d : DescriptorId}
    (hd : c.vtable? t = some d) :
    d.index < c.descriptors.length ∧ ∃ v, c.descriptor? d = some v ∧ v.isNested = false := by
  obtain ⟨hlt, hnested⟩ := h _ (Partial.mem_of_lookup_eq_some hd)
  have hv : c.descriptor? d = some c.descriptors[d.index] := List.getElem?_eq_getElem hlt
  rw [hv, Option.all_some, Bool.not_eq_true'] at hnested
  exact ⟨hlt, _, hv, hnested⟩

theorem pair_flat {t : TypeId}
    (ht : (pair.typeDef t).kind = .reference ∨ (pair.typeDef t).kind = .valueType) :
    ∀ p ∈ pair.region t (pair.regionStart t), pair.isFlatPart p = true := by
  have hflat : ∀ i, i < pair.types.length →
      (pair.region ⟨i⟩ (pair.regionStart ⟨i⟩)).all pair.isFlatPart = true := by decide +kernel
  have hlt : t.index < pair.types.length := by
    refine pair_declared.wellDeclared.index_lt_of_kind fun hscalar => ?_
    rw [hscalar] at ht
    rcases ht with ht | ht <;> cases ht
  exact List.all_eq_true.1 (hflat t.index hlt)

/-- The nodes and the virtual tables are well typed. -/
theorem pair_wellTyped : pair.WellTyped fun d => d.index < pair.descriptors.length where
  scalars := fun t ht => by
    have hscalars : ∀ i, i < pair.types.length → (pair.typeDef ⟨i⟩).isScalar = true →
        (pair.typeDef ⟨i⟩).size ≠ 0 ∧ (pair.typeDef ⟨i⟩).size ≤ 8 := by decide +kernel
    exact hscalars t.index ht
  acyclic := by
    have hflat : ∀ i, i < pair.types.length → (pair.typeDef ⟨i⟩).kind = .valueType →
        (pair.region ⟨i⟩ 0).all pair.isFlatPart = true := by decide +kernel
    refine acyclic_of_flat fun t hkind => hflat t.index ?_ hkind
    refine pair_declared.wellDeclared.index_lt_of_kind fun hscalar => ?_
    rw [hscalar] at hkind
    cases hkind
  notZeroSized := fun t _ hkind offset hmem => by
    cases pair_flat hkind _ hmem
  vtables := fun t d hd => vtable_of_all (by decide +kernel) hd
  wellTyped := fun d hd => by
    have hflat : pair.descriptors.all (pair.isFlatObject [Core.vtable, ⟨18⟩]) = true := by
      decide +kernel
    have hclasses : ∀ t ∈ [Core.vtable, ⟨18⟩], (pair.typeDef t).kind = .reference ∧
        t ≠ Core.object ∧ (pair.typeDef t).base = some Core.object := by decide +kernel
    refine ⟨_, List.getElem?_eq_getElem hd, wellTypedValue_of_flat
      (List.all_eq_true.1 hflat _ (List.getElem_mem hd)) (fun t ht => ?_) fun e v hv =>
        (List.getElem?_eq_some_iff.1 hv).1⟩
    obtain ⟨hkind, hne, hbase⟩ := hclasses t ht
    exact Or.inr ⟨[t], .derived hkind hne hbase .root, List.not_mem_nil⟩

theorem pair_inRange : pair.InRange :=
  .of_all pair_declared.wellDeclared (by decide +kernel) (by decide +kernel)

/-! ## Layouts -/

/-- Only known types hold something in place. -/
theorem mem_knownTypes_of_embeds {t u : TypeId} (h : c.Embeds t u) : t ∈ c.knownTypes := by
  by_contra hunknown
  have hkind := h.1
  rw [typeDef_of_notMem_knownTypes hunknown] at hkind
  cases hkind

/-- Value types are found by recursion on what they hold in place. -/
theorem wellFounded_embeds (h : ∀ t, ¬ Relation.TransGen c.Embeds t t) :
    WellFounded fun u t => c.Embeds t u :=
  wellFounded_of_acyclic (fun _ _ => mem_knownTypes_of_embeds) h

/-- A walk that gets to the end has a shape for each part. -/
theorem exists_partShapes? {parts : List Part} (h : ∀ offset, .zeroSized offset ∉ parts)
    (h' : ∀ offset, .overflow offset ∉ parts) :
    ∃ slots, c.partShapes? parts = some slots := by
  obtain ⟨slots, hslots⟩ := Partial.exists_forall₂ (l := parts)
    (R := fun p s => c.partShape? p = some s) fun p hp => by
      cases p with
      | padding => exact ⟨_, rfl⟩
      | field f => exact ⟨_, rfl⟩
      | zeroSized offset => exact absurd hp (h offset)
      | overflow offset => exact absurd hp (h' offset)
  exact ⟨slots, Partial.mapM_eq_some_iff.2 hslots⟩

/-- A part's shape is that of an integer or that of a field. -/
theorem stored_of_partShapes? {parts : List Part} {slots : List Shape}
    (hslots : c.partShapes? parts = some slots) (hbyte : c.Stored Core.byte)
    (hfields : ∀ f, .field f ∈ parts → c.Stored (c.field f).type) :
    ∀ slot ∈ slots, ∀ u ∈ slot.layouts, c.Laid u := by
  intro slot hslot
  obtain ⟨p, hp, hshape⟩ :=
    Partial.exists_of_forall₂_right (Partial.mapM_eq_some_iff.1 hslots) hslot
  cases p with
  | padding =>
    obtain rfl := Option.some.inj hshape
    exact hbyte
  | field f =>
    obtain rfl := Option.some.inj hshape
    exact hfields f hp
  | zeroSized offset | overflow offset => cases hshape

namespace Encodable

variable (h : c.Encodable values) (hc : c.Rooted)

include h hc

/-- Pointers are as wide as an integer that can be encoded. -/
theorem pointerSize_le : c.pointerSize ≠ 0 ∧ c.pointerSize ≤ 8 := by
  have hsize := h.scalars Core.intPtr
    (Nat.lt_of_lt_of_le (by decide) hc.le_length_types) (hc.isScalar_core rfl rfl)
  rw [hc.size_core rfl] at hsize
  exact hsize

theorem buildable : c.Buildable where
  toRooted := hc
  fits := by
    have hle := (h.pointerSize_le hc).2
    simp only [UInt32.size]
    omega

theorem body?_of_valueType {t : TypeId} (ht : (c.typeDef t).kind = .valueType) :
    ∃ slots, c.body? t = some slots ∧ c.partShapes? (c.region t 0) = some slots := by
  have hzero := h.notZeroSized t (hc.ne_object_of_valueType ht) (Or.inr ht)
  have hrange := h.regions t (hc.ne_object_of_valueType ht) (Or.inr ht)
  rw [regionStart_of_valueType ht] at hzero hrange
  obtain ⟨slots, hslots⟩ := exists_partShapes? (c := c) hzero hrange
  exact ⟨slots, by rw [body?, ht]; exact hslots, hslots⟩

/-- **Whatever is held in place has a struct.** -/
theorem laid_of_inPlace {t : TypeId} (ht : (c.typeDef t).isHeldByReference = false) :
    c.Laid t := by
  induction t using (wellFounded_embeds h.acyclic).induction with
  | _ t ih =>
    rcases kind_of_inPlace ht with hscalar | hkind
    · exact laid_of_isScalar hscalar (h.widths t hscalar)
    · obtain ⟨slots, hbody, hslots⟩ := h.body?_of_valueType hc hkind
      refine laid_iff.2 ⟨slots, hbody, stored_of_partShapes? hslots (h.buildable hc).stored_byte ?_⟩
      intro f hf u hu
      obtain ⟨rfl, hheld⟩ := eq_of_mem_layouts hu
      exact ih _ ⟨hkind, hheld, f, hf, rfl⟩ hheld

theorem stored (t : TypeId) : c.Stored t := by
  intro u hu
  exact h.laid_of_inPlace hc (eq_of_mem_layouts hu).2

theorem declarable (m : MethodId) : c.Declarable m :=
  ⟨fun t _ => h.stored hc t, fun t _ => h.stored hc t⟩

omit hc in
/-- The struct of a class on a chain: that of its base, and its own parts. -/
theorem body?_of_base {t base : TypeId} (ht : (c.typeDef t).kind = .reference)
    (hne : t ≠ Core.object) (hbase : (c.typeDef t).base = some base) :
    ∃ slots, c.body? t = some (.layout base :: slots) ∧
      c.partShapes? (c.region t (c.ownStart t)) = some slots := by
  have hzero := h.notZeroSized t hne (Or.inl ht)
  have hrange := h.regions t hne (Or.inl ht)
  rw [regionStart_of_base ht hbase] at hzero hrange
  obtain ⟨slots, hslots⟩ := exists_partShapes? (c := c) hzero hrange
  refine ⟨slots, ?_, by rw [ownStart, hbase]; exact hslots⟩
  rw [body?, ht]
  dsimp only
  rw [if_neg hne, hbase]
  dsimp only
  rw [hslots, Option.map_some]

theorem laid_of_chain {t : TypeId} {ts : List TypeId} (ht : c.Chain t ts) : c.Laid t := by
  induction ht with
  | root => exact (h.buildable hc).laid_object
  | derived kind ne isBase _ ih =>
    obtain ⟨slots, hbody, hslots⟩ := h.body?_of_base kind ne isBase
    refine laid_iff.2 ⟨_, hbody, fun slot hslot => ?_⟩
    rcases List.mem_cons.1 hslot with rfl | hslot
    · exact fun u hu => List.mem_singleton.1 hu ▸ ih
    · exact stored_of_partShapes? hslots (h.buildable hc).stored_byte (fun f _ => h.stored hc _)
        slot hslot

end Encodable

end DataImage.Catalog
