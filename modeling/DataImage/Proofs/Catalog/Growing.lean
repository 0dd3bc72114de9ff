import DataImage.Proofs.Catalog.Tables

/-!
# Catalogs that grow

Declarations only add: types keep their places, names, kinds, bases and sizes and get further fields
at most, and fields, methods and values stay (`Catalog.Grows`). So a name denotes the same type for
good (`Catalog.Grows.findType?`). Of the values, some are virtual tables, which are made along with
types. `Catalog.Apart` lists the others.
-/

namespace DataImage.Catalog

variable {c c' c'' : Catalog} {t : TypeId} {n : String}

/-! ## Types by name -/

theorem declaredType_congr (h : c'.types = c.types) (t : TypeId) :
    c'.declaredType t = c.declaredType t := by
  rw [declaredType, declaredType, h]

theorem findType?_congr (h : c'.types = c.types) (n : String) :
    c'.findType? n = c.findType? n := by
  rw [findType?, findType?, h]

/-- **A name denotes the type that was declared with it.** -/
theorem Rooted.findType?_eq_some_iff (h : c.Rooted) :
    c.findType? n = some t ↔ t.index < c.types.length ∧ (c.declaredType t).name = n := by
  rw [findType?, Option.map_eq_some_iff]
  constructor
  · rintro ⟨i, hi, rfl⟩
    obtain ⟨hlt, hname, -⟩ := List.findIdx?_eq_some_iff_getElem.1 hi
    refine ⟨hlt, ?_⟩
    rw [declaredType, List.getD_eq_getElem?_getD, List.getElem?_eq_getElem hlt, Option.getD_some]
    exact of_decide_eq_true hname
  · rintro ⟨hlt, rfl⟩
    have hget := List.getElem?_eq_getElem hlt
    refine ⟨t.index, ?_, rfl⟩
    rw [declaredType, List.getD_eq_getElem?_getD, hget, Option.getD_some]
    exact Partial.findIdx?_eq_some_of_nodup h.names hget

theorem findType?_declareType (d : TypeDef) :
    (c.declareType d).2.findType? d.name = some (c.declareType d).1 := by
  unfold declareType
  cases hfind : c.findType? d.name with
  | some t => exact hfind
  | none =>
    rw [findType?, Option.map_eq_none_iff] at hfind
    dsimp only
    rw [findType?, List.findIdx?_append, hfind]
    simp

/-- A declaration of a type adds to the list of types at most. -/
theorem declareType_eq (c : Catalog) (d : TypeDef) :
    ∃ types, (c.declareType d).2 = { c with types } := by
  unfold declareType
  cases c.findType? d.name with
  | some t => exact ⟨c.types, rfl⟩
  | none => exact ⟨_, rfl⟩

/-! ## Growing -/

/-- What all declarations keep. -/
structure Grows (c c' : Catalog) : Prop extends c.Retains c' where
  members : ∀ t, (c.declaredType t).fields <+: (c'.declaredType t).fields
  fields : c.fields <+: c'.fields
  methods : c.methods <+: c'.methods
  descriptors : c.descriptors <+: c'.descriptors

namespace Grows

protected theorem refl (c : Catalog) : c.Grows c where
  toRetains := retains_of_types_eq rfl rfl
  members := fun _ => List.prefix_rfl
  fields := List.prefix_rfl
  methods := List.prefix_rfl
  descriptors := List.prefix_rfl

protected theorem trans (h : c.Grows c') (h' : c'.Grows c'') : c.Grows c'' where
  toRetains := h.toRetains.trans h'.toRetains
  members := fun t => (h.members t).trans (h'.members t)
  fields := h.fields.trans h'.fields
  methods := h.methods.trans h'.methods
  descriptors := h.descriptors.trans h'.descriptors

/-- New values, virtual tables and array types leave the types alone. -/
theorem of_types_eq (hp : c'.pointerSize = c.pointerSize) (ht : c'.types = c.types)
    (hf : c'.fields = c.fields) (hm : c.methods <+: c'.methods)
    (hd : c.descriptors <+: c'.descriptors) : c.Grows c' where
  toRetains := retains_of_types_eq hp ht
  members := fun t => declaredType_congr ht t ▸ List.prefix_rfl
  fields := hf ▸ List.prefix_rfl
  methods := hm
  descriptors := hd

section

variable (h : c.Grows c')

include h

theorem name (ht : t.index < c.types.length) :
    (c'.declaredType t).name = (c.declaredType t).name := by
  have hbare := congrArg TypeDef.name (h.types t ht)
  exact hbare

theorem base (ht : t.index < c.types.length) :
    (c'.declaredType t).base = (c.declaredType t).base := by
  have hbare := congrArg TypeDef.base (h.types t ht)
  exact hbare

/-- **Names denote the same types for good.** -/
theorem findType? (hc : c.Rooted) (hc' : c'.Rooted) (ht : c.findType? n = some t) :
    c'.findType? n = some t := by
  obtain ⟨hlt, hname⟩ := hc.findType?_eq_some_iff.1 ht
  exact hc'.findType?_eq_some_iff.2 ⟨Nat.lt_of_lt_of_le hlt h.length, (h.name hlt).trans hname⟩

theorem field {f : FieldId} (hf : f.index < c.fields.length) : c'.field f = c.field f := by
  obtain ⟨r, hr⟩ := h.fields
  rw [Catalog.field, Catalog.field, List.getD_eq_getElem?_getD, List.getD_eq_getElem?_getD, ← hr,
    List.getElem?_append_left hf]

theorem descriptor? {d : DescriptorId} {v : Descriptor} (hv : c.descriptor? d = some v) :
    c'.descriptor? d = some v :=
  Partial.getElem?_of_prefix h.descriptors hv

end

end Grows

theorem grows_declareType (d : TypeDef) : c.Grows (c.declareType d).2 := by
  have hretains := c.retains_declareType d
  unfold declareType at hretains ⊢
  cases hfind : c.findType? d.name with
  | some t => exact .refl c
  | none =>
    rw [hfind] at hretains
    refine ⟨hretains, fun t => ?_, List.prefix_rfl, List.prefix_rfl, List.prefix_rfl⟩
    rcases Nat.lt_or_ge t.index c.types.length with ht | ht
    · have heq : (c.types ++ [d]).getD t.index default = c.types.getD t.index default := by
        rw [List.getD_eq_getElem?_getD, List.getD_eq_getElem?_getD, List.getElem?_append_left ht]
      exact (congrArg TypeDef.fields heq) ▸ List.prefix_rfl
    · rw [declaredType_of_le ht]
      exact List.nil_prefix

theorem addVtable_of_eq_none (ht : c.vtable? t = none) : (c.addVtable t).2 =
    { c with
      descriptors := c.descriptors ++
        [.object { context := Core.vtable, isMutable := false, fields := c.vtableFields t }]
      vtables := Keyed.put t ⟨c.descriptors.length⟩ c.vtables } := by
  unfold addVtable
  rw [ht]
  rfl

theorem addVtable_of_eq_some {d : DescriptorId} (ht : c.vtable? t = some d) :
    (c.addVtable t).2 = c := by
  unfold addVtable
  rw [ht]

theorem vtable?_addVtable (ht : c.vtable? t = none) (u : TypeId) :
    (c.addVtable t).2.vtable? u =
      if u = t then some ⟨c.descriptors.length⟩ else c.vtable? u := by
  rw [addVtable_of_eq_none ht]
  exact Keyed.lookup_put t u _ c.vtables

theorem types_addVtable (t : TypeId) : (c.addVtable t).2.types = c.types := by
  obtain ⟨vtables, descriptors, heq, -⟩ := c.addVtable_eq t
  rw [heq]

theorem grows_addVtable (t : TypeId) : c.Grows (c.addVtable t).2 := by
  cases ht : c.vtable? t with
  | some d => rw [addVtable_of_eq_some ht]; exact .refl c
  | none =>
    rw [addVtable_of_eq_none ht]
    exact .of_types_eq rfl rfl rfl List.prefix_rfl (List.prefix_append _ _)

theorem grows_addClass (name : String) (base : TypeId) (size : Nat) :
    c.Grows (c.addClass name base size).2 :=
  (grows_declareType _).trans (grows_addVtable _)

/-- The array type of an element type, as it is declared. -/
def arrayDef (c : Catalog) (element : TypeId) : TypeDef where
  name := (c.declaredType element).name ++ "[]"
  kind := .array element
  base := some Core.array
  size := (c.declaredType Core.array).size

/-- The catalog in which an array type is declared and has no virtual table yet. -/
def withArrayType (c : Catalog) (element : TypeId) : Catalog :=
  { (c.declareType (c.arrayDef element)).2 with
    arrayTypes := Keyed.put element (c.declareType (c.arrayDef element)).1
      (c.declareType (c.arrayDef element)).2.arrayTypes }

theorem addArrayType_of_eq_none {element : TypeId} (h : c.arrayTypes.lookup element = none) :
    c.addArrayType element = ((c.declareType (c.arrayDef element)).1,
      ((c.withArrayType element).addVtable (c.declareType (c.arrayDef element)).1).2) := by
  unfold addArrayType
  rw [h]
  rfl

theorem addArrayType_of_eq_some {element : TypeId} (h : c.arrayTypes.lookup element = some t) :
    c.addArrayType element = (t, c) := by
  unfold addArrayType
  rw [h]

/-- A class and its virtual table leave the members of types alone. -/
theorem addClass_eq (c : Catalog) (name : String) (base : TypeId) (size : Nat) :
    ∃ types vtables descriptors, (c.addClass name base size).2 =
      { c with types, vtables, descriptors } := by
  obtain ⟨types, htypes⟩ := c.declareType_eq { name, kind := .reference, base := some base, size }
  obtain ⟨vtables, descriptors, htable, -⟩ := addVtable_eq
    (c.declareType { name, kind := .reference, base := some base, size }).2
    (c.declareType { name, kind := .reference, base := some base, size }).1
  refine ⟨types, vtables, descriptors, htable.trans ?_⟩
  rw [htypes]

/-- An array type and its virtual table leave the members of types alone. -/
theorem addArrayType_eq (c : Catalog) (element : TypeId) :
    ∃ types vtables descriptors arrayTypes, (c.addArrayType element).2 =
      { c with types, vtables, descriptors, arrayTypes } := by
  cases h : c.arrayTypes.lookup element with
  | some t =>
    rw [addArrayType_of_eq_some h]
    exact ⟨c.types, c.vtables, c.descriptors, c.arrayTypes, rfl⟩
  | none =>
    obtain ⟨types, htypes⟩ := c.declareType_eq (c.arrayDef element)
    obtain ⟨vtables, descriptors, htable, -⟩ :=
      (c.withArrayType element).addVtable_eq (c.declareType (c.arrayDef element)).1
    rw [addArrayType_of_eq_none h]
    dsimp only
    rw [htable, withArrayType, htypes]
    exact ⟨_, _, _, _, rfl⟩

theorem grows_addArrayType (element : TypeId) : c.Grows (c.addArrayType element).2 := by
  cases h : c.arrayTypes.lookup element with
  | some t => rw [addArrayType_of_eq_some h]; exact .refl c
  | none =>
    have hwith : (c.declareType (c.arrayDef element)).2.Grows (c.withArrayType element) :=
      .of_types_eq rfl rfl rfl List.prefix_rfl List.prefix_rfl
    rw [addArrayType_of_eq_none h]
    exact ((grows_declareType _).trans hwith).trans (grows_addVtable _)

theorem grows_addField (owner : TypeId) (name : String) (offset : Nat) (type : TypeId) :
    c.Grows (c.addField owner name offset type).2 := by
  obtain ⟨hretains, hmembers⟩ := c.retains_addField owner name offset type
  exact ⟨hretains, hmembers, List.prefix_append _ _, List.prefix_rfl, List.prefix_rfl⟩

theorem grows_addMethod (d : MethodDef) : c.Grows (c.addMethod d).2 :=
  .of_types_eq rfl rfl rfl (List.prefix_append _ _) List.prefix_rfl

theorem grows_addDescriptor (d : Descriptor) : c.Grows (c.addDescriptor d).2 :=
  .of_types_eq rfl rfl rfl List.prefix_rfl (List.prefix_append _ _)

/-! ## Fields -/

/-- The field that a declaration adds. -/
theorem field_addField (owner : TypeId) (name : String) (offset : Nat) (type : TypeId) :
    (c.addField owner name offset type).2.field (c.addField owner name offset type).1 =
      { name, owner, offset, type } := by
  rw [addField, field, List.getD_eq_getElem?_getD]
  simp

theorem mem_fields_addField {owner : TypeId} (h : owner.index < c.types.length) (name : String)
    (offset : Nat) (type : TypeId) : (c.addField owner name offset type).1 ∈
      ((c.addField owner name offset type).2.declaredType owner).fields := by
  rw [addField, declaredType, List.getD_eq_getElem?_getD]
  simp [List.getElem?_eq_getElem h]

/-- A field that is found by a name has the name. -/
theorem name_of_findField? {f : FieldId} (h : c.findField? t n = some f) :
    (c.field f).name = n := by
  have own : ∀ {u f}, c.ownField? u n = some f → (c.field f).name = n := by
    intro u f h
    rw [ownField?] at h
    simpa using List.find?_some h
  have within : ∀ steps u f, c.findFieldWithin n steps u = some f → (c.field f).name = n := by
    intro steps
    induction steps with
    | zero => exact fun u f h => own h
    | succ steps ih =>
      intro u f h
      rw [findFieldWithin] at h
      cases hown : c.ownField? u n with
      | some g =>
        rw [hown] at h
        exact own (hown.trans h)
      | none =>
        rw [hown] at h
        dsimp only at h
        split at h
        · cases h
        · obtain ⟨base, -, h⟩ := Option.bind_eq_some_iff.1 h
          exact ih base f h
  exact within _ t f h

/-! ## Values that are no virtual tables -/

/-- Whether a value is the virtual table of a type. -/
def IsTable (c : Catalog) (d : DescriptorId) : Prop := ∃ t, c.vtable? t = some d

/-- Whether a list has the values that are no virtual tables, and no others. -/
def Apart (c : Catalog) (ds : List DescriptorId) : Prop :=
  ∀ d, d ∈ ds ↔ d.index < c.descriptors.length ∧ ¬ c.IsTable d

theorem Apart.congr {ds : List DescriptorId} (h : c.Apart ds)
    (hlength : c'.descriptors.length = c.descriptors.length)
    (hvtables : c'.vtables = c.vtables) : c'.Apart ds := by
  intro d
  rw [h d, hlength, IsTable, IsTable]
  simp only [vtable?, hvtables]

theorem isTable_addVtable_iff (ht : c.vtable? t = none) {d : DescriptorId} :
    (c.addVtable t).2.IsTable d ↔ d = ⟨c.descriptors.length⟩ ∨ c.IsTable d := by
  have hlookup := vtable?_addVtable ht
  constructor
  · rintro ⟨u, hu⟩
    rw [hlookup] at hu
    split at hu
    · exact Or.inl (Option.some.inj hu).symm
    · exact Or.inr ⟨u, hu⟩
  · rintro (rfl | ⟨u, hu⟩)
    · exact ⟨t, by rw [hlookup, if_pos rfl]⟩
    · refine ⟨u, ?_⟩
      rw [hlookup, if_neg, hu]
      rintro rfl
      rw [ht] at hu
      cases hu

theorem Apart.addVtable {ds : List DescriptorId} (h : c.Apart ds) (t : TypeId) :
    (c.addVtable t).2.Apart ds := by
  cases ht : c.vtable? t with
  | some d => rw [addVtable_of_eq_some ht]; exact h
  | none =>
    intro d
    have hlength : (c.addVtable t).2.descriptors.length = c.descriptors.length + 1 := by
      rw [addVtable_of_eq_none ht]
      exact List.length_append
    rw [h d, isTable_addVtable_iff ht, hlength]
    obtain ⟨i⟩ := d
    rw [DescriptorId.mk.injEq, not_or]
    dsimp only
    constructor
    · rintro ⟨hlt, htable⟩
      exact ⟨by omega, by omega, htable⟩
    · rintro ⟨hlt, hne, htable⟩
      exact ⟨by omega, htable⟩

theorem Apart.declareType {ds : List DescriptorId} (h : c.Apart ds) (d : TypeDef) :
    (c.declareType d).2.Apart ds := by
  unfold Catalog.declareType
  cases c.findType? d.name with
  | some t => exact h
  | none => exact h.congr rfl rfl

theorem Apart.addClass {ds : List DescriptorId} (h : c.Apart ds) (name : String) (base : TypeId)
    (size : Nat) : (c.addClass name base size).2.Apart ds :=
  (h.declareType _).addVtable _

theorem Apart.addArrayType {ds : List DescriptorId} (h : c.Apart ds) (element : TypeId) :
    (c.addArrayType element).2.Apart ds := by
  cases hlookup : c.arrayTypes.lookup element with
  | some t => rw [addArrayType_of_eq_some hlookup]; exact h
  | none =>
    have hwith : (c.withArrayType element).Apart ds :=
      (h.declareType (c.arrayDef element)).congr rfl rfl
    rw [addArrayType_of_eq_none hlookup]
    exact hwith.addVtable _

/-- A new value is no virtual table. -/
theorem Apart.addDescriptor {ds : List DescriptorId} (h : c.Apart ds)
    (hknown : ∀ d, c.IsTable d → d.index < c.descriptors.length) (v : Descriptor) :
    (c.addDescriptor v).2.Apart (ds ++ [(c.addDescriptor v).1]) := by
  intro d
  have hlength : (c.addDescriptor v).2.descriptors.length = c.descriptors.length + 1 :=
    List.length_append
  rw [List.mem_append, List.mem_singleton, h d, hlength]
  change _ ∨ d = ⟨c.descriptors.length⟩ ↔ _ ∧ ¬ c.IsTable d
  obtain ⟨i⟩ := d
  rw [DescriptorId.mk.injEq]
  dsimp only
  constructor
  · rintro (⟨hlt, htable⟩ | rfl)
    · exact ⟨by omega, htable⟩
    · exact ⟨by omega, fun htable => Nat.lt_irrefl _ (hknown _ htable)⟩
  · rintro ⟨hlt, htable⟩
    by_cases hi : i = c.descriptors.length
    · exact Or.inr hi
    · exact Or.inl ⟨by omega, htable⟩

theorem Tables.index_lt (h : c.Tables) {d : DescriptorId} (hd : c.IsTable d) :
    d.index < c.descriptors.length := by
  obtain ⟨t, ht⟩ := hd
  exact (List.getElem?_eq_some_iff.1 (h.tables t d ht)).1

/-- The core types with some virtual tables. -/
theorem new_eq (p : Nat) : ∃ vtables descriptors, new p =
    { pointerSize := p, types := Core.types p, fields := Core.fields p, vtables, descriptors } := by
  have hfold : ∀ (ts : List TypeId) (c : Catalog), ∃ vtables descriptors,
      ts.foldl (fun c t => (c.addVtable t).2) c = { c with vtables, descriptors } := by
    intro ts
    induction ts with
    | nil => exact fun c => ⟨c.vtables, c.descriptors, rfl⟩
    | cons t ts ih =>
      intro c
      obtain ⟨vtables, descriptors, heq, -⟩ := c.addVtable_eq t
      obtain ⟨vtables', descriptors', heq'⟩ := ih (c.addVtable t).2
      exact ⟨vtables', descriptors', heq'.trans (by rw [heq])⟩
  exact hfold _ _

/-- At the start there are virtual tables only. -/
theorem apart_new (p : Nat) : (new p).Apart [] := by
  have hbare : Apart { pointerSize := p, types := Core.types p, fields := Core.fields p } [] :=
    fun d => ⟨fun hd => absurd hd List.not_mem_nil, fun hd => absurd hd.1 (Nat.not_lt_zero _)⟩
  exact (((hbare.addVtable _).addVtable _).addVtable _).addVtable _

end DataImage.Catalog
