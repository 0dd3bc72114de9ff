import DataImage.Proofs.Catalog.Chain
import DataImage.Proofs.Catalog.Conforming

/-!
# Virtual tables as they are made

Classes and array types get a virtual table when they are declared: a read-only value that records
the size of an instance and, for an array, of an element (`Catalog.table`). Declarations can put
another value in its place or change it. `Catalog.Tabled` are the catalogs whose declarations do
neither, and **in these every virtual table still records the sizes of its type**
(`Catalog.Tabled.tables`): types keep kinds and sizes for good, and the fields that hold the sizes
are found first in the class of virtual tables.
-/

namespace DataImage

namespace Catalog

variable {c c' c'' : Catalog}

/-- The virtual table of a type as it is made. No size of elements is recorded if it is zero. -/
def table (c : Catalog) (t : TypeId) : ObjectValue where
  context := Core.vtable
  isMutable := false
  fields := (Core.baseSize, .scalar (UInt64.ofNat (c.declaredType t).size)) ::
    if c.elementSize t = 0 then []
    else [(Core.elementSize, .scalar (UInt64.ofNat (c.elementSize t)))]

/-- The catalogs that declarations lead to without touching a virtual table. Types are declared
before they are used as elements and before they get a virtual table. -/
inductive Tabled : Catalog → Prop where
  | new (pointerSize : Nat) : Tabled (new pointerSize)
  | addScalar {c : Catalog} (h : Tabled c) (name : String) (size : Nat) (signed : Bool) :
    Tabled (c.addScalar name size signed).2
  | addValueType {c : Catalog} (h : Tabled c) (name : String) (size : Nat) :
    Tabled (c.addValueType name size).2
  | addClass {c : Catalog} (h : Tabled c) (name : String) (base : TypeId) (size : Nat) :
    Tabled (c.addClass name base size).2
  | addArrayType {c : Catalog} (h : Tabled c) (element : TypeId)
    (declared : element.index < c.types.length) : Tabled (c.addArrayType element).2
  | addField {c : Catalog} (h : Tabled c) (owner : TypeId) (name : String) (offset : Nat)
    (type : TypeId) : Tabled (c.addField owner name offset type).2
  | addMethod {c : Catalog} (h : Tabled c) (d : MethodDef) : Tabled (c.addMethod d).2
  | addDescriptor {c : Catalog} (h : Tabled c) (d : Descriptor) : Tabled (c.addDescriptor d).2
  | updateDescriptor {c : Catalog} (h : Tabled c) (d : DescriptorId)
    (change : Descriptor → Descriptor) (noTable : ∀ t, c.vtable? t ≠ some d) :
    Tabled (c.updateDescriptor d change)
  | addCodePointer {c : Catalog} (h : Tabled c) (target : CodeTarget) :
    Tabled (c.addCodePointer target).2
  | addVtable {c : Catalog} (h : Tabled c) (t : TypeId) (declared : t.index < c.types.length) :
    Tabled (c.addVtable t).2

theorem Tabled.declared (h : c.Tabled) : c.Declared := by
  induction h with
  | new p => exact .new p
  | addScalar _ name size signed ih => exact ih.addScalar name size signed
  | addValueType _ name size ih => exact ih.addValueType name size
  | addClass _ name base size ih => exact ih.addClass name base size
  | addArrayType _ element _ ih => exact ih.addArrayType element
  | addField _ owner name offset type ih => exact ih.addField owner name offset type
  | addMethod _ d ih => exact ih.addMethod d
  | addDescriptor _ d ih => exact ih.addDescriptor d
  | updateDescriptor _ d change _ ih => exact ih.updateDescriptor d change
  | addCodePointer _ target ih => exact ih.addCodePointer target
  | addVtable _ t _ ih => exact ih.addVtable t

/-! ## The fields of a virtual table -/

/-- Whether the two sizes come first among the fields of the class of virtual tables. -/
def SizesFirst (c : Catalog) : Prop :=
  [Core.baseSize, Core.elementSize] <+: (c.declaredType Core.vtable).fields

theorem findFieldWithin_of_own {t : TypeId} {name : String} {f : FieldId}
    (h : c.ownField? t name = some f) (steps : Nat) : c.findFieldWithin name steps t = some f := by
  cases steps with
  | zero => exact h
  | succ steps => simp only [findFieldWithin, h]

theorem Rooted.findField?_baseSize (h : c.Rooted) (hsizes : c.SizesFirst) :
    c.findField? Core.vtable "BaseSize" = some Core.baseSize := by
  obtain ⟨rest, hrest⟩ := hsizes
  refine findFieldWithin_of_own ?_ _
  have hname : (c.field Core.baseSize).name = "BaseSize" := by rw [h.field_core rfl]
  rw [ownField?, ← hrest]
  exact List.find?_cons_of_pos (by simpa using hname)

theorem Rooted.findField?_elementSize (h : c.Rooted) (hsizes : c.SizesFirst) :
    c.findField? Core.vtable "ElementSize" = some Core.elementSize := by
  obtain ⟨rest, hrest⟩ := hsizes
  refine findFieldWithin_of_own ?_ _
  have hname : (c.field Core.baseSize).name = "BaseSize" := by rw [h.field_core rfl]
  have hname' : (c.field Core.elementSize).name = "ElementSize" := by rw [h.field_core rfl]
  rw [ownField?, ← hrest, List.cons_append, List.cons_append,
    List.find?_cons_of_neg (by simp [hname])]
  exact List.find?_cons_of_pos (by simpa using hname')

/-- What is recorded when a virtual table is made. -/
theorem Rooted.vtableFields_eq (h : c.Rooted) (hsizes : c.SizesFirst) (t : TypeId) :
    c.vtableFields t = (c.table t).fields := by
  unfold vtableFields sizeEntry
  rw [h.findField?_baseSize hsizes, h.findField?_elementSize hsizes]
  dsimp only [table]
  split
  · rfl
  · rfl

theorem Rooted.addVtable_of_none (h : c.Rooted) (hsizes : c.SizesFirst) {t : TypeId}
    (ht : c.vtable? t = none) : (c.addVtable t).2 =
      { c with
        descriptors := c.descriptors ++ [.object (c.table t)]
        vtables := Keyed.put t ⟨c.descriptors.length⟩ c.vtables } := by
  unfold Catalog.addVtable
  rw [ht, h.vtableFields_eq hsizes]
  rfl

/-! ## What declarations keep -/

/-- Whether the types of a catalog are types of the other one, but for their fields. -/
structure Retains (c c' : Catalog) : Prop where
  pointerSize : c'.pointerSize = c.pointerSize
  length : c.types.length ≤ c'.types.length
  types : ∀ t, t.index < c.types.length → (c'.declaredType t).bare = (c.declaredType t).bare

/-- **Virtual tables that record the sizes of their types.** -/
structure Tables (c : Catalog) : Prop where
  sizesFirst : c.SizesFirst
  elements : ∀ t e, (c.declaredType t).kind = .array e → e.index < c.types.length
  known : ∀ t d, c.vtable? t = some d → t.index < c.types.length
  tables : ∀ t d, c.vtable? t = some d → c.descriptor? d = some (.object (c.table t))

theorem declaredType_of_le {t : TypeId} (h : c.types.length ≤ t.index) :
    c.declaredType t = default := by
  rw [declaredType, List.getD_eq_getElem?_getD, List.getElem?_eq_none h, Option.getD_none]

namespace Retains

variable (h : c.Retains c') {t : TypeId}

include h

theorem kind (ht : t.index < c.types.length) :
    (c'.declaredType t).kind = (c.declaredType t).kind := by
  have hbare := congrArg TypeDef.kind (h.types t ht)
  exact hbare

theorem size (ht : t.index < c.types.length) :
    (c'.declaredType t).size = (c.declaredType t).size := by
  have hbare := congrArg TypeDef.size (h.types t ht)
  exact hbare

protected theorem trans (h' : c'.Retains c'') : c.Retains c'' where
  pointerSize := h'.pointerSize.trans h.pointerSize
  length := h.length.trans h'.length
  types := fun t ht => (h'.types t (Nat.lt_of_lt_of_le ht h.length)).trans (h.types t ht)

theorem elementSize_eq (hc : c.Tables) (ht : t.index < c.types.length) :
    c'.elementSize t = c.elementSize t := by
  unfold elementSize
  rw [h.kind ht, h.pointerSize]
  cases hkind : (c.declaredType t).kind with
  | array e =>
    have he := hc.elements t e hkind
    simp only [TypeDef.holdingSize, TypeDef.isHeldByReference, h.kind he, h.size he]
    rfl
  | scalar | reference | valueType => rfl

theorem table_eq (hc : c.Tables) (ht : t.index < c.types.length) : c'.table t = c.table t := by
  unfold table
  rw [h.size ht, h.elementSize_eq hc ht]

/-- Virtual tables that stay where they are still record the sizes. -/
theorem tables (hc : c.Tables)
    (hfields : (c.declaredType Core.vtable).fields <+: (c'.declaredType Core.vtable).fields)
    (helements : ∀ t e, c.types.length ≤ t.index → (c'.declaredType t).kind = .array e →
      e.index < c'.types.length)
    (hvtables : ∀ t, c'.vtable? t = c.vtable? t)
    (hdescriptors : ∀ t d, c.vtable? t = some d → c'.descriptor? d = c.descriptor? d) :
    c'.Tables where
  sizesFirst := hc.sizesFirst.trans hfields
  elements := fun t e hkind => by
    rcases Nat.lt_or_ge t.index c.types.length with ht | ht
    · rw [h.kind ht] at hkind
      exact Nat.lt_of_lt_of_le (hc.elements t e hkind) h.length
    · exact helements t e ht hkind
  known := fun t d hd => Nat.lt_of_lt_of_le (hc.known t d (hvtables t ▸ hd)) h.length
  tables := fun t d hd => by
    have hd' : c.vtable? t = some d := hvtables t ▸ hd
    rw [hdescriptors t d hd', h.table_eq hc (hc.known t d hd')]
    exact hc.tables t d hd'

end Retains

theorem retains_of_types_eq (hp : c'.pointerSize = c.pointerSize) (ht : c'.types = c.types) :
    c.Retains c' where
  pointerSize := hp
  length := Nat.le_of_eq (congrArg List.length ht.symm)
  types := fun t _ => by rw [declaredType, declaredType, ht]

theorem retains_declareType (d : TypeDef) : c.Retains (c.declareType d).2 := by
  unfold declareType
  cases c.findType? d.name with
  | some t => exact retains_of_types_eq rfl rfl
  | none =>
    refine ⟨rfl, by simp, fun t ht => congrArg _ ?_⟩
    dsimp only [declaredType]
    rw [List.getD_eq_getElem?_getD, List.getD_eq_getElem?_getD, List.getElem?_append_left ht]

theorem index_lt_declareType (d : TypeDef) :
    (c.declareType d).1.index < (c.declareType d).2.types.length := by
  unfold declareType
  cases hfind : c.findType? d.name with
  | some t =>
    obtain ⟨i, hi, rfl⟩ := Option.map_eq_some_iff.1 hfind
    exact (List.findIdx?_eq_some_iff_getElem.1 hi).1
  | none => simp

theorem retains_addField (owner : TypeId) (name : String) (offset : Nat) (type : TypeId) :
    c.Retains (c.addField owner name offset type).2 ∧
      ∀ t, (c.declaredType t).fields <+:
        ((c.addField owner name offset type).2.declaredType t).fields := by
  have heq : ∀ t : TypeId, (c.addField owner name offset type).2.types[t.index]? =
      c.types[t.index]?.map fun d => if owner.index = t.index
        then { d with fields := d.fields ++ [⟨c.fields.length⟩] } else d := by
    intro t
    unfold addField
    dsimp only
    rw [List.getElem?_modify]
    rfl
  refine ⟨⟨rfl, Nat.le_of_eq (List.length_modify ..).symm, fun t _ => ?_⟩, fun t => ?_⟩
  · rw [declaredType, declaredType, List.getD_eq_getElem?_getD, List.getD_eq_getElem?_getD, heq]
    cases c.types[t.index]? with
    | none => rfl
    | some d =>
      rw [Option.map_some, Option.getD_some, Option.getD_some]
      split <;> rfl
  · rw [declaredType, declaredType, List.getD_eq_getElem?_getD, List.getD_eq_getElem?_getD, heq]
    cases c.types[t.index]? with
    | none => exact List.prefix_rfl
    | some d =>
      rw [Option.map_some, Option.getD_some, Option.getD_some]
      split
      · exact List.prefix_append _ _
      · exact List.prefix_rfl

namespace Tables

variable (h : c.Tables) (hc : c.Rooted)

include h

/-- Declarations that leave types and values alone. -/
theorem congr (hp : c'.pointerSize = c.pointerSize) (htypes : c'.types = c.types)
    (hvtables : c'.vtables = c.vtables) (hdescriptors : c'.descriptors = c.descriptors) :
    c'.Tables := by
  refine (retains_of_types_eq hp htypes).tables h ?_ (fun t e ht hkind => ?_) (fun t => ?_)
    fun t d _ => ?_
  · have hsame : c'.declaredType Core.vtable = c.declaredType Core.vtable := by
      rw [declaredType, declaredType, htypes]
    exact hsame ▸ List.prefix_rfl
  · rw [← htypes] at ht
    rw [declaredType_of_le ht] at hkind
    cases hkind
  · rw [vtable?, vtable?, hvtables]
  · rw [descriptor?, descriptor?, hdescriptors]

/-- New values, and changes of values that are no virtual tables. -/
theorem congr_descriptors {ds : List Descriptor}
    (hds : ∀ t d, c.vtable? t = some d → ds[d.index]? = c.descriptor? d) :
    Tables { c with descriptors := ds } := by
  have hretains : c.Retains { c with descriptors := ds } := retains_of_types_eq rfl rfl
  refine hretains.tables h List.prefix_rfl (fun t e ht hkind => ?_) (fun _ => rfl) hds
  rw [declaredType_of_le (c := { c with descriptors := ds }) ht] at hkind
  cases hkind

include hc

theorem declareType {d : TypeDef} (hd : ∀ e, d.kind = .array e → e.index < c.types.length) :
    (c.declareType d).2.Tables := by
  have hretains := c.retains_declareType d
  refine hretains.tables h ?_ (fun t e ht hkind => ?_) (fun t => vtable?_declareType d t)
    fun t d' _ => ?_
  · have hvtable : Core.vtable.index < c.types.length :=
      Nat.lt_of_lt_of_le (by decide) hc.le_length_types
    unfold Catalog.declareType
    cases c.findType? d.name with
    | some t => exact List.prefix_rfl
    | none =>
      have hsame : (c.types ++ [d]).getD Core.vtable.index default =
          c.declaredType Core.vtable := by
        rw [declaredType, List.getD_eq_getElem?_getD, List.getD_eq_getElem?_getD,
          List.getElem?_append_left hvtable]
      exact hsame ▸ List.prefix_rfl
  · refine Nat.lt_of_lt_of_le ?_ hretains.length
    cases hget : (c.declareType d).2.types[t.index]? with
    | none =>
      rw [declaredType, List.getD_eq_getElem?_getD, hget] at hkind
      cases hkind
    | some d' =>
      rw [declaredType, List.getD_eq_getElem?_getD, hget, Option.getD_some] at hkind
      rcases getElem?_declareType hget with hget' | ⟨-, rfl⟩
      · exact absurd (List.getElem?_eq_some_iff.1 hget').1 (Nat.not_lt.2 ht)
      · exact hd e hkind
  · unfold Catalog.declareType
    cases c.findType? d.name <;> rfl

/-- A new virtual table records the sizes. -/
theorem addVtable {t : TypeId} (ht : t.index < c.types.length) : (c.addVtable t).2.Tables := by
  cases hvtable : c.vtable? t with
  | some d =>
    unfold Catalog.addVtable
    rw [hvtable]
    exact h
  | none =>
    have hlookup : ∀ u d, (c.addVtable t).2.vtable? u = some d →
        u = t ∧ d = ⟨c.descriptors.length⟩ ∨ u ≠ t ∧ c.vtable? u = some d := by
      intro u d hd
      rw [hc.addVtable_of_none h.sizesFirst hvtable, vtable?, Keyed.lookup_put] at hd
      split at hd
      · rename_i hu
        exact Or.inl ⟨hu, (Option.some.inj hd).symm⟩
      · rename_i hu
        exact Or.inr ⟨hu, hd⟩
    have hretains : c.Retains (c.addVtable t).2 := by
      rw [hc.addVtable_of_none h.sizesFirst hvtable]
      exact retains_of_types_eq rfl rfl
    have htypes : (c.addVtable t).2.types = c.types := by
      rw [hc.addVtable_of_none h.sizesFirst hvtable]
    refine ⟨?_, fun u e hkind => ?_, fun u d hd => ?_, fun u d hd => ?_⟩
    · rw [SizesFirst, declaredType, htypes]
      exact h.sizesFirst
    · rw [declaredType, htypes] at hkind
      rw [htypes]
      exact h.elements u e hkind
    · rw [htypes]
      rcases hlookup u d hd with ⟨rfl, -⟩ | ⟨-, hd'⟩
      · exact ht
      · exact h.known u d hd'
    · rcases hlookup u d hd with ⟨rfl, rfl⟩ | ⟨-, hd'⟩
      · rw [hretains.table_eq h ht, hc.addVtable_of_none h.sizesFirst hvtable, descriptor?]
        exact List.getElem?_concat_length
      · have hv := h.tables u d hd'
        rw [hretains.table_eq h (h.known u d hd'), hc.addVtable_of_none h.sizesFirst hvtable,
          descriptor?, List.getElem?_append_left (List.getElem?_eq_some_iff.1 hv).1]
        exact hv

/-- Declaring a type with its virtual table. -/
theorem declareType_addVtable {d : TypeDef}
    (hd : ∀ e, d.kind = .array e → e.index < c.types.length)
    (arrayTypes : List (TypeId × TypeId)) :
    (Catalog.addVtable { (c.declareType d).2 with arrayTypes } (c.declareType d).1).2.Tables := by
  have htables : Tables { (c.declareType d).2 with arrayTypes } :=
    (h.declareType hc hd).congr rfl rfl rfl rfl
  have hrooted : Rooted { (c.declareType d).2 with arrayTypes } :=
    (hc.declareType d).congr rfl rfl rfl rfl
  exact htables.addVtable hrooted (index_lt_declareType d)

end Tables

/-! ## The start -/

theorem tables_new (p : Nat) : (Catalog.new p).Tables := by
  have hcore : Tables { pointerSize := p, types := Core.types p, fields := Core.fields p } := by
    refine ⟨List.prefix_rfl, fun t e hkind => ?_, fun t d hd => (by cases hd),
      fun t d hd => (by cases hd)⟩
    have hnone : ∀ d ∈ Core.types p, ∀ e, d.kind ≠ .array e := by
      simp [Core.types, Core.scalarDef]
    rw [declaredType, List.getD_eq_getElem?_getD] at hkind
    cases hget : (Core.types p)[t.index]? with
    | none => rw [hget] at hkind; cases hkind
    | some d =>
      rw [hget, Option.getD_some] at hkind
      exact absurd hkind (hnone d (List.mem_of_getElem? hget) e)
  have all : ∀ ts : List TypeId, ∀ c : Catalog, c.Rooted → c.Tables →
      (∀ t ∈ ts, t.index < c.types.length) →
      (ts.foldl (fun c t => (c.addVtable t).2) c).Tables := by
    intro ts
    induction ts with
    | nil => exact fun _ _ h _ => h
    | cons t ts ih =>
      intro c hc h hts
      refine ih _ (hc.addVtable t) (h.addVtable hc (hts t List.mem_cons_self)) fun u hu => ?_
      obtain ⟨vtables, descriptors, heq, -⟩ := c.addVtable_eq t
      show u.index < (c.addVtable t).2.types.length
      rw [heq]
      exact hts u (List.mem_cons_of_mem _ hu)
  refine all [Core.object, Core.vtable, Core.array, Core.string] _ (rooted_core p) hcore
    fun t ht => ?_
  have hlt : t.index < 18 := by
    revert t
    decide
  exact hlt

theorem descriptor?_updateDescriptor_of_ne {d e : DescriptorId} (hne : d ≠ e)
    (change : Descriptor → Descriptor) :
    (c.updateDescriptor d change).descriptor? e = c.descriptor? e := by
  have hindex : d.index ≠ e.index := fun heq => hne (congrArg DescriptorId.mk heq)
  rw [descriptor?, updateDescriptor, List.getElem?_modify, descriptor?]
  cases c.descriptors[e.index]? with
  | none => rfl
  | some v => simp [hindex]

/-- **Virtual tables that nobody touches** record the sizes of their types. -/
theorem Tabled.tables (h : c.Tabled) : c.Tables := by
  induction h with
  | new p => exact tables_new p
  | addScalar h name size signed ih =>
    exact ih.declareType h.declared.wellDeclared.toRooted fun e he => by cases he
  | addValueType h name size ih =>
    exact ih.declareType h.declared.wellDeclared.toRooted fun e he => by cases he
  | @addClass c h name base size ih =>
    exact ih.declareType_addVtable h.declared.wellDeclared.toRooted (fun e he => by cases he) _
  | @addArrayType c h element declared ih =>
    unfold Catalog.addArrayType
    cases c.arrayTypes.lookup element with
    | some t => exact ih
    | none =>
      refine ih.declareType_addVtable h.declared.wellDeclared.toRooted (fun e he => ?_) _
      obtain rfl := TypeKind.array.inj he
      exact declared
  | @addField c h owner name offset type ih =>
    obtain ⟨hretains, hfields⟩ := c.retains_addField owner name offset type
    refine hretains.tables ih (hfields Core.vtable) (fun t e ht hkind => ?_) (fun _ => rfl)
      fun _ _ _ => rfl
    have hlength : (c.addField owner name offset type).2.types.length = c.types.length :=
      List.length_modify ..
    rw [declaredType_of_le (by rw [hlength]; exact ht)] at hkind
    cases hkind
  | addMethod _ d ih => exact ih.congr rfl rfl rfl rfl
  | @addDescriptor c _ d ih =>
    refine ih.congr_descriptors fun t d' hd' => ?_
    have hv := ih.tables t d' hd'
    rw [List.getElem?_append_left (List.getElem?_eq_some_iff.1 hv).1]
    rfl
  | @updateDescriptor c _ d change noTable ih =>
    refine ih.congr_descriptors fun t d' hd' => ?_
    have hne : d ≠ d' := fun heq => noTable t (by rw [hd', heq])
    exact descriptor?_updateDescriptor_of_ne hne change
  | addCodePointer _ target ih => exact ih.congr rfl rfl rfl rfl
  | addVtable h t declared ih => exact ih.addVtable h.declared.wellDeclared.toRooted declared

/-! ## Contents -/

/-- Whether the virtual table of a type is the one that was made for the type. -/
def TableAsMade (c : Catalog) (t : TypeId) : Prop :=
  ∃ d, c.vtable? t = some d ∧ c.descriptor? d = some (.object (c.table t))

/-- What is held by reference has the virtual table that was made for it. -/
theorem Tabled.tableAsMade (h : c.Tabled) {t : TypeId}
    (ht : (c.typeDef t).isHeldByReference = true) : c.TableAsMade t := by
  have hc := h.declared.wellDeclared
  have hlt : t.index < c.types.length := by
    refine hc.index_lt_of_kind fun hkind => ?_
    rw [TypeDef.isHeldByReference, hkind] at ht
    cases ht
  have hdef : c.typeDef t = c.types[t.index] := by
    rw [hc.typeDef_eq, declaredType, List.getD_eq_getElem?_getD, List.getElem?_eq_getElem hlt,
      Option.getD_some]
  rw [hdef] at ht
  obtain ⟨d, hd⟩ := Option.isSome_iff_exists.1
    (hc.vtables _ _ (List.getElem?_eq_getElem hlt) ht)
  exact ⟨d, hd, h.tables.tables t d hd⟩

theorem Rooted.chain_vtable (h : c.Rooted) : c.Chain Core.vtable [Core.vtable] :=
  .derived h.kind_vtable (by decide) h.base_vtable .root

namespace Buildable

variable (h : c.Buildable) {values : DescriptorId → Prop}

include h

/-- **A virtual table has contents**, which refer to the virtual table of virtual tables only. -/
theorem table_fills (hwidth : c.pointerSize ≠ 0) {t : TypeId} {d e : DescriptorId}
    (hd : c.descriptor? d = some (.object (c.table t))) (he : c.vtable? Core.vtable = some e)
    (hmem : values e) :
    ∃ v, c.contents? d = some v ∧ c.Fills values (.layout Core.vtable) v := by
  have hscalar : (c.typeDef Core.uint32).isScalar = true := h.isScalar_core rfl rfl
  have hsize : (c.typeDef Core.uint32).size = 4 := by rw [h.size_core rfl]; rfl
  have hshape : c.shapeOf Core.uint32 = .layout Core.uint32 := shapeOf_of_isScalar hscalar
  obtain ⟨header, hheader, hfills⟩ := h.header_fills hwidth he hmem false
  have hbase : ∃ v, c.held? c.contents? Core.baseSize
      ((c.table t).fields.lookup Core.baseSize) = some v ∧
      c.Fills values (.layout Core.uint32) v := by
    rw [← hshape, ← h.type_baseSize]
    refine held_fills_of_isScalar values ?_ ?_ (fun x hx => ?_) _
    · rwa [h.type_baseSize]
    · rw [h.type_baseSize]
      omega
    · exact ⟨_, (Option.some.inj hx).symm⟩
  have helement : ∃ v, c.held? c.contents? Core.elementSize
      ((c.table t).fields.lookup Core.elementSize) = some v ∧
      c.Fills values (.layout Core.uint32) v := by
    rw [← hshape, ← h.type_elementSize]
    refine held_fills_of_isScalar values ?_ ?_ (fun x hx => ?_) _
    · rwa [h.type_elementSize]
    · rw [h.type_elementSize]
      omega
    · dsimp only [table] at hx
      split at hx
      · cases hx
      · exact ⟨_, (Option.some.inj hx).symm⟩
  obtain ⟨base, hbase, hbase'⟩ := hbase
  obtain ⟨element, helement, helement'⟩ := helement
  have hregion : c.regionValues? c.contents? (c.table t) Core.vtable (c.ownStart Core.vtable) =
      some [base, element] := by
    rw [regionValues?, ownStart, h.base_vtable]
    dsimp only
    rw [h.size_object, h.region_vtable]
    simp only [List.mapM_cons, List.mapM_nil, partValue?, hbase, helement]
    rfl
  refine ⟨.named Core.vtable [header, base, element], ?_, rfl,
    conforms_named h.body?_vtable (.cons hfills (.cons hbase' (.cons helement' .nil)))⟩
  rw [contents?_eq, hd, Option.bind_some]
  refine object?_eq_some_iff.2 ⟨_, header, h.chain_vtable.ancestry_eq h.toRooted,
    top?_eq_some_iff.2 (Or.inl ⟨rfl, hheader⟩), ?_⟩
  rw [List.foldlM_cons, class?_eq_some_iff.2 ⟨_, hregion, Or.inr ⟨by decide, h.laid_vtable, rfl⟩⟩]
  rfl

end Buildable

end Catalog

end DataImage
