import DataImage.Proofs.Catalog.Declared
import DataImage.Proofs.Catalog.Forms
import DataImage.Proofs.Catalog.Regions

/-!
# Core types in a catalog

In every catalog that is made by declarations the core types are where `Core` says, with the kinds,
bases, sizes and fields of the start (`Catalog.Rooted.typeDef_core`, `Catalog.Rooted.field_core`).
Where pointers are not too wide (`Catalog.Buildable`), their regions are known, and they have
structs.
-/

namespace DataImage

namespace Core

/-- One UTF-16 code unit. -/
def char : TypeId := ⟨3⟩

/-- The size of an instance in a virtual table. -/
def baseSize : FieldId := ⟨2⟩

/-- The size of an element in a virtual table. -/
def elementSize : FieldId := ⟨3⟩

end Core

namespace Catalog

variable {c : Catalog}

namespace Rooted

variable (h : c.Rooted)

include h

theorem typeDef_eq (t : TypeId) : c.typeDef t = c.declaredType t := by
  rw [typeDef, h.revisions]
  rfl

/-- A core type is as it was at the start, but for the list of its fields. -/
theorem typeDef_core {t : TypeId} {d : TypeDef}
    (hd : (Core.types c.pointerSize)[t.index]? = some d) : (c.typeDef t).bare = d.bare := by
  have hbare : (c.types.map TypeDef.bare)[t.index]? = some d.bare := by
    obtain ⟨r, hr⟩ := h.types
    have hlt : t.index < ((Core.types c.pointerSize).map TypeDef.bare).length := by
      rw [List.length_map]
      exact (List.getElem?_eq_some_iff.1 hd).1
    rw [← hr, List.getElem?_append_left hlt, List.getElem?_map, hd, Option.map_some]
  rw [List.getElem?_map, Option.map_eq_some_iff] at hbare
  obtain ⟨e, he, hed⟩ := hbare
  rw [h.typeDef_eq, declaredType, List.getD_eq_getElem?_getD, he, Option.getD_some, hed]

theorem kind_core {t : TypeId} {d : TypeDef}
    (hd : (Core.types c.pointerSize)[t.index]? = some d) : (c.typeDef t).kind = d.kind := by
  have hbare := congrArg TypeDef.kind (h.typeDef_core hd)
  exact hbare

theorem size_core {t : TypeId} {d : TypeDef}
    (hd : (Core.types c.pointerSize)[t.index]? = some d) : (c.typeDef t).size = d.size := by
  have hbare := congrArg TypeDef.size (h.typeDef_core hd)
  exact hbare

theorem base_core {t : TypeId} {d : TypeDef}
    (hd : (Core.types c.pointerSize)[t.index]? = some d) : (c.typeDef t).base = d.base := by
  have hbare := congrArg TypeDef.base (h.typeDef_core hd)
  exact hbare

theorem field_core {f : FieldId} {d : FieldDef}
    (hf : (Core.fields c.pointerSize)[f.index]? = some d) : c.field f = d := by
  obtain ⟨r, hr⟩ := h.fields
  rw [field, List.getD_eq_getElem?_getD, ← hr,
    List.getElem?_append_left (List.getElem?_eq_some_iff.1 hf).1, hf, Option.getD_some]

/-- The field that a core type declared at the start is the one that is found. -/
theorem fieldAt?_core {t : TypeId} {offset i : Nat}
    (hf : (Core.fields c.pointerSize).findIdx? (fun f => f.owner = t && f.offset = offset) =
      some i) : c.fieldAt? t offset = some ⟨i⟩ := by
  obtain ⟨r, hr⟩ := h.fields
  rw [fieldAt?, ← hr, List.findIdx?_append, hf]
  rfl

/-! ## The types that instances start with -/

theorem kind_object : (c.typeDef Core.object).kind = .reference := by rw [h.kind_core rfl]

theorem size_object : (c.typeDef Core.object).size = 4 + c.pointerSize := by rw [h.size_core rfl]

theorem kind_objectHeader : (c.typeDef Core.objectHeader).kind = .valueType := by
  rw [h.kind_core rfl]

theorem size_objectHeader : (c.typeDef Core.objectHeader).size = 4 + c.pointerSize := by
  rw [h.size_core rfl]

theorem kind_vtable : (c.typeDef Core.vtable).kind = .reference := by rw [h.kind_core rfl]

theorem base_vtable : (c.typeDef Core.vtable).base = some Core.object := by rw [h.base_core rfl]

theorem size_vtable : (c.typeDef Core.vtable).size = 4 + c.pointerSize + 8 := by
  rw [h.size_core rfl]

theorem kind_array : (c.typeDef Core.array).kind = .reference := by rw [h.kind_core rfl]

theorem base_array : (c.typeDef Core.array).base = some Core.object := by rw [h.base_core rfl]

theorem size_array : (c.typeDef Core.array).size = 4 + c.pointerSize + 4 := by
  rw [h.size_core rfl]

theorem kind_string : (c.typeDef Core.string).kind = .reference := by rw [h.kind_core rfl]

theorem base_string : (c.typeDef Core.string).base = some Core.object := by rw [h.base_core rfl]

theorem size_string : (c.typeDef Core.string).size = 4 + c.pointerSize + 4 := by
  rw [h.size_core rfl]

theorem ne_object_of_valueType {t : TypeId} (ht : (c.typeDef t).kind = .valueType) :
    t ≠ Core.object := by
  rintro rfl
  rw [h.kind_object] at ht
  cases ht

theorem ne_string_of_valueType {t : TypeId} (ht : (c.typeDef t).kind = .valueType) :
    t ≠ Core.string := by
  rintro rfl
  rw [h.kind_string] at ht
  cases ht

theorem type_multiUseWord : (c.field Core.multiUseWord).type = Core.uint32 := by
  rw [h.field_core rfl]

theorem type_headerVtable : (c.field Core.headerVtable).type = Core.vtable := by
  rw [h.field_core rfl]

theorem type_baseSize : (c.field Core.baseSize).type = Core.uint32 := by rw [h.field_core rfl]

theorem type_elementSize : (c.field Core.elementSize).type = Core.uint32 := by
  rw [h.field_core rfl]

theorem type_arrayLength : (c.field Core.arrayLength).type = Core.int32 := by
  rw [h.field_core rfl]

theorem type_stringLength : (c.field Core.stringLength).type = Core.int32 := by
  rw [h.field_core rfl]

theorem type_firstChar : (c.field Core.firstChar).type = Core.char := by
  rw [h.field_core rfl]
  rfl

theorem type_codePointerTarget : (c.field Core.codePointerTarget).type = Core.intPtr := by
  rw [h.field_core rfl]

theorem isHeldByReference_core {t : TypeId} {d : TypeDef}
    (hd : (Core.types c.pointerSize)[t.index]? = some d) :
    (c.typeDef t).isHeldByReference = d.isHeldByReference := by
  rw [TypeDef.isHeldByReference, h.kind_core hd]
  rfl

theorem holdingSize_core {t : TypeId} {d : TypeDef}
    (hd : (Core.types c.pointerSize)[t.index]? = some d) :
    c.holdingSize t = d.holdingSize c.pointerSize := by
  rw [holdingSize, TypeDef.holdingSize, h.isHeldByReference_core hd, h.size_core hd]
  rfl

theorem holdingSize_byte : c.holdingSize Core.byte = 1 := by
  rw [h.holdingSize_core rfl]
  rfl

theorem holdingSize_uint32 : c.holdingSize Core.uint32 = 4 := by
  rw [h.holdingSize_core rfl]
  rfl

theorem holdingSize_int32 : c.holdingSize Core.int32 = 4 := by
  rw [h.holdingSize_core rfl]
  rfl

theorem holdingSize_intPtr : c.holdingSize Core.intPtr = c.pointerSize := by
  rw [h.holdingSize_core rfl]
  rfl

theorem holdingSize_codePointer : c.holdingSize Core.codePointer = c.pointerSize := by
  rw [h.holdingSize_core rfl]
  rfl

theorem holdingSize_vtable : c.holdingSize Core.vtable = c.pointerSize := by
  rw [h.holdingSize_core rfl]
  rfl

theorem isHeldByReference_vtable : (c.typeDef Core.vtable).isHeldByReference = true := by
  rw [h.isHeldByReference_core rfl]
  rfl

theorem isScalar_core {t : TypeId} {d : TypeDef}
    (hd : (Core.types c.pointerSize)[t.index]? = some d) (ht : d.isScalar = true) :
    (c.typeDef t).isScalar = true := by
  rwa [TypeDef.isScalar, h.kind_core hd]

theorem shapeOf_core_scalar {t : TypeId} {d : TypeDef}
    (hd : (Core.types c.pointerSize)[t.index]? = some d) (ht : d.isHeldByReference = false) :
    c.shapeOf t = .layout t :=
  shapeOf_of_inPlace ((h.isHeldByReference_core hd).trans ht)

theorem shapeOf_vtable : c.shapeOf Core.vtable = .ptr := if_pos h.isHeldByReference_vtable

/-! ## Declared types -/

theorem le_length_types : 18 ≤ c.types.length := by
  simpa [Core.types] using h.types.length_le

/-- Outside the list a type is an integer, which mentions no other one. -/
theorem typeDef_mem (t : TypeId) : c.typeDef t ∈ c.types ∨ c.typeDef t = default := by
  rw [h.typeDef_eq, declaredType, List.getD_eq_getElem?_getD]
  cases ht : c.types[t.index]? with
  | none => exact Or.inr rfl
  | some d => exact Or.inl (List.mem_of_getElem? ht)

/-- A type that is no default integer is declared. -/
theorem index_lt_of_kind {t : TypeId} (ht : (c.typeDef t).kind ≠ .scalar false) :
    t.index < c.types.length := by
  by_contra hge
  refine ht ?_
  rw [h.typeDef_eq, declaredType, List.getD_eq_getElem?_getD,
    List.getElem?_eq_none (Nat.not_lt.1 hge)]
  rfl

/-- A scoped catalog mentions declared types only, wherever it is looked at. -/
theorem closed (hs : c.Scoped) : c.Closed fun t => t.index < c.types.length := by
  have hlen := h.le_length_types
  have core : ∀ i, i < 18 → i < c.types.length := fun i hi => Nat.lt_of_lt_of_le hi hlen
  have mentioned : ∀ d ∈ c.types, ∀ t ∈ d.mentions, t.index < c.types.length :=
    fun d hd t ht => hs t (List.mem_append_left _ (List.mem_append_left _
      (List.mem_append_left _ (List.mem_flatMap.2 ⟨d, hd, ht⟩))))
  have method : ∀ m, ∀ t ∈ (c.method m).mentions, t.index < c.types.length := by
    intro m t ht
    rw [Catalog.method, List.getD_eq_getElem?_getD] at ht
    cases hm : c.methods[m.index]? with
    | none =>
      rw [hm] at ht
      exact absurd ht List.not_mem_nil
    | some d =>
      rw [hm, Option.getD_some] at ht
      exact hs t (List.mem_append_left _ (List.mem_append_right _
        (List.mem_flatMap.2 ⟨d, List.mem_of_getElem? hm, ht⟩)))
  refine ⟨core 1 (by decide), core 12 (by decide), core 13 (by decide), core 15 (by decide),
    ?_, ?_, ?_, ?_, ?_, ?_⟩
  · intro f
    rw [Catalog.field, List.getD_eq_getElem?_getD]
    cases hf : c.fields[f.index]? with
    | none => exact core 0 (by decide)
    | some d =>
      exact hs _ (List.mem_append_left _ (List.mem_append_left _ (List.mem_append_right _
        (List.mem_map.2 ⟨d, List.mem_of_getElem? hf, rfl⟩))))
  · intro t base _ hbase
    rcases h.typeDef_mem t with ht | ht
    · refine mentioned _ ht base ?_
      rw [TypeDef.mentions, hbase]
      exact List.mem_append_left _ (List.mem_singleton.2 rfl)
    · rw [ht] at hbase
      cases hbase
  · intro t element _ hkind
    rcases h.typeDef_mem t with ht | ht
    · refine mentioned _ ht element ?_
      rw [TypeDef.mentions, hkind]
      exact List.mem_append_right _ (List.mem_singleton.2 rfl)
    · rw [ht] at hkind
      cases hkind
  · exact fun m t ht => method m t (List.mem_append_left _ ht)
  · exact fun m t ht => method m t (List.mem_append_right _ (Option.mem_toList.2 ht))
  · intro d v hv
    exact hs _ (List.mem_append_right _ (List.mem_map.2 ⟨v, List.mem_of_getElem? hv, rfl⟩))

/-- The header is a flag word and a virtual table, which takes no bytes if pointers take none. -/
theorem region_objectHeader : c.region Core.objectHeader 0 = .field Core.multiUseWord ::
    if c.pointerSize = 0 then []
    else if UInt32.size ≤ 4 + c.pointerSize then [.overflow 4] else [.field Core.headerVtable] := by
  have hword : c.fieldAt? Core.objectHeader 0 = some Core.multiUseWord :=
    h.fieldAt?_core (by simp [Core.fields, List.findIdx?_cons])
  have htable : c.fieldAt? Core.objectHeader 4 = some Core.headerVtable :=
    h.fieldAt?_core (by simp [Core.fields, List.findIdx?_cons])
  have hsize := h.size_objectHeader
  have hwordSize : c.holdingSize (c.field Core.multiUseWord).type = 4 := by
    rw [h.type_multiUseWord, h.holdingSize_uint32]
  have htableSize : c.holdingSize (c.field Core.headerVtable).type = c.pointerSize := by
    rw [h.type_headerVtable, h.holdingSize_vtable]
  rw [region_field (by omega) hword hwordSize (by decide) (by decide)]
  by_cases hp : c.pointerSize = 0
  · rw [if_pos hp, region_of_le (by omega)]
  · rw [if_neg hp, region_of_field (by omega) htable htableSize hp, region_of_le (by omega)]

/-- An array has a length behind the header, if there is room for it. -/
theorem region_array : c.region Core.array (4 + c.pointerSize) =
    if UInt32.size ≤ 4 + c.pointerSize + 4 then [.overflow (4 + c.pointerSize)]
    else [.field Core.arrayLength] := by
  have hlength : c.fieldAt? Core.array (4 + c.pointerSize) = some Core.arrayLength :=
    h.fieldAt?_core (by
      simp [Core.fields, List.findIdx?_cons, Core.array, Core.objectHeader, Core.vtable])
  have hsize := h.size_array
  rw [region_of_field (by omega) hlength (by rw [h.type_arrayLength, h.holdingSize_int32])
    (by decide), region_of_le (by omega)]

/-- A string has a length behind the header, if there is room for it. -/
theorem region_string : c.region Core.string (4 + c.pointerSize) =
    if UInt32.size ≤ 4 + c.pointerSize + 4 then [.overflow (4 + c.pointerSize)]
    else [.field Core.stringLength] := by
  have hlength : c.fieldAt? Core.string (4 + c.pointerSize) = some Core.stringLength :=
    h.fieldAt?_core (by
      simp [Core.fields, List.findIdx?_cons, Core.string, Core.array, Core.objectHeader,
        Core.vtable])
  have hsize := h.size_string
  rw [region_of_field (by omega) hlength (by rw [h.type_stringLength, h.holdingSize_int32])
    (by decide), region_of_le (by omega)]

/-! ## Structs that instances start with -/

theorem body?_objectHeader (hroom : 4 + c.pointerSize < UInt32.size) :
    c.body? Core.objectHeader = some (.layout Core.uint32 ::
      if c.pointerSize = 0 then [] else [.ptr]) := by
  rw [body?, h.kind_objectHeader]
  simp only [h.region_objectHeader, if_neg (Nat.not_le.2 hroom), partShapes?, List.mapM_cons,
    partShape?, h.type_multiUseWord, h.shapeOf_core_scalar (t := Core.uint32) rfl rfl]
  split
  · rfl
  · simp only [List.mapM_cons, partShape?, h.type_headerVtable, h.shapeOf_vtable]
    rfl

theorem body?_object : c.body? Core.object = some [.layout Core.objectHeader] := by
  rw [body?, h.kind_object]
  exact if_pos rfl

/-- The slots of an array class behind those of the root class. -/
theorem body?_array (hroom : 4 + c.pointerSize + 4 < UInt32.size) :
    c.body? Core.array = some [.layout Core.object, .layout Core.int32] := by
  rw [body?, h.kind_array]
  dsimp only
  rw [if_neg (by decide), h.base_array]
  simp only [h.size_object, h.region_array, if_neg (Nat.not_le.2 hroom), partShapes?,
    List.mapM_cons, partShape?, h.type_arrayLength,
    h.shapeOf_core_scalar (t := Core.int32) rfl rfl]
  rfl

theorem body?_string (hroom : 4 + c.pointerSize + 4 < UInt32.size) :
    c.body? Core.string = some [.layout Core.object, .layout Core.int32] := by
  rw [body?, h.kind_string]
  dsimp only
  rw [if_neg (by decide), h.base_string]
  simp only [h.size_object, h.region_string, if_neg (Nat.not_le.2 hroom), partShapes?,
    List.mapM_cons, partShape?, h.type_stringLength,
    h.shapeOf_core_scalar (t := Core.int32) rfl rfl]
  rfl

/-- A header with a struct ends where a word can point to. -/
theorem room_of_laid_objectHeader (ht : c.Laid Core.objectHeader) :
    4 + c.pointerSize < UInt32.size := by
  by_contra hroom
  obtain ⟨slots, hbody, -⟩ := laid_iff.1 ht
  have hp : c.pointerSize ≠ 0 := fun hp => hroom (by rw [hp]; decide)
  rw [body?, h.kind_objectHeader] at hbody
  dsimp only at hbody
  rw [h.region_objectHeader, if_neg hp, if_pos (Nat.not_lt.1 hroom)] at hbody
  obtain ⟨-, rest, -, hrest, -⟩ := exists_of_partShapes?_cons hbody
  cases hrest

/-- An array class with a struct ends where a word can point to. -/
theorem room_of_laid_array (ht : c.Laid Core.array) :
    4 + c.pointerSize + 4 < UInt32.size := by
  by_contra hroom
  obtain ⟨slots, hbody, -⟩ := laid_iff.1 ht
  obtain ⟨rest, -, hrest⟩ := body?_eq_of_base h.kind_array (by decide) h.base_array hbody
  rw [h.size_object, h.region_array, if_pos (Nat.not_lt.1 hroom)] at hrest
  cases hrest

theorem laid_int32 : c.Laid Core.int32 := by
  refine laid_of_isScalar (h.isScalar_core rfl rfl) ?_
  rw [FitsWidth, h.size_core rfl]
  decide

/-- A struct of the root class and a length. -/
theorem laid_of_body?_eq {t : TypeId} (hobject : c.Laid Core.object)
    (ht : c.body? t = some [.layout Core.object, .layout Core.int32]) : c.Laid t := by
  refine laid_iff.2 ⟨_, ht, ?_⟩
  simp [Shape.layouts, hobject, h.laid_int32]

end Rooted

/-! ## Pointers whose width is a word -/

/-- What an image can be started for: the core types are where they belong, and the width of a
pointer in bits is a word of 32 bits. -/
structure Buildable (c : Catalog) : Prop extends Rooted c where
  fits : c.pointerSize * 8 < UInt32.size

namespace Buildable

variable (h : c.Buildable)

include h

/-- There is room for the fields of the core types. -/
theorem room : 4 + c.pointerSize + 8 < UInt32.size := by
  have hfits := h.fits
  simp only [UInt32.size] at hfits ⊢
  omega

/-! ## Their regions -/

theorem region_vtable : c.region Core.vtable (4 + c.pointerSize) =
    [.field Core.baseSize, .field Core.elementSize] := by
  have hbase : c.fieldAt? Core.vtable (4 + c.pointerSize) = some Core.baseSize :=
    h.fieldAt?_core (by
      simp [Core.fields, List.findIdx?_cons, Core.vtable, Core.objectHeader])
  have helement : c.fieldAt? Core.vtable (4 + c.pointerSize + 4) = some Core.elementSize :=
    h.fieldAt?_core (by
      simp [Core.fields, List.findIdx?_cons, Core.vtable, Core.objectHeader])
  have hsize := h.size_vtable
  have hroom := h.room
  rw [region_field (by omega) hbase (by rw [h.type_baseSize, h.holdingSize_uint32]) (by decide)
      (by omega),
    region_field (by omega) helement (by rw [h.type_elementSize, h.holdingSize_uint32]) (by decide)
      (by omega), region_of_le (by omega)]

/-- A code pointer is an address, which takes no bytes if pointers take none. -/
theorem region_codePointer (hp : c.pointerSize ≠ 0) :
    c.region Core.codePointer 0 = [.field Core.codePointerTarget] := by
  have htarget : c.fieldAt? Core.codePointer 0 = some Core.codePointerTarget :=
    h.fieldAt?_core (by
      simp [Core.fields, List.findIdx?_cons, Core.codePointer, Core.objectHeader, Core.vtable,
        Core.array, Core.string])
  have hsize : (c.typeDef Core.codePointer).size = c.pointerSize := by rw [h.size_core rfl]
  have hroom := h.room
  rw [region_field (by omega) htarget (by rw [h.type_codePointerTarget, h.holdingSize_intPtr]) hp
    (by omega), region_of_le (by omega)]

/-! ## Their structs -/

theorem fitsWidth_core {t : TypeId} {d : TypeDef}
    (hd : (Core.types c.pointerSize)[t.index]? = some d) (ht : d.isScalar = true) :
    c.FitsWidth t := by
  have hall : ∀ d ∈ Core.types c.pointerSize, d.isScalar = true → d.size * 8 < UInt32.size := by
    simp [Core.types, Core.scalarDef, TypeDef.isScalar, h.fits, UInt32.size]
  rw [FitsWidth, h.size_core hd]
  exact hall d (List.mem_of_getElem? hd) ht

theorem laid_core_scalar {t : TypeId} {d : TypeDef}
    (hd : (Core.types c.pointerSize)[t.index]? = some d) (ht : d.isScalar = true) : c.Laid t :=
  laid_of_isScalar (h.isScalar_core hd ht) (h.fitsWidth_core hd ht)

theorem stored_byte : c.Stored Core.byte := by
  rw [Stored, h.shapeOf_core_scalar rfl rfl]
  exact fun u hu => List.mem_singleton.1 hu ▸ h.laid_core_scalar rfl rfl

theorem body?_vtable : c.body? Core.vtable =
    some [.layout Core.object, .layout Core.uint32, .layout Core.uint32] := by
  rw [body?, h.kind_vtable]
  dsimp only
  rw [if_neg (by decide), h.base_vtable]
  simp only [h.size_object, h.region_vtable, partShapes?, List.mapM_cons, partShape?,
    h.type_baseSize, h.type_elementSize, h.shapeOf_core_scalar (t := Core.uint32) rfl rfl]
  rfl

theorem body?_codePointer (hp : c.pointerSize ≠ 0) :
    c.body? Core.codePointer = some [.layout Core.intPtr] := by
  rw [body?, h.kind_core rfl]
  dsimp only
  simp only [h.region_codePointer hp, partShapes?, List.mapM_cons, partShape?,
    h.type_codePointerTarget, h.shapeOf_core_scalar (t := Core.intPtr) rfl rfl]
  rfl

theorem laid_objectHeader : c.Laid Core.objectHeader := by
  have hroom := h.room
  refine laid_iff.2 ⟨_, h.body?_objectHeader (by omega), ?_⟩
  intro slot hslot u hu
  rcases List.mem_cons.1 hslot with rfl | hslot
  · obtain rfl := List.mem_singleton.1 hu
    exact h.laid_core_scalar rfl rfl
  · split at hslot
    · exact absurd hslot List.not_mem_nil
    · obtain rfl := List.mem_singleton.1 hslot
      exact absurd hu List.not_mem_nil

theorem laid_object : c.Laid Core.object := by
  refine laid_iff.2 ⟨_, h.body?_object, ?_⟩
  intro slot hslot u hu
  obtain rfl := List.mem_singleton.1 hslot
  obtain rfl := List.mem_singleton.1 hu
  exact h.laid_objectHeader

theorem laid_vtable : c.Laid Core.vtable := by
  refine laid_iff.2 ⟨_, h.body?_vtable, ?_⟩
  have hword : c.Laid Core.uint32 := h.laid_core_scalar rfl rfl
  simp [Shape.layouts, h.laid_object, hword]

theorem laid_array : c.Laid Core.array := by
  have hroom := h.room
  exact h.laid_of_body?_eq h.laid_object (h.body?_array (by omega))

theorem laid_string : c.Laid Core.string := by
  have hroom := h.room
  exact h.laid_of_body?_eq h.laid_object (h.body?_string (by omega))

end Buildable

end Catalog

end DataImage
