import DataImage.Proofs.Catalog.Geometry
import DataImage.Proofs.Catalog.Strings
import DataImage.Proofs.Catalog.Tables

/-!
# Sizes of structs

Structs are packed. The walk over the region of a type goes on by the size of each field and stops
at the end of the type, or behind it if the last field runs past the end. So **the struct of a type
takes at least as many bytes as the type declares** (`Catalog.Rooted.sized`), and exactly as many if
the type is snug, and so are all types whose structs it includes: what the walk comes by ends within
the type, and a class is no smaller than its base (`Catalog.Snug`). Then the slot of each field lies
where the field is declared (`Catalog.Rooted.exists_slot`).
-/

namespace DataImage.Catalog

/-! ## What a struct includes -/

/-- The parts that a type puts into its struct, besides the struct of its base. -/
def ownParts (c : Catalog) (t : TypeId) : List Part :=
  match (c.typeDef t).kind with
  | .valueType => c.region t 0
  | .reference => if t = Core.object then [] else c.region t (c.ownStart t)
  | .scalar _ | .array _ => []

/-- Whether the struct of a type includes that of another one: of its base, or of the type of a
field that is held in place. -/
def Includes (c : Catalog) (t u : TypeId) : Prop :=
  c.Wraps t u ∨ (c.typeDef u).isHeldByReference = false ∧
    ∃ f, .field f ∈ c.ownParts t ∧ (c.field f).type = u

/-- Whether the parts of a type end within the type, and so does its base, and the elements of an
array type have a size that is a word. -/
structure Snug (c : Catalog) (t : TypeId) : Prop where
  fields : ∀ f, .field f ∈ c.ownParts t →
    (c.field f).offset + c.holdingSize (c.field f).type ≤ (c.typeDef t).size
  base : ∀ base, c.Wraps t base → (c.typeDef base).size ≤ (c.typeDef t).size
  elements : ∀ e, (c.typeDef t).kind = .array e → c.shapeSize (c.shapeOf e) < UInt64.size

/-- Whether a type is snug, and so is every type whose struct it includes, to any depth. -/
def SnugThroughout (c : Catalog) (t : TypeId) : Prop :=
  ∀ u, Relation.ReflTransGen c.Includes t u → c.Snug u

/-- Whether a field ends within a type and its own type is snug throughout, if it is held in
place. -/
def FieldFits (c : Catalog) (t : TypeId) (f : FieldId) : Prop :=
  (c.field f).offset + c.holdingSize (c.field f).type ≤ (c.typeDef t).size ∧
    ((c.typeDef (c.field f).type).isHeldByReference = false →
      c.SnugThroughout (c.field f).type)

/-- Whether the struct of a type has at least the declared size, and exactly this size if the type
is snug throughout. -/
def Sized (c : Catalog) (t : TypeId) : Prop :=
  ∃ n, c.layoutSize? t = some n ∧ (c.typeDef t).size ≤ n ∧
    (n = (c.typeDef t).size ↔ c.SnugThroughout t)

variable {c c' : Catalog} {t : TypeId} {offset : Nat}

theorem snugThroughout_iff :
    c.SnugThroughout t ↔ c.Snug t ∧ ∀ u, c.Includes t u → c.SnugThroughout u := by
  constructor
  · exact fun h => ⟨h t .refl, fun u hu v hv => h v (.head hu hv)⟩
  · rintro ⟨hsnug, hinner⟩ u hu
    rcases Relation.ReflTransGen.cases_head hu with rfl | ⟨v, hv, hu⟩
    · exact hsnug
    · exact hinner v hv u hu

/-- A type is snug throughout if its base is and ends within it, all its fields fit, and so do its
elements. -/
theorem snugThroughout_iff_fits : c.SnugThroughout t ↔
    (∀ base, c.Wraps t base → (c.typeDef base).size ≤ (c.typeDef t).size ∧
      c.SnugThroughout base) ∧ (∀ f, .field f ∈ c.ownParts t → c.FieldFits t f) ∧
    ∀ e, (c.typeDef t).kind = .array e → c.shapeSize (c.shapeOf e) < UInt64.size := by
  rw [snugThroughout_iff]
  constructor
  · rintro ⟨hsnug, hinner⟩
    exact ⟨fun base h => ⟨hsnug.base base h, hinner base (Or.inl h)⟩, fun f hf =>
      ⟨hsnug.fields f hf, fun hheld => hinner _ (Or.inr ⟨hheld, f, hf, rfl⟩)⟩, hsnug.elements⟩
  · rintro ⟨hbase, hfields, helements⟩
    refine ⟨⟨fun f hf => (hfields f hf).1, fun base h => (hbase base h).1, helements⟩,
      fun u hu => ?_⟩
    rcases hu with hu | ⟨hheld, f, hf, rfl⟩
    · exact (hbase u hu).2
    · exact (hfields f hf).2 hheld

/-- A type without parts and without a base is snug throughout, if its elements fit. -/
theorem snugThroughout_of_bare (hparts : c.ownParts t = []) (hbase : ∀ u, ¬ c.Wraps t u)
    (helements : ∀ e, (c.typeDef t).kind = .array e → c.shapeSize (c.shapeOf e) < UInt64.size) :
    c.SnugThroughout t := by
  refine snugThroughout_iff_fits.2 ⟨fun base h => absurd h (hbase base), fun f hf => ?_, helements⟩
  rw [hparts] at hf
  exact absurd hf List.not_mem_nil

theorem ownParts_of_wraps {base : TypeId} (h : c.Wraps t base) :
    c.ownParts t = c.region t (c.typeDef base).size := by
  rw [ownParts, h.1]
  dsimp only
  rw [if_neg h.2.1, ownStart, h.2.2]

/-- A field that the walk passes ends where a word can point to. -/
theorem end_of_mem_region {f : FieldId} (hf : .field f ∈ c.region t offset) :
    (c.field f).offset + c.holdingSize (c.field f).type < UInt32.size := by
  revert hf
  refine region_induction (P := fun _ parts => .field f ∈ parts →
    (c.field f).offset + c.holdingSize (c.field f).type < UInt32.size) ?_ ?_ ?_ ?_ ?_ offset
  · exact fun _ _ hf => absurd hf List.not_mem_nil
  · exact fun _ _ _ ih hf => ih (by simpa using hf)
  · intro offset g _ hg _ hend ih hf
    rcases List.mem_cons.1 hf with hfg | hf
    · obtain rfl := Part.field.inj hfg
      rwa [(fieldAt?_eq_some hg).2]
    · exact ih hf
  · exact fun _ _ _ _ _ hf => by simp at hf
  · exact fun _ _ _ _ _ hf => by simp at hf

theorem offset_of_mem_ownParts {f : FieldId} (hf : .field f ∈ c.ownParts t) :
    (c.field f).offset < UInt32.size := by
  unfold ownParts at hf
  split at hf
  · exact Nat.lt_of_le_of_lt (Nat.le_add_right _ _) (end_of_mem_region hf)
  · split at hf
    · exact absurd hf List.not_mem_nil
    · exact Nat.lt_of_le_of_lt (Nat.le_add_right _ _) (end_of_mem_region hf)
  · exact absurd hf List.not_mem_nil
  · exact absurd hf List.not_mem_nil

theorem ownParts_of_valueType (h : (c.typeDef t).kind = .valueType) :
    c.ownParts t = c.region t 0 := by
  rw [ownParts, h]

/-! ## Slots -/

theorem sizes?_cons_eq_some {slot : Shape} {rest : List Shape} {k n : Nat}
    (hk : slot.size? c.pointerSize c.layoutSize? = some k)
    (hn : Shape.sizes? c.pointerSize c.layoutSize? rest = some n) :
    Shape.sizes? c.pointerSize c.layoutSize? (slot :: rest) = some (k + n) := by
  rw [Shape.sizes?, hk, Option.bind_some, hn, Option.map_some]

/-- A slot takes at least as many bytes as what it is for. -/
theorem exists_size?_shapeOf (h : ∀ u ∈ (c.shapeOf t).layouts, c.Sized u) :
    ∃ n, (c.shapeOf t).size? c.pointerSize c.layoutSize? = some n ∧ c.holdingSize t ≤ n ∧
      (n = c.holdingSize t ↔
        ((c.typeDef t).isHeldByReference = false → c.SnugThroughout t)) := by
  cases hheld : (c.typeDef t).isHeldByReference with
  | true =>
    rw [shapeOf, hheld, holdingSize_of_held hheld]
    exact ⟨_, rfl, Nat.le_refl _, ⟨fun _ h => (by cases h), fun _ => rfl⟩⟩
  | false =>
    rw [shapeOf_of_inPlace hheld] at h ⊢
    obtain ⟨n, hn, hle, hiff⟩ := h t (List.mem_singleton.2 rfl)
    rw [holdingSize_of_inPlace hheld]
    exact ⟨n, hn, hle, hiff.trans ⟨fun h _ => h, fun h => h rfl⟩⟩

/-- **The slots of a region** take it up, or more than that if a field does not fit. -/
theorem exists_sizes?_region (hbyte : c.holdingSize Core.byte = 1)
    (hsnug : c.SnugThroughout Core.byte) (offset : Nat) {slots : List Shape}
    (hslots : c.partShapes? (c.region t offset) = some slots)
    (hsized : ∀ slot ∈ slots, ∀ u ∈ slot.layouts, c.Sized u) :
    ∃ n, Shape.sizes? c.pointerSize c.layoutSize? slots = some n ∧
      (c.typeDef t).size ≤ offset + n ∧ (offset ≤ (c.typeDef t).size →
        (offset + n = (c.typeDef t).size ↔
          ∀ f, .field f ∈ c.region t offset → c.FieldFits t f)) := by
  revert slots
  refine region_induction (P := fun offset parts => ∀ {slots : List Shape},
    c.partShapes? parts = some slots →
    (∀ slot ∈ slots, ∀ u ∈ slot.layouts, c.Sized u) →
    ∃ n, Shape.sizes? c.pointerSize c.layoutSize? slots = some n ∧
      (c.typeDef t).size ≤ offset + n ∧ (offset ≤ (c.typeDef t).size →
        (offset + n = (c.typeDef t).size ↔ ∀ f, .field f ∈ parts → c.FieldFits t f)))
    ?_ ?_ ?_ ?_ ?_ offset
  · intro offset hdone slots hslots _
    obtain rfl := List.forall₂_nil_left_iff.1 (Partial.mapM_eq_some_iff.1 hslots)
    refine ⟨0, rfl, hdone, fun hle => ⟨fun _ f hf => absurd hf List.not_mem_nil, fun _ => ?_⟩⟩
    omega
  · intro offset hlt _ ih slots hslots hsized
    obtain ⟨slot, rest, hslot, hrest, rfl⟩ := exists_of_partShapes?_cons hslots
    obtain rfl := Option.some.inj hslot
    obtain ⟨k, hk, -, hexact⟩ := exists_size?_shapeOf (hsized _ List.mem_cons_self)
    obtain ⟨n, hn, hle, hiff⟩ := ih hrest fun s hs => hsized s (List.mem_cons_of_mem _ hs)
    obtain rfl : k = 1 := by rw [hexact.2 fun _ => hsnug, hbyte]
    refine ⟨1 + n, sizes?_cons_eq_some hk hn, by omega, fun _ => ?_⟩
    rw [← Nat.add_assoc, hiff (by omega)]
    simp
  · intro offset f hlt hf _ _ ih slots hslots hsized
    obtain ⟨-, hstart⟩ := fieldAt?_eq_some hf
    obtain ⟨slot, rest, hslot, hrest, rfl⟩ := exists_of_partShapes?_cons hslots
    obtain rfl := Option.some.inj hslot
    obtain ⟨k, hk, hholding, hexact⟩ := exists_size?_shapeOf (hsized _ List.mem_cons_self)
    obtain ⟨n, hn, hle, hiff⟩ := ih hrest fun s hs => hsized s (List.mem_cons_of_mem _ hs)
    refine ⟨k + n, sizes?_cons_eq_some hk hn, by omega, fun _ => ?_⟩
    simp only [List.mem_cons, Part.field.injEq, forall_eq_or_imp]
    -- behind a field that runs past the end there is nothing that could make up for it
    by_cases hend : offset + c.holdingSize (c.field f).type ≤ (c.typeDef t).size
    · have hfits : c.FieldFits t f ↔ k = c.holdingSize (c.field f).type := by
        rw [FieldFits, hstart, hexact]
        exact ⟨fun h => h.2, fun h => ⟨hend, h⟩⟩
      rw [hfits, ← hiff hend]
      omega
    · have hnot : ¬ c.FieldFits t f := fun h => hend (hstart ▸ h.1)
      exact ⟨fun h => by omega, fun h => absurd h.1 hnot⟩
  · intro offset f _ _ _ slots hslots _
    obtain ⟨slot, rest, hslot, -, rfl⟩ := exists_of_partShapes?_cons hslots
    cases hslot
  · intro offset f _ _ _ slots hslots _
    obtain ⟨slot, rest, hslot, -, rfl⟩ := exists_of_partShapes?_cons hslots
    cases hslot

/-! ## Array classes -/

/-- Whether array classes have the size of the class of all arrays. -/
def ArraySizes (c : Catalog) : Prop :=
  ∀ d ∈ c.types.map TypeDef.bare, ∀ e, d.kind = .array e → d.size = 4 + c.pointerSize + 4

namespace ArraySizes

variable (h : c.ArraySizes)

include h

theorem congr (hp : c'.pointerSize = c.pointerSize)
    (htypes : c'.types.map TypeDef.bare = c.types.map TypeDef.bare) : c'.ArraySizes := by
  rw [ArraySizes, hp, htypes]
  exact h

theorem declareType {d : TypeDef}
    (hd : ∀ e, d.kind = .array e → d.size = 4 + c.pointerSize + 4) :
    (c.declareType d).2.ArraySizes := by
  intro b hb e he
  obtain ⟨d', hd', rfl⟩ := List.mem_map.1 hb
  obtain ⟨i, hi⟩ := List.mem_iff_getElem?.1 hd'
  rw [(c.retains_declareType d).pointerSize]
  rcases getElem?_declareType hi with hi | ⟨-, rfl⟩
  · exact h _ (List.mem_map_of_mem (List.mem_of_getElem? hi)) e he
  · exact hd e he

theorem addVtable (t : TypeId) : (c.addVtable t).2.ArraySizes := by
  obtain ⟨vtables, descriptors, heq, -⟩ := c.addVtable_eq t
  exact h.congr (by rw [heq]) (by rw [heq])

/-- Declaring a type with its virtual table. -/
theorem declareType_addVtable {d : TypeDef}
    (hd : ∀ e, d.kind = .array e → d.size = 4 + c.pointerSize + 4)
    (arrayTypes : List (TypeId × TypeId)) :
    (Catalog.addVtable { (c.declareType d).2 with arrayTypes }
      (c.declareType d).1).2.ArraySizes := by
  have hdeclared : ArraySizes { (c.declareType d).2 with arrayTypes } := h.declareType hd
  exact hdeclared.addVtable _

theorem size_eq (hc : c.Rooted) {e : TypeId} (ht : (c.typeDef t).kind = .array e) :
    (c.typeDef t).size = 4 + c.pointerSize + 4 := by
  have hmem : (c.typeDef t).bare ∈ c.types.map TypeDef.bare := by
    have hlt : t.index < c.types.length := hc.index_lt_of_kind (by rw [ht]; exact nofun)
    rw [hc.typeDef_eq, declaredType, List.getD_eq_getElem?_getD, List.getElem?_eq_getElem hlt,
      Option.getD_some]
    exact List.mem_map_of_mem (List.getElem_mem hlt)
  have hsize : (c.typeDef t).bare.size = 4 + c.pointerSize + 4 := h _ hmem e ht
  exact hsize

end ArraySizes

theorem Declared.arraySizes (h : c.Declared) : c.ArraySizes := by
  induction h with
  | new p =>
    obtain ⟨-, htypes, -⟩ :=
      foldl_addVtable [Core.object, Core.vtable, Core.array, Core.string] (rooted_core p)
    have hcore : ArraySizes { pointerSize := p, types := Core.types p } := by
      simp [ArraySizes, Core.types, Core.scalarDef, TypeDef.bare]
    exact hcore.congr rfl (congrArg _ htypes)
  | addScalar _ name size signed ih => exact ih.declareType fun e he => by cases he
  | addValueType _ name size ih => exact ih.declareType fun e he => by cases he
  | addClass _ name base size ih => exact ih.declareType_addVtable (fun e he => by cases he) _
  | @addArrayType c h element ih =>
    unfold Catalog.addArrayType
    cases c.arrayTypes.lookup element with
    | some t => exact ih
    | none =>
      have hrooted := h.wellDeclared.toRooted
      have hsize : (c.declaredType Core.array).size = 4 + c.pointerSize + 4 := by
        rw [← hrooted.typeDef_eq, hrooted.size_core rfl]
      refine ih.declareType_addVtable (fun _ _ => ?_) _
      exact hsize
  | addField _ owner name offset type ih =>
    refine ih.congr rfl ?_
    unfold Catalog.addField
    dsimp only
    rw [map_modify_of_eq]
    exact fun _ => rfl
  | addMethod _ d ih => exact ih.congr rfl rfl
  | addDescriptor _ d ih => exact ih.congr rfl rfl
  | updateDescriptor _ d change ih => exact ih.congr rfl rfl
  | addCodePointer _ target ih => exact ih.congr rfl rfl
  | addVtable _ t ih => exact ih.addVtable t
  | setVtable _ t d ih => exact ih.congr rfl rfl

/-! ## Structs -/

/-- A type without parts, without a base and without elements that has its declared size. -/
theorem sized_of_bare (hparts : c.ownParts t = []) (hbase : ∀ u, ¬ c.Wraps t u)
    (helements : ∀ e, (c.typeDef t).kind ≠ .array e)
    (hsize : c.layoutSize? t = some (c.typeDef t).size) : c.Sized t :=
  ⟨_, hsize, Nat.le_refl _,
    fun _ => snugThroughout_of_bare hparts hbase fun e he => absurd he (helements e), fun _ => rfl⟩

theorem ownParts_of_isScalar (ht : (c.typeDef t).isScalar = true) : c.ownParts t = [] := by
  obtain ⟨signed, hkind⟩ := kind_of_isScalar ht
  rw [ownParts, hkind]

theorem not_wraps_of_isScalar (ht : (c.typeDef t).isScalar = true) (u : TypeId) :
    ¬ c.Wraps t u := by
  obtain ⟨signed, hkind⟩ := kind_of_isScalar ht
  exact fun h => by cases hkind.symm.trans h.1

theorem kind_ne_array_of_isScalar (ht : (c.typeDef t).isScalar = true) (e : TypeId) :
    (c.typeDef t).kind ≠ .array e := by
  obtain ⟨signed, hkind⟩ := kind_of_isScalar ht
  rw [hkind]
  exact nofun

theorem snugThroughout_of_isScalar (ht : (c.typeDef t).isScalar = true) : c.SnugThroughout t :=
  snugThroughout_of_bare (ownParts_of_isScalar ht) (not_wraps_of_isScalar ht)
    fun e he => absurd he (kind_ne_array_of_isScalar ht e)

/-- The struct of a class other than the root starts with the struct of its base. -/
theorem exists_wraps_of_body? (ht : (c.typeDef t).kind = .reference) (hne : t ≠ Core.object)
    {slots : List Shape} (hbody : c.body? t = some slots) :
    ∃ base slots', c.Wraps t base ∧ slots = .layout base :: slots' ∧
      c.partShapes? (c.region t (c.typeDef base).size) = some slots' := by
  obtain ⟨base, hbase⟩ : ∃ base, (c.typeDef t).base = some base := by
    rw [body?, ht] at hbody
    dsimp only at hbody
    rw [if_neg hne] at hbody
    cases hbase : (c.typeDef t).base with
    | none =>
      rw [hbase] at hbody
      cases hbody
    | some base => exact ⟨base, rfl⟩
  obtain ⟨slots', hslots, hparts⟩ := body?_eq_of_base ht hne hbase hbody
  exact ⟨base, slots', ⟨ht, hne, hbase⟩, hslots, hparts⟩

namespace Rooted

variable (h : c.Rooted)

include h

theorem layoutSize?_array (hroom : 4 + c.pointerSize + 4 < UInt32.size) :
    c.layoutSize? Core.array = some (4 + c.pointerSize + 4) := by
  have hsize : (c.typeDef Core.int32).size = 4 := by rw [h.size_core rfl]; rfl
  have hlength : c.layoutSize? Core.int32 = some 4 := by
    rw [layoutSize?_of_isScalar h.isScalar_int32
      (fitsWidth_of_le (Nat.le_of_eq hsize) (by decide)), hsize]
  rw [layoutSize?_eq, h.body?_array hroom]
  simp only [Option.bind_some, Shape.sizes?, Shape.size?, h.layoutSize?_object (by omega), hlength]
  rfl

theorem snugThroughout_byte : c.SnugThroughout Core.byte :=
  snugThroughout_of_isScalar (h.isScalar_core rfl rfl)

variable {slots : List Shape} (hbody : c.body? t = some slots)
  (hslots : ∀ slot ∈ slots, ∀ u ∈ slot.layouts, c.Laid u ∧ c.Sized u)

include hbody hslots

/-- A value type has as many bytes as its region. -/
theorem sized_of_valueType (hkind : (c.typeDef t).kind = .valueType) : c.Sized t := by
  have hregion := hbody
  rw [body?, hkind] at hregion
  obtain ⟨n, hn, hle, hiff⟩ := exists_sizes?_region h.holdingSize_byte h.snugThroughout_byte 0
    hregion fun slot hslot u hu => (hslots slot hslot u hu).2
  rw [Nat.zero_add] at hle hiff
  refine ⟨n, ?_, hle, ?_⟩
  · rw [layoutSize?_eq, hbody, Option.bind_some, hn]
  · rw [hiff (Nat.zero_le _), snugThroughout_iff_fits, ownParts_of_valueType hkind]
    exact ⟨fun hfields => ⟨fun base hbase => absurd hkind hbase.kind_ne_valueType, hfields,
      fun e he => by cases hkind.symm.trans he⟩, fun hfits => hfits.2.1⟩

/-- The root class has the bytes of a header. -/
theorem sized_object (ht : t = Core.object) (hkind : (c.typeDef t).kind = .reference) :
    c.Sized t := by
  subst ht
  obtain rfl := Option.some.inj (h.body?_object.symm.trans hbody)
  have hroom := h.room_of_laid_objectHeader
    (hslots _ List.mem_cons_self Core.objectHeader List.mem_cons_self).1
  refine sized_of_bare ?_ (fun u hu => hu.2.1 rfl) (fun e he => by cases hkind.symm.trans he) ?_
  · rw [ownParts, hkind]
    exact if_pos rfl
  · rw [h.layoutSize?_object hroom, h.size_object]

/-- Another class has the bytes of its base, and then those of its own region. -/
theorem sized_of_reference (hkind : (c.typeDef t).kind = .reference) (hobject : t ≠ Core.object) :
    c.Sized t := by
  obtain ⟨base, slots', hwraps, rfl, hregion⟩ := exists_wraps_of_body? hkind hobject hbody
  obtain ⟨m, hm, hlem, hiffm⟩ := (hslots _ List.mem_cons_self base (List.mem_singleton.2 rfl)).2
  obtain ⟨n, hn, hle, hiff⟩ := exists_sizes?_region h.holdingSize_byte h.snugThroughout_byte _
    hregion fun slot hslot u hu => (hslots slot (List.mem_cons_of_mem _ hslot) u hu).2
  refine ⟨m + n, ?_, by omega, ?_⟩
  · rw [layoutSize?_eq, hbody, Option.bind_some]
    exact sizes?_cons_eq_some hm hn
  · rw [snugThroughout_iff_fits, ownParts_of_wraps hwraps]
    constructor
    · intro hsize
      have hfits := (hiff (by omega)).1 (by omega)
      refine ⟨fun base' hbase' => ?_, hfits, fun e he => by cases hkind.symm.trans he⟩
      obtain rfl := hwraps.base_unique hbase'
      exact ⟨by omega, hiffm.1 (by omega)⟩
    · rintro ⟨hbases, hfits, -⟩
      obtain ⟨hle', hsnug⟩ := hbases base hwraps
      have hown := (hiff hle').2 hfits
      have hbaseSize := hiffm.2 hsnug
      omega

/-- An array type has the bytes of the array class, and no elements. -/
theorem sized_of_array (harrays : c.ArraySizes) {e : TypeId}
    (hkind : (c.typeDef t).kind = .array e) : c.Sized t := by
  have harray := hbody
  rw [body?, hkind] at harray
  obtain rfl := Option.some.inj harray
  obtain ⟨n, hn, -⟩ := exists_size?_shapeOf (hslots (.array (c.shapeOf e) 0)
    (List.mem_cons_of_mem _ (List.mem_singleton.2 rfl)) · · |>.2)
  have hroom := h.room_of_laid_array (hslots _ List.mem_cons_self Core.array List.mem_cons_self).1
  have hsize : c.layoutSize? t = some ((c.typeDef t).size + elementsSize n 0) := by
    rw [harrays.size_eq h hkind, layoutSize?_eq, hbody, Option.bind_some, Shape.sizes?,
      Shape.size?, h.layoutSize?_array hroom, Option.bind_some, Shape.sizes?, Shape.size?, hn]
    rfl
  have helement : c.shapeSize (c.shapeOf e) = n := by rw [shapeSize, hn, Option.getD_some]
  refine ⟨_, hsize, Nat.le_add_right _ _, fun hzero => ?_, fun hsnug => ?_⟩
  · refine snugThroughout_of_bare (by rw [ownParts, hkind])
      (fun u hu => by cases hkind.symm.trans hu.1) fun e' he' => ?_
    obtain rfl := TypeKind.array.inj (hkind.symm.trans he')
    rw [helement]
    unfold elementsSize at hzero
    split at hzero
    · assumption
    · rw [show n = 0 by omega]
      decide
  · have hword := (snugThroughout_iff.1 hsnug).1.elements e hkind
    rw [elementsSize_of_lt (helement ▸ hword), Nat.mul_zero, Nat.add_zero]

omit hbody hslots

/-- **The struct of a type has at least the declared size**, and exactly this size if the type is
snug throughout. -/
theorem sized (harrays : c.ArraySizes) (ht : c.Laid t) : c.Sized t := by
  refine Laid.induction (P := c.Sized) (fun t slots hbody ih => ?_) ht
  cases hkind : (c.typeDef t).kind with
  | scalar signed =>
    have hscalar : (c.typeDef t).isScalar = true := by rw [TypeDef.isScalar, hkind]
    exact sized_of_bare (ownParts_of_isScalar hscalar) (not_wraps_of_isScalar hscalar)
      (kind_ne_array_of_isScalar hscalar)
      (layoutSize?_of_isScalar hscalar (fitsWidth_of_body? hscalar hbody))
  | valueType => exact h.sized_of_valueType hbody ih hkind
  | reference =>
    by_cases hobject : t = Core.object
    · exact h.sized_object hbody ih hobject hkind
    · exact h.sized_of_reference hbody ih hkind hobject
  | array e => exact h.sized_of_array hbody ih harrays hkind

end Rooted

/-! ## Where fields lie -/

/-- The slot of a field in a region lies where the field starts, if the types of the fields that are
held in place are snug throughout. -/
theorem exists_slot_region (hbyte : c.holdingSize Core.byte = 1)
    (hsnug : c.SnugThroughout Core.byte) (offset : Nat) {slots : List Shape}
    (hslots : c.partShapes? (c.region t offset) = some slots)
    (hsized : ∀ slot ∈ slots, ∀ u ∈ slot.layouts, c.Sized u)
    (hinner : ∀ f, .field f ∈ c.region t offset →
      (c.typeDef (c.field f).type).isHeldByReference = false → c.SnugThroughout (c.field f).type)
    {f : FieldId} (hf : .field f ∈ c.region t offset) :
    ∃ before after n, slots = before ++ c.shapeOf (c.field f).type :: after ∧
      Shape.sizes? c.pointerSize c.layoutSize? before = some n ∧
      offset + n = (c.field f).offset := by
  revert slots
  revert hinner hf
  refine region_induction (P := fun offset parts => (∀ f, .field f ∈ parts →
      (c.typeDef (c.field f).type).isHeldByReference = false →
      c.SnugThroughout (c.field f).type) → .field f ∈ parts → ∀ {slots : List Shape},
    c.partShapes? parts = some slots → (∀ slot ∈ slots, ∀ u ∈ slot.layouts, c.Sized u) →
    ∃ before after n, slots = before ++ c.shapeOf (c.field f).type :: after ∧
      Shape.sizes? c.pointerSize c.layoutSize? before = some n ∧
      offset + n = (c.field f).offset) ?_ ?_ ?_ ?_ ?_ offset
  · exact fun _ _ _ hf => absurd hf List.not_mem_nil
  · intro offset _ _ ih hinner hf slots hslots hsized
    obtain ⟨slot, rest, hslot, hrest, rfl⟩ := exists_of_partShapes?_cons hslots
    obtain rfl := Option.some.inj hslot
    obtain ⟨k, hk, -, hexact⟩ := exists_size?_shapeOf (hsized _ List.mem_cons_self)
    obtain ⟨before, after, n, rfl, hn, heq⟩ :=
      ih (fun g hg => hinner g (List.mem_cons_of_mem _ hg)) (by simpa using hf)
        hrest fun s hs => hsized s (List.mem_cons_of_mem _ hs)
    refine ⟨c.shapeOf Core.byte :: before, after, k + n, rfl, sizes?_cons_eq_some hk hn, ?_⟩
    rw [hexact.2 fun _ => hsnug, hbyte]
    omega
  · intro offset g _ hg _ _ ih hinner hf slots hslots hsized
    obtain ⟨slot, rest, hslot, hrest, rfl⟩ := exists_of_partShapes?_cons hslots
    obtain rfl := Option.some.inj hslot
    obtain ⟨k, hk, -, hexact⟩ := exists_size?_shapeOf (hsized _ List.mem_cons_self)
    rcases List.mem_cons.1 hf with hfg | hf
    · obtain rfl := Part.field.inj hfg
      exact ⟨[], rest, 0, rfl, rfl, (fieldAt?_eq_some hg).2.symm⟩
    · obtain ⟨before, after, n, rfl, hn, heq⟩ :=
        ih (fun g hg => hinner g (List.mem_cons_of_mem _ hg)) hf
          hrest fun s hs => hsized s (List.mem_cons_of_mem _ hs)
      refine ⟨c.shapeOf (c.field g).type :: before, after, k + n, rfl,
        sizes?_cons_eq_some hk hn, ?_⟩
      rw [hexact.2 (hinner g List.mem_cons_self)]
      omega
  · intro offset g _ _ _ _ hf
    simp at hf
  · intro offset g _ _ _ _ hf
    simp at hf

/-- **Own fields lie where they are declared**, if all that the struct of a type includes is snug
throughout. -/
theorem Rooted.exists_slot (h : c.Rooted) (harrays : c.ArraySizes) {slots : List Shape}
    (hbody : c.body? t = some slots) (hlaid : ∀ slot ∈ slots, ∀ u ∈ slot.layouts, c.Laid u)
    (hinner : ∀ u, c.Includes t u → c.SnugThroughout u) {f : FieldId}
    (hf : .field f ∈ c.ownParts t) :
    ∃ before after, slots = before ++ c.shapeOf (c.field f).type :: after ∧
      Shape.sizes? c.pointerSize c.layoutSize? before = some (c.field f).offset := by
  have hsnugByte : c.SnugThroughout Core.byte :=
    snugThroughout_of_isScalar (h.isScalar_core rfl rfl)
  have hsized : ∀ slot ∈ slots, ∀ u ∈ slot.layouts, c.Sized u :=
    fun slot hslot u hu => h.sized harrays (hlaid slot hslot u hu)
  have hheld : ∀ g, .field g ∈ c.ownParts t →
      (c.typeDef (c.field g).type).isHeldByReference = false →
      c.SnugThroughout (c.field g).type :=
    fun g hg hheld => hinner _ (Or.inr ⟨hheld, g, hg, rfl⟩)
  cases hkind : (c.typeDef t).kind with
  | scalar | array =>
    rw [ownParts, hkind] at hf
    exact absurd hf List.not_mem_nil
  | valueType =>
    rw [ownParts_of_valueType hkind] at hf hheld
    rw [body?, hkind] at hbody
    obtain ⟨before, after, n, hslots, hn, heq⟩ :=
      exists_slot_region h.holdingSize_byte hsnugByte 0 hbody hsized hheld hf
    exact ⟨before, after, hslots, by rw [hn, ← heq, Nat.zero_add]⟩
  | reference =>
    have hobject : t ≠ Core.object := by
      rintro rfl
      rw [ownParts, hkind] at hf
      exact absurd hf List.not_mem_nil
    obtain ⟨base, slots', hwraps, rfl, hslots⟩ := exists_wraps_of_body? hkind hobject hbody
    rw [ownParts_of_wraps hwraps] at hf hheld
    obtain ⟨before, after, n, rfl, hn, heq⟩ := exists_slot_region h.holdingSize_byte hsnugByte _
      hslots (fun slot hslot => hsized slot (List.mem_cons_of_mem _ hslot)) hheld hf
    obtain ⟨m, hm, -, hexact⟩ := hsized _ List.mem_cons_self base (List.mem_singleton.2 rfl)
    obtain rfl := hexact.2 (hinner base (Or.inl hwraps))
    refine ⟨.layout base :: before, after, rfl, ?_⟩
    rw [← heq]
    exact sizes?_cons_eq_some hm hn

end DataImage.Catalog
