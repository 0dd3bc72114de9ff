import DataImage.Proofs.Catalog.Bytes
import DataImage.Proofs.Catalog.Chain

/-!
# Sound geometry

`Catalog.SoundGeometry` says that the fields of a type lie in the region that the type owns and do
not overlap, and that classes derive from one another up to the root without getting smaller. Then a
field held in place takes as many packed bytes as its type declares
(`SoundGeometry.shapeSize_shapeOf`), so packed structs put each field where it was declared.
-/

namespace DataImage.Catalog

/-- Whether a field is one that a type itself declares. -/
def DeclaresField (c : Catalog) (t : TypeId) (f : FieldId) : Prop :=
  f.index < c.fields.length ∧ (c.field f).owner = t

/-- Whether a field covers a byte of its type. -/
def Covers (c : Catalog) (f : FieldId) (i : Nat) : Prop :=
  (c.field f).offset ≤ i ∧ i < (c.field f).offset + c.holdingSize (c.field f).type

/-- Fields of a type that lie in its own region, take bytes and do not overlap. -/
structure SoundFields (c : Catalog) (t : TypeId) : Prop where
  starts : ∀ f, c.DeclaresField t f → c.regionStart t ≤ (c.field f).offset
  ends : ∀ f, c.DeclaresField t f →
    (c.field f).offset + c.holdingSize (c.field f).type ≤ (c.typeDef t).size
  nonempty : ∀ f, c.DeclaresField t f → c.holdingSize (c.field f).type ≠ 0
  disjoint : ∀ f g, c.DeclaresField t f → c.DeclaresField t g → f ≠ g →
    (c.field f).offset + c.holdingSize (c.field f).type ≤ (c.field g).offset ∨
      (c.field g).offset + c.holdingSize (c.field g).type ≤ (c.field f).offset

/-- **Sound geometry** of the classes and value types of a catalog. Strings are left out, whose
characters lie behind the end of the class. -/
structure SoundGeometry (c : Catalog) : Prop where
  fields : ∀ t, t ≠ Core.string →
    (c.typeDef t).kind = .reference ∨ (c.typeDef t).kind = .valueType → c.SoundFields t
  grows : ∀ t base, (c.typeDef t).kind = .reference → (c.typeDef t).base = some base →
    (c.typeDef base).size ≤ (c.typeDef t).size
  rooted : ∀ t, (c.typeDef t).kind = .reference → ∃ ts, c.Chain t ts
  notString : ∀ t, (c.typeDef t).kind = .reference → (c.typeDef t).base ≠ some Core.string

variable {c : Catalog} {t : TypeId} {offset : Nat}

/-! ## Looking fields up -/

theorem field_eq_getElem {f : FieldId} (h : f.index < c.fields.length) :
    c.field f = c.fields[f.index] := by
  rw [Catalog.field, List.getD_eq_getElem?_getD, List.getElem?_eq_getElem h, Option.getD_some]

theorem fieldAt?_eq_some {f : FieldId} (h : c.fieldAt? t offset = some f) :
    c.DeclaresField t f ∧ (c.field f).offset = offset := by
  obtain ⟨i, hi, rfl⟩ := Option.map_eq_some_iff.1 h
  obtain ⟨hlt, hf, -⟩ := List.findIdx?_eq_some_iff_getElem.1 hi
  simp only [Bool.and_eq_true, decide_eq_true_eq] at hf
  rw [DeclaresField, field_eq_getElem (f := ⟨i⟩) hlt]
  exact ⟨⟨hlt, hf.1⟩, hf.2⟩

theorem fieldAt?_eq_none (h : c.fieldAt? t offset = none) {f : FieldId} (hf : c.DeclaresField t f) :
    (c.field f).offset ≠ offset := by
  intro heq
  rw [fieldAt?, Option.map_eq_none_iff, List.findIdx?_eq_none_iff] at h
  have hmem := h _ (List.getElem_mem hf.1)
  rw [← field_eq_getElem hf.1] at hmem
  simp [hf.2, heq] at hmem

theorem index_lt_of_reference (hc : c.Rooted) (h : (c.typeDef t).kind = .reference) :
    t.index < c.types.length :=
  hc.index_lt_of_kind (by rw [h]; exact fun heq => by cases heq)

/-- The geometry of the nodes is sound: the field of a node lies behind the header. -/
theorem pair_soundGeometry : pair.SoundGeometry where
  fields := fun t hstring hkind => by
    have hstarts : ∀ i, i < pair.fields.length → (pair.field ⟨i⟩).owner ≠ Core.string →
        pair.regionStart (pair.field ⟨i⟩).owner ≤ (pair.field ⟨i⟩).offset ∧
          (pair.field ⟨i⟩).offset + pair.holdingSize (pair.field ⟨i⟩).type ≤
            (pair.typeDef (pair.field ⟨i⟩).owner).size ∧
          pair.holdingSize (pair.field ⟨i⟩).type ≠ 0 := by decide +kernel
    have hdisjoint : ∀ i, i < pair.fields.length → ∀ j, j < pair.fields.length →
        (pair.field ⟨i⟩).owner ≠ Core.string ∧
          (pair.field ⟨j⟩).owner = (pair.field ⟨i⟩).owner ∧ i ≠ j →
        (pair.field ⟨i⟩).offset + pair.holdingSize (pair.field ⟨i⟩).type ≤
            (pair.field ⟨j⟩).offset ∨
          (pair.field ⟨j⟩).offset + pair.holdingSize (pair.field ⟨j⟩).type ≤
            (pair.field ⟨i⟩).offset := by decide +kernel
    constructor
    · rintro f ⟨hf, rfl⟩
      exact (hstarts f.index hf hstring).1
    · rintro f ⟨hf, rfl⟩
      exact (hstarts f.index hf hstring).2.1
    · rintro f ⟨hf, rfl⟩
      exact (hstarts f.index hf hstring).2.2
    · rintro ⟨i⟩ ⟨j⟩ ⟨hi, rfl⟩ ⟨hj, howner⟩ hne
      exact hdisjoint i hi j hj ⟨hstring, howner, fun heq => hne (congrArg _ heq)⟩
  grows := fun t base hkind hbase => by
    have hgrows : ∀ i, i < pair.types.length → ∀ base ∈ (pair.typeDef ⟨i⟩).base,
        (pair.typeDef base).size ≤ (pair.typeDef ⟨i⟩).size := by decide +kernel
    have hlt := index_lt_of_reference pair_declared.wellDeclared.toRooted hkind
    exact hgrows t.index hlt base hbase
  rooted := fun t hkind => by
    have hrooted : ∀ i, i < pair.types.length → (pair.typeDef ⟨i⟩).kind = .reference →
        ⟨i⟩ = Core.object ∨ (pair.typeDef ⟨i⟩).base = some Core.object := by decide +kernel
    rcases hrooted t.index (index_lt_of_reference pair_declared.wellDeclared.toRooted hkind)
      hkind with heq | hbase
    · have heq' : t = Core.object := heq
      exact ⟨[], heq' ▸ .root⟩
    · by_cases hne : t = Core.object
      · exact ⟨[], hne ▸ .root⟩
      · exact ⟨[t], .derived hkind hne hbase .root⟩
  notString := fun t hkind => by
    have hbase : ∀ i, i < pair.types.length → (pair.typeDef ⟨i⟩).base ≠ some Core.string := by
      decide +kernel
    exact hbase t.index (index_lt_of_reference pair_declared.wellDeclared.toRooted hkind)

/-! ## Packed sizes -/

/-- The packed size of a slot is what a field or an element takes. -/
theorem size?_shapeOf {t : TypeId}
    (h : ∀ u ∈ (c.shapeOf t).layouts, c.layoutSize? u = some (c.typeDef u).size) :
    (c.shapeOf t).size? c.pointerSize c.layoutSize? = some (c.holdingSize t) := by
  unfold shapeOf at h ⊢
  rw [holdingSize, TypeDef.holdingSize]
  split
  · rfl
  · rename_i hheld
    rw [if_neg hheld] at h
    exact h t (List.mem_singleton.2 rfl)

/-- The slots for the parts of a region take as many bytes as the region has. -/
theorem sizes?_region (hbyte : c.holdingSize Core.byte = 1)
    (hends : ∀ f, c.DeclaresField t f →
      (c.field f).offset + c.holdingSize (c.field f).type ≤ (c.typeDef t).size)
    (offset : Nat) (hoffset : offset ≤ (c.typeDef t).size) {slots : List Shape}
    (hslots : c.partShapes? (c.region t offset) = some slots)
    (hsizes : ∀ slot ∈ slots, ∀ u ∈ slot.layouts, c.layoutSize? u = some (c.typeDef u).size) :
    Shape.sizes? c.pointerSize c.layoutSize? slots = some ((c.typeDef t).size - offset) := by
  revert hoffset slots
  refine region_induction (P := fun offset parts => offset ≤ (c.typeDef t).size →
    ∀ {slots : List Shape}, c.partShapes? parts = some slots →
      (∀ slot ∈ slots, ∀ u ∈ slot.layouts, c.layoutSize? u = some (c.typeDef u).size) →
      Shape.sizes? c.pointerSize c.layoutSize? slots = some ((c.typeDef t).size - offset))
    ?_ ?_ ?_ ?_ ?_ offset
  · intro offset hdone hoffset slots hslots _
    obtain rfl := List.forall₂_nil_left_iff.1 (Partial.mapM_eq_some_iff.1 hslots)
    rw [Shape.sizes?, Nat.sub_eq_zero_of_le hdone]
  · intro offset hlt _ ih hoffset slots hslots hsizes
    obtain ⟨slot, rest, hslot, hrest, rfl⟩ := exists_of_partShapes?_cons hslots
    obtain rfl := Option.some.inj hslot
    rw [Shape.sizes?, size?_shapeOf (hsizes _ List.mem_cons_self), Option.bind_some,
      ih (by omega) hrest
        fun s hs => hsizes s (List.mem_cons_of_mem _ hs), Option.map_some, hbyte]
    exact congrArg some (by omega)
  · intro offset f hlt hf _ _ ih hoffset slots hslots hsizes
    obtain ⟨hdeclared, hstart⟩ := fieldAt?_eq_some hf
    have hend := hends f hdeclared
    obtain ⟨slot, rest, hslot, hrest, rfl⟩ := exists_of_partShapes?_cons hslots
    obtain rfl := Option.some.inj hslot
    rw [Shape.sizes?, size?_shapeOf (hsizes _ List.mem_cons_self), Option.bind_some,
      ih (by omega) hrest
        fun s hs => hsizes s (List.mem_cons_of_mem _ hs), Option.map_some]
    exact congrArg some (by omega)
  · intro offset f _ _ _ _ slots hslots _
    obtain ⟨slot, rest, hslot, -, rfl⟩ := exists_of_partShapes?_cons hslots
    cases hslot
  · intro offset f _ _ _ _ slots hslots _
    obtain ⟨slot, rest, hslot, -, rfl⟩ := exists_of_partShapes?_cons hslots
    cases hslot

namespace SoundGeometry

variable (h : c.SoundGeometry) (hc : c.Rooted)

include h hc

/-- **A struct held in place has the declared size of its type.** -/
theorem layoutSize?_eq (ht : c.Laid t) (hheld : (c.typeDef t).isHeldByReference = false) :
    c.layoutSize? t = some (c.typeDef t).size := by
  refine Laid.induction (P := fun t => (c.typeDef t).isHeldByReference = false →
    c.layoutSize? t = some (c.typeDef t).size) (fun t slots hbody ih hheld => ?_) ht hheld
  rcases kind_of_inPlace hheld with hscalar | hkind
  · exact layoutSize?_of_isScalar hscalar (fitsWidth_of_body? hscalar hbody)
  · rw [Catalog.layoutSize?_eq, hbody, Option.bind_some]
    rw [body?, hkind] at hbody
    have hsound := h.fields t (hc.ne_string_of_valueType hkind) (Or.inr hkind)
    refine sizes?_region hc.holdingSize_byte hsound.ends 0 (Nat.zero_le _) hbody
      fun slot hslot u hu => (ih slot hslot u hu).2 ?_
    obtain ⟨p, -, hp⟩ :=
      Partial.exists_of_forall₂_right (Partial.mapM_eq_some_iff.1 hbody) hslot
    obtain ⟨v, rfl⟩ := exists_shapeOf_of_partShape? hp
    exact (eq_of_mem_layouts hu).2

/-- **Slots have the size of what they hold.** -/
theorem shapeSize_shapeOf (ht : c.Stored t) : c.shapeSize (c.shapeOf t) = c.holdingSize t := by
  rw [shapeSize, size?_shapeOf, Option.getD_some]
  intro u hu
  exact h.layoutSize?_eq hc (ht u hu) (eq_of_mem_layouts hu).2

end SoundGeometry

end DataImage.Catalog
