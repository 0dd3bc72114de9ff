import DataImage.Proofs.Catalog.Picture

/-!
# Bytes of leaves

The bytes of contents without parts: zeros, integers, the addresses of methods, and the header of an
instance. All of them are there if there is room for them (`Module.place`).
-/

namespace DataImage.Catalog

variable {c : Catalog} {kind : RelocationKind} {lo : Nat} {t : TypeId} {v : Value}

theorem shapeSize_of_isScalar (ht : (c.typeDef t).isScalar = true) (hwidth : c.FitsWidth t) :
    c.shapeSize (.layout t) = (c.typeDef t).size := by
  rw [shapeSize, Shape.size?, layoutSize?_of_isScalar ht hwidth, Option.getD_some]

variable (kind lo) in
/-- An integer has its low bytes. -/
theorem valueBytes_scalar (ht : (c.typeDef t).isScalar = true) {raw : UInt64}
    (hv : c.scalar? t raw = some v) :
    c.valueBytes kind lo v = Module.place lo (Bits.littleEndian raw (c.typeDef t).size) [] := by
  obtain ⟨hsize, ⟨rfl, -, rfl⟩ | ⟨-, -, -, rfl⟩⟩ := scalar?_eq_some_iff.1 hv
  · have hwidth : c.FitsWidth t := fitsWidth_of_le (hsize ht).2 (by decide)
    rw [valueBytes, shapeOf_of_isScalar ht, shapeSize_of_isScalar ht hwidth,
      Bits.littleEndian_zero]
  · obtain ⟨hpos, hle⟩ := hsize ht
    have hcount : ((c.typeDef t).size * 8 + 7) / 8 = (c.typeDef t).size := by omega
    rw [valueBytes, valuesBytes_singleton, valueBytes, DataLayout.integerBytes]
    simp only [hcount, hpos, Nat.not_lt.2 hle, or_self, if_false, Bits.littleEndian_lowBits]
    rfl

variable (kind lo) in
/-- The address of a method has the slot of a code pointer. -/
theorem valueBytes_code {p : CodePointerId} (hv : c.code? t p = some v) :
    ∃ m, c.codePointer? p = some (.method m) ∧
      c.valueBytes kind lo v = Module.addressSlot c.dataLayout kind lo (c.methodSymbol m) := by
  obtain ⟨m, hp, -, -, rfl⟩ := code?_eq_some_iff.1 hv
  refine ⟨m, hp, ?_⟩
  rw [valueBytes, valuesBytes_singleton, valueBytes]

namespace SoundGeometry

variable (h : c.SoundGeometry) (hc : c.Rooted)

include h hc

/-- Nothing is as many zeros as a field or an element takes. -/
theorem valueBytes_zero (hv : c.zero? t = some v) :
    c.valueBytes kind lo v = Module.place lo (List.replicate (c.holdingSize t) 0) [] := by
  obtain ⟨hstored, rfl⟩ := zero?_eq_some_iff.1 hv
  rw [valueBytes, h.shapeSize_shapeOf hc hstored]

theorem valueBytes_null (hv : c.scalar? t 0 = some v) :
    c.valueBytes kind lo v = Module.place lo (List.replicate (c.holdingSize t) 0) [] := by
  obtain ⟨-, ⟨-, hstored, rfl⟩ | ⟨hne, -⟩⟩ := scalar?_eq_some_iff.1 hv
  · exact h.valueBytes_zero hc (zero?_eq_some_iff.2 ⟨hstored, rfl⟩)
  · exact absurd rfl hne

end SoundGeometry

namespace Rooted

variable (kind lo) (hc : c.Rooted)

include hc

/-- A code pointer in a field that can hold one. -/
theorem valueBytes_codeField {f : FieldId} {p : CodePointerId} (hv : c.codeField? f p = some v) :
    ∃ m, c.codePointer? p = some (.method m) ∧
      c.holdingSize (c.field f).type = c.pointerSize ∧
      c.valueBytes kind lo v = Module.addressSlot c.dataLayout kind lo (c.methodSymbol m) := by
  unfold codeField? at hv
  split at hv
  · rename_i htarget
    obtain ⟨m, hm, hbytes⟩ := valueBytes_code kind lo hv
    exact ⟨m, hm, by rw [htarget, hc.type_codePointerTarget, hc.holdingSize_intPtr], hbytes⟩
  · split at hv
    · rename_i htype
      obtain ⟨target, htarget, hv⟩ := Option.bind_eq_some_iff.1 hv
      obtain ⟨-, rfl⟩ := instance?_eq_some_iff.1 hv
      obtain ⟨m, hm, hbytes⟩ := valueBytes_code kind lo htarget
      refine ⟨m, hm, by rw [htype, hc.holdingSize_codePointer], ?_⟩
      rw [valueBytes, valuesBytes_singleton, hbytes]
    · cases hv

/-- The header of an instance: four bytes of flags, and the slot of the virtual table. -/
theorem valueBytes_header {context : TypeId} {isMutable : Bool}
    (hv : c.header? context isMutable = some v) : ∃ vtable word, c.vtable? context = some vtable ∧
      v = .named Core.object [.named Core.objectHeader [word, .reference vtable]] ∧
      ∀ lo, c.valueBytes kind lo word =
        Module.place lo [if isMutable then 0x8 else 0x6, 0, 0, 0] [] := by
  obtain ⟨vtable, word, hvtable, hword, -, -, rfl⟩ := header?_eq_some_iff.1 hv
  refine ⟨vtable, word, hvtable, rfl, fun lo => ?_⟩
  rw [hc.type_multiUseWord] at hword
  have hscalar : (c.typeDef Core.uint32).isScalar = true := hc.isScalar_core rfl rfl
  have hsize : (c.typeDef Core.uint32).size = 4 := by rw [hc.size_core rfl]; rfl
  rw [valueBytes_scalar kind lo hscalar hword, hsize]
  cases isMutable <;> rfl

end Rooted

end DataImage.Catalog
