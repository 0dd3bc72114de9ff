import DataImage.Proofs.Bits
import DataImage.Proofs.Catalog.CoreTypes

/-!
# Contents that conform to their types

`Catalog.Conforms` says of contents that whatever fills a slot of a struct or of an array has the
type of the slot, to any depth. Integers, addresses of code and the headers of instances conform
whenever they exist; what the fields and elements of a value hold is the subject of
`Catalog.WellTyped`.
-/

namespace DataImage

/-- The shape of the type of a value. Structs without name have none. -/
def Value.shape? : Value → Option Shape
  | .int bits _ _ => some (.int bits)
  | .zeroed shape => some shape
  | .named t _ => some (.layout t)
  | .anon _ => none
  | .array element elements => some (.array element elements.length)
  | .reference _ | .function _ => some .ptr

namespace Catalog

/-- Whether a value can fill a slot: it has the type of the slot, or it is an address and the slot
is an integer of the width of a pointer. -/
def Fits (c : Catalog) (slot : Shape) (v : Value) : Prop :=
  v.shape? = some slot ∨ v.shape? = some .ptr ∧ slot = .int (c.pointerSize * 8)

/-- Contents whose parts fill the slots of their structs and arrays, and which refer to values of a
set only. -/
inductive Conforms (c : Catalog) (values : DescriptorId → Prop) : Value → Prop where
  | int {bits : Nat} {value : UInt64} {signed : Bool} (positive : bits ≠ 0) (encoded : bits ≤ 64)
    (range : Bits.lowBits value bits = value) : Conforms c values (.int bits value signed)
  | zeroed {shape : Shape} : Conforms c values (.zeroed shape)
  | named {t : TypeId} {fields : List Value} {slots : List Shape} (body : c.body? t = some slots)
    (fit : List.Forall₂ c.Fits slots fields) (inner : ∀ v ∈ fields, Conforms c values v) :
    Conforms c values (.named t fields)
  | anon {fields : List Value} (inner : ∀ v ∈ fields, Conforms c values v) :
    Conforms c values (.anon fields)
  | array {element : Shape} {elements : List Value}
    (fit : ∀ v ∈ elements, v.shape? = some element) (inner : ∀ v ∈ elements, Conforms c values v) :
    Conforms c values (.array element elements)
  | reference {d : DescriptorId} (mem : values d) : Conforms c values (.reference d)
  | function {m : MethodId} : Conforms c values (.function m)

/-- Contents that conform and have the type of a slot. -/
def Fills (c : Catalog) (values : DescriptorId → Prop) (slot : Shape) (v : Value) : Prop :=
  v.shape? = some slot ∧ c.Conforms values v

variable {c : Catalog} {values : DescriptorId → Prop}

/-- Contents that conform refer to values of the set. -/
theorem Conforms.references {v : Value} (h : c.Conforms values v) :
    ∀ d ∈ v.references, values d := by
  induction h with
  | int | zeroed | function => exact fun d hd => absurd hd List.not_mem_nil
  | named _ _ _ ih | anon _ ih | array _ _ ih =>
    intro d hd
    obtain ⟨v, hv, hd⟩ := Value.mem_referencesAll.1 hd
    exact ih v hv d hd
  | reference mem =>
    intro d hd
    obtain rfl := List.mem_singleton.1 hd
    exact mem

/-- A struct whose slots are filled one by one. -/
theorem conforms_named {t : TypeId} {slots : List Shape} {fields : List Value}
    (body : c.body? t = some slots) (fill : List.Forall₂ (c.Fills values) slots fields) :
    c.Conforms values (.named t fields) := by
  refine .named body (fill.imp fun _ _ h => Or.inl h.1) fun v hv => ?_
  obtain ⟨slot, -, hslot⟩ := Partial.exists_of_forall₂_right fill hv
  exact hslot.2

/-! ## Integers and code -/

variable (values) in
/-- An integer that can be encoded. -/
theorem scalar_fills {t : TypeId} (ht : (c.typeDef t).isScalar = true)
    (hsize : (c.typeDef t).size ≠ 0 ∧ (c.typeDef t).size ≤ 8) (raw : UInt64) :
    ∃ v, c.scalar? t raw = some v ∧ c.Fills values (c.shapeOf t) v := by
  have hwidth : c.FitsWidth t := fitsWidth_of_le hsize.2 (by decide)
  have hlaid := laid_of_isScalar ht hwidth
  have hstored : c.Stored t := by
    rw [Stored, shapeOf_of_isScalar ht]
    exact fun u hu => List.mem_singleton.1 hu ▸ hlaid
  by_cases hraw : raw = 0
  · exact ⟨_, scalar?_eq_some_iff.2 ⟨fun _ => hsize, Or.inl ⟨hraw, hstored, rfl⟩⟩, rfl, .zeroed⟩
  · refine ⟨_, scalar?_eq_some_iff.2 ⟨fun _ => hsize, Or.inr ⟨hraw, hwidth, hlaid, rfl⟩⟩, ?_, ?_⟩
    · rw [Value.shape?, shapeOf_of_isScalar ht]
    · refine conforms_named (body?_of_isScalar ht hwidth) (.cons ⟨rfl, ?_⟩ .nil)
      exact .int (by omega) (by omega) (Bits.lowBits_lowBits raw _)

/-- Zeroed memory of a type that can be stored. -/
theorem zero_fills {t : TypeId} (ht : c.Stored t) :
    ∃ v, c.zero? t = some v ∧ c.Fills values (c.shapeOf t) v :=
  ⟨_, zero?_eq_some_iff.2 ⟨ht, rfl⟩, rfl, .zeroed⟩

variable (values) in
/-- A field of an integer type that holds an integer or nothing. -/
theorem held_fills_of_isScalar {f : FieldId} (ht : (c.typeDef (c.field f).type).isScalar = true)
    (hsize : (c.typeDef (c.field f).type).size ≠ 0 ∧ (c.typeDef (c.field f).type).size ≤ 8)
    {p : Option Payload} (hp : ∀ x ∈ p, ∃ raw, x = .scalar raw)
    (part : DescriptorId → Option Value) :
    ∃ v, c.held? part f p = some v ∧ c.Fills values (c.shapeOf (c.field f).type) v := by
  cases p with
  | none =>
    refine zero_fills ?_
    rw [Stored, shapeOf_of_isScalar ht]
    exact fun u hu => List.mem_singleton.1 hu ▸
      laid_of_isScalar ht (fitsWidth_of_le hsize.2 (by decide))
  | some x =>
    obtain ⟨raw, rfl⟩ := hp x rfl
    obtain ⟨v, hv, hfills⟩ := scalar_fills values ht hsize raw
    exact ⟨v, by rw [held?, payload?, if_pos ht, hv], hfills⟩

namespace Buildable

variable (h : c.Buildable)

include h

variable (values) in
/-- The address of a method, in an integer of the width of a pointer. -/
theorem code_fills {p : CodePointerId} {m : MethodId} (hp : c.codePointer? p = some (.method m))
    (hm : c.Declarable m) :
    ∃ v, c.code? Core.intPtr p = some v ∧ c.Fills values (c.shapeOf Core.intPtr) v := by
  have hscalar : (c.typeDef Core.intPtr).isScalar = true := h.isScalar_core rfl rfl
  have hwidth : c.FitsWidth Core.intPtr := h.fitsWidth_core rfl rfl
  refine ⟨_, code?_eq_some_iff.2 ⟨m, hp, hm, laid_of_isScalar hscalar hwidth, rfl⟩, ?_, ?_⟩
  · rw [Value.shape?, shapeOf_of_isScalar hscalar]
  · refine .named (body?_of_isScalar hscalar hwidth) (.cons (Or.inr ⟨rfl, ?_⟩) .nil) fun v hv => ?_
    · rw [h.size_core rfl]
      rfl
    · obtain rfl := List.mem_singleton.1 hv
      exact .function

/-- A code pointer in a field that can hold one. -/
theorem codeField_fills {f : FieldId} {p : CodePointerId} {m : MethodId}
    (hwidth : c.pointerSize ≠ 0) (hp : c.codePointer? p = some (.method m)) (hm : c.Declarable m)
    (hf : f = Core.codePointerTarget ∨ (c.field f).type = Core.codePointer) :
    ∃ v, c.codeField? f p = some v ∧ c.Fills values (c.shapeOf (c.field f).type) v := by
  obtain ⟨v, hv, hfills⟩ := h.code_fills values hp hm
  unfold codeField?
  by_cases htarget : f = Core.codePointerTarget
  · rw [if_pos htarget, htarget, h.type_codePointerTarget]
    exact ⟨v, hv, hfills⟩
  · have htype := hf.resolve_left htarget
    have hbody := h.body?_codePointer hwidth
    have hintPtr : c.shapeOf Core.intPtr = .layout Core.intPtr := h.shapeOf_core_scalar rfl rfl
    have hlaid : c.Laid Core.codePointer := by
      refine laid_iff.2 ⟨_, hbody, fun slot hslot u hu => ?_⟩
      obtain rfl := List.mem_singleton.1 hslot
      obtain rfl := List.mem_singleton.1 hu
      exact h.laid_core_scalar rfl rfl
    rw [if_neg htarget, if_pos htype, htype, h.type_codePointerTarget, hv, Option.bind_some]
    refine ⟨_, instance?_eq_some_iff.2 ⟨hlaid, rfl⟩, ?_, ?_⟩
    · rw [Value.shape?, h.shapeOf_core_scalar rfl rfl]
    · exact conforms_named hbody (.cons (hintPtr ▸ hfills) .nil)

/-! ## Headers -/

/-- The header of an instance whose type has a virtual table. -/
theorem header_fills (hwidth : c.pointerSize ≠ 0) {context : TypeId} {vtable : DescriptorId}
    (hvtable : c.vtable? context = some vtable) (hmem : values vtable) (isMutable : Bool) :
    ∃ v, c.header? context isMutable = some v ∧ c.Fills values (.layout Core.object) v := by
  have hscalar : (c.typeDef Core.uint32).isScalar = true := h.isScalar_core rfl rfl
  have hsize : (c.typeDef Core.uint32).size = 4 := by rw [h.size_core rfl]; rfl
  obtain ⟨word, hword, hfills⟩ :=
    scalar_fills values hscalar (by omega) (flagWord isMutable)
  rw [shapeOf_of_isScalar hscalar] at hfills
  have hroom := h.room
  have hbody := h.body?_objectHeader (by omega)
  rw [if_neg hwidth] at hbody
  rw [← h.type_multiUseWord] at hword
  refine ⟨_, header?_eq_some_iff.2
    ⟨vtable, word, hvtable, hword, h.laid_objectHeader, h.laid_object, rfl⟩, rfl, ?_⟩
  refine conforms_named h.body?_object (.cons ⟨rfl, ?_⟩ .nil)
  exact conforms_named hbody (.cons hfills (.cons ⟨rfl, .reference hmem⟩ .nil))

variable (values) in
/-- The length of an array or of a string. -/
theorem length_fills (raw : UInt64) :
    ∃ v, c.scalar? Core.int32 raw = some v ∧ c.Fills values (.layout Core.int32) v := by
  have hscalar : (c.typeDef Core.int32).isScalar = true := h.isScalar_core rfl rfl
  have hsize : (c.typeDef Core.int32).size = 4 := by rw [h.size_core rfl]; rfl
  have hfills := scalar_fills values hscalar (by omega) raw
  rwa [shapeOf_of_isScalar hscalar] at hfills

/-- The header and the length of an array. -/
theorem arrayBase_fills (hwidth : c.pointerSize ≠ 0) {a : ArrayValue} {vtable : DescriptorId}
    (hvtable : c.vtable? a.context = some vtable) (hmem : values vtable) :
    ∃ v, c.arrayBase? a = some v ∧ c.Fills values (.layout Core.array) v := by
  obtain ⟨header, hheader, hfills⟩ := h.header_fills hwidth hvtable hmem a.isMutable
  obtain ⟨length, hlength, hfills'⟩ := h.length_fills values (UInt64.ofNat a.length)
  rw [← h.type_arrayLength] at hlength
  have hroom := h.room
  exact ⟨_, arrayBase?_eq_some_iff.2 ⟨header, length, hheader, hlength, h.laid_array, rfl⟩, rfl,
    conforms_named (h.body?_array (by omega)) (.cons hfills (.cons hfills' .nil))⟩

variable (values) in
/-- The characters of a string. -/
theorem characters_fill (o : ObjectValue) :
    ∃ v, c.characters? o = some v ∧ c.Conforms values v := by
  have hscalar : (c.typeDef (c.field Core.firstChar).type).isScalar = true := by
    rw [h.type_firstChar]
    exact h.isScalar_core rfl rfl
  have hsize : (c.typeDef (c.field Core.firstChar).type).size = 2 := by
    rw [h.type_firstChar, h.size_core rfl]
    rfl
  have hstored : c.Stored (c.field Core.firstChar).type := by
    rw [Stored, shapeOf_of_isScalar hscalar]
    exact fun u hu => List.mem_singleton.1 hu ▸
      laid_of_isScalar hscalar (fitsWidth_of_le (Nat.le_of_eq hsize) (by decide))
  obtain ⟨units, hunits⟩ := Partial.exists_forall₂ (l := Text.utf16 (o.source.getD ""))
    fun unit _ => scalar_fills values hscalar (by omega) unit.toUInt64
  refine ⟨_, characters?_eq_some_iff.2 ⟨hstored, units, Partial.mapM_eq_some_iff.2
    (hunits.imp fun _ _ hunit => hunit.1), rfl⟩, .array (fun v hv => ?_) fun v hv => ?_⟩
  · obtain ⟨unit, -, -, hfills⟩ := Partial.exists_of_forall₂_right hunits hv
    exact hfills.1
  · obtain ⟨unit, -, -, hfills⟩ := Partial.exists_of_forall₂_right hunits hv
    exact hfills.2

end Buildable

end Catalog

end DataImage
