import DataImage.Proofs.Bits
import DataImage.Proofs.Catalog.Geometry

/-!
# What a blob shows

The picture of a value in bytes, said without reference to how the bytes are made. `Blob.Holds` says
what a blob has at an offset, and `Catalog.Shows` that it has there what a field or an element
holds: zeros for nothing, the low bytes of an integer, a slot with a relocation for an address, and
for a part of the value what the fields of the part hold, each at its declared offset, with `0xab`
on all other bytes. `Catalog.Pictures` says that a blob as a whole shows an object or an array.

The rest is about bytes that follow one another: a blob that holds a sequence holds its pieces
(`Blob.Holds.append`), and relocations lie on the bytes of the contents that they belong to
(`Catalog.within_valueBytes`).
-/

namespace DataImage

/-! ## Blobs -/

/-- Whether a relocation lies on one of `count` bytes from an offset on. -/
def Relocation.within (r : Relocation) (lo count : Nat) : Bool :=
  lo ≤ r.offset && r.offset < lo + count

namespace Blob

/-- Whether a blob has some bytes at an offset, with exactly some relocations on them. -/
structure Holds (b : Blob) (lo : Nat) (bs : List UInt8) (rs : List Relocation) : Prop where
  bytes : (b.bytes.drop lo).take bs.length = bs
  relocations : b.relocations.filter (·.within lo bs.length) = rs

/-- Whether a blob has an empty slot of `count` bytes for the address of a symbol at an offset. -/
def HoldsAddress (b : Blob) (kind : RelocationKind) (count lo : Nat) (symbol : String) : Prop :=
  b.Holds lo (List.replicate count 0) [{ offset := lo, symbol, kind }]

end Blob

namespace Catalog

/-- **Whether a blob shows a payload** of a field or an element of a type at an offset. Other values
are known by the names that `names` gives them. -/
inductive Shows (c : Catalog) (names : DescriptorId → String → Prop) (kind : RelocationKind)
    (b : Blob) : TypeId → Option Payload → Nat → Prop where
  | absent {t : TypeId} {lo : Nat} (zeros : b.Holds lo (List.replicate (c.holdingSize t) 0) []) :
    Shows c names kind b t none lo
  | null {t : TypeId} {lo : Nat} (zeros : b.Holds lo (List.replicate (c.holdingSize t) 0) []) :
    Shows c names kind b t (some .null) lo
  | scalar {t : TypeId} {raw : UInt64} {lo : Nat} (isScalar : (c.typeDef t).isScalar = true)
    (bytes : b.Holds lo (Bits.littleEndian raw (c.typeDef t).size) []) :
    Shows c names kind b t (some (.scalar raw)) lo
  | reference {t : TypeId} {d : DescriptorId} {v : Descriptor} {symbol : String} {lo : Nat}
    (value : c.descriptor? d = some v) (notNested : v.isNested = false)
    (held : (c.typeDef t).isHeldByReference = true) (named : names d symbol)
    (address : b.HoldsAddress kind c.pointerSize lo symbol) :
    Shows c names kind b t (some (.descriptor d)) lo
  | code {t : TypeId} {p : CodePointerId} {m : MethodId} {lo : Nat}
    (target : c.codePointer? p = some (.method m)) (size : c.holdingSize t = c.pointerSize)
    (address : b.HoldsAddress kind c.pointerSize lo (c.methodSymbol m)) :
    Shows c names kind b t (some (.code p)) lo
  | part {t : TypeId} {d : DescriptorId} {o : ObjectValue} {lo : Nat}
    (value : c.descriptor? d = some (.object o)) (nested : o.nesting.isSome = true)
    (context : o.context = t) (isValueType : (c.typeDef t).kind = .valueType)
    (fields : ∀ f, c.DeclaresField t f →
      Shows c names kind b (c.field f).type (o.fields.lookup f) (lo + (c.field f).offset))
    (padding : ∀ i, i < (c.typeDef t).size → (∀ f, c.DeclaresField t f → ¬ c.Covers f i) →
      b.Holds (lo + i) [0xab] []) :
    Shows c names kind b t (some (.descriptor d)) lo

/-- The header of an instance: a flag word, and the address of the virtual table. -/
def ShowsHeader (c : Catalog) (names : DescriptorId → String → Prop) (kind : RelocationKind)
    (b : Blob) (context : TypeId) (isMutable : Bool) : Prop :=
  b.Holds 0 [if isMutable then 0x8 else 0x6, 0, 0, 0] [] ∧
    ∃ vtable symbol, c.vtable? context = some vtable ∧ names vtable symbol ∧
      b.HoldsAddress kind c.pointerSize 4 symbol

/-- What an element of an array holds. -/
def elementPayload (a : ArrayValue) (i : Nat) : Option Payload :=
  match a.values with
  | some values => values[i]?
  | none => (a.source.getD [])[i]?.map .scalar

/-- **Whether a blob is the picture of a value.** -/
inductive Pictures (c : Catalog) (names : DescriptorId → String → Prop) (kind : RelocationKind)
    (b : Blob) : Descriptor → Prop where
  | instanceOfClass {o : ObjectValue} {ts : List TypeId} (chain : c.Chain o.context ts)
    (size : b.bytes.length = (c.typeDef o.context).size)
    (header : c.ShowsHeader names kind b o.context o.isMutable)
    (fields : ∀ t ∈ ts, ∀ f, c.DeclaresField t f →
      c.Shows names kind b (c.field f).type (o.fields.lookup f) (c.field f).offset)
    (padding : ∀ i, c.headerSize ≤ i → i < (c.typeDef o.context).size →
      (∀ t ∈ ts, ∀ f, c.DeclaresField t f → ¬ c.Covers f i) → b.Holds i [0xab] []) :
    Pictures c names kind b (.object o)
  | instanceOfValueType {o : ObjectValue} (isValueType : (c.typeDef o.context).kind = .valueType)
    (size : b.bytes.length = (c.typeDef o.context).size)
    (fields : ∀ f, c.DeclaresField o.context f →
      c.Shows names kind b (c.field f).type (o.fields.lookup f) (c.field f).offset)
    (padding : ∀ i, i < (c.typeDef o.context).size →
      (∀ f, c.DeclaresField o.context f → ¬ c.Covers f i) → b.Holds i [0xab] []) :
    Pictures c names kind b (.object o)
  | array {a : ArrayValue} {element : TypeId}
    (isArray : (c.typeDef a.context).kind = .array element)
    (size : b.bytes.length = c.headerSize + 4 + a.length * c.holdingSize element)
    (header : c.ShowsHeader names kind b a.context a.isMutable)
    (length : b.Holds c.headerSize (Bits.littleEndian (UInt64.ofNat a.length) 4) [])
    (elements : ∀ i, i < a.length → ∃ p, elementPayload a i = some p ∧
      c.Shows names kind b element (some p) (c.headerSize + 4 + i * c.holdingSize element)) :
    Pictures c names kind b (.array a)

end Catalog

/-! ## Pieces of blobs -/

theorem Relocation.within_iff {r : Relocation} {lo count : Nat} :
    r.within lo count = true ↔ lo ≤ r.offset ∧ r.offset < lo + count := by
  rw [Relocation.within, Bool.and_eq_true, decide_eq_true_eq, decide_eq_true_eq]

namespace Blob

variable {b : Blob} {lo : Nat} {bs bs' : List UInt8} {rs rs' : List Relocation}

/-- A blob as a whole. -/
theorem holds_self (h : ∀ r ∈ b.relocations, r.within 0 b.bytes.length = true) :
    b.Holds 0 b.bytes b.relocations :=
  ⟨List.take_length, List.filter_eq_self.2 h⟩

/-- A blob that holds a sequence holds the pieces. -/
theorem Holds.append (h : b.Holds lo (bs ++ bs') (rs ++ rs'))
    (hr : ∀ r ∈ rs, r.within lo bs.length = true)
    (hr' : ∀ r ∈ rs', r.within (lo + bs.length) bs'.length = true) :
    b.Holds lo bs rs ∧ b.Holds (lo + bs.length) bs' rs' := by
  obtain ⟨hbytes, hrelocations⟩ := h
  have hlen := congrArg List.length hbytes
  simp only [List.length_take, List.length_drop, List.length_append] at hlen
  rw [List.length_append, List.take_add, List.drop_drop] at hbytes
  obtain ⟨hleft, hright⟩ := List.append_inj hbytes (by
    rw [List.length_take, List.length_drop]
    omega)
  have hfilter : ∀ p : Relocation → Bool,
      (∀ r, p r = true → r.within lo (bs ++ bs').length = true) →
      b.relocations.filter p = rs.filter p ++ rs'.filter p := by
    intro p hp
    rw [← List.filter_append, ← hrelocations, List.filter_filter]
    refine List.filter_congr fun r _ => ?_
    cases hpr : p r with
    | false => rfl
    | true => rw [hp r hpr]; rfl
  refine ⟨⟨hleft, ?_⟩, ⟨hright, ?_⟩⟩
  · rw [hfilter, List.filter_eq_self.2 hr, List.filter_eq_nil_iff.2, List.append_nil]
    · intro r hmem hwithin
      have h1 := Relocation.within_iff.1 hwithin
      have h2 := Relocation.within_iff.1 (hr' r hmem)
      omega
    · intro r hwithin
      have h1 := Relocation.within_iff.1 hwithin
      rw [Relocation.within_iff, List.length_append]
      omega
  · rw [hfilter, List.filter_eq_self.2 hr', List.filter_eq_nil_iff.2, List.nil_append]
    · intro r hmem hwithin
      have h1 := Relocation.within_iff.1 hwithin
      have h2 := Relocation.within_iff.1 (hr r hmem)
      omega
    · intro r hwithin
      have h1 := Relocation.within_iff.1 hwithin
      rw [Relocation.within_iff, List.length_append]
      omega

end Blob

/-! ## Bytes of contents -/

namespace Catalog

variable {c : Catalog} {kind : RelocationKind} {lo : Nat} {bs : List UInt8} {rs : List Relocation}

theorem within_addressSlot (hp : c.pointerSize ≠ 0) {symbol : String}
    (h : Module.addressSlot c.dataLayout kind lo symbol = .ok (bs, rs)) :
    ∀ r ∈ rs, r.within lo bs.length = true := by
  obtain ⟨-, rfl, rfl⟩ := Module.place_eq_ok_iff.1 h
  intro r hr
  obtain rfl := List.mem_singleton.1 hr
  rw [Relocation.within_iff, List.length_replicate]
  exact ⟨Nat.le_refl _, Nat.lt_add_of_pos_right (Nat.pos_of_ne_zero hp)⟩

theorem within_valuesBytes {vs : List Value} (ih : ∀ v ∈ vs, ∀ {lo bs rs},
      c.valueBytes kind lo v = .ok (bs, rs) → ∀ r ∈ rs, r.within lo bs.length = true)
    (h : c.valuesBytes kind lo vs = .ok (bs, rs)) : ∀ r ∈ rs, r.within lo bs.length = true := by
  induction vs generalizing lo bs rs with
  | nil =>
    obtain ⟨rfl, rfl⟩ := valuesBytes_nil_eq_ok_iff.1 h
    exact fun r hr => absurd hr List.not_mem_nil
  | cons v vs rest =>
    obtain ⟨b, r, b', r', hv, hvs, rfl, rfl⟩ := valuesBytes_cons_eq_ok_iff.1 h
    intro x hx
    rw [Relocation.within_iff, List.length_append]
    rcases List.mem_append.1 hx with hx | hx
    · have hwithin := Relocation.within_iff.1 (ih v List.mem_cons_self hv x hx)
      omega
    · have hwithin := Relocation.within_iff.1
        (rest (fun v hv => ih v (List.mem_cons_of_mem _ hv)) hvs x hx)
      omega

/-- **Relocations lie on the bytes of the contents that they belong to.** -/
theorem within_valueBytes (hp : c.pointerSize ≠ 0) {v : Value}
    (h : c.valueBytes kind lo v = .ok (bs, rs)) : ∀ r ∈ rs, r.within lo bs.length = true := by
  induction v using Value.induct generalizing lo bs rs with
  | int bits value signed =>
    rw [valueBytes] at h
    cases hb : c.dataLayout.integerBytes bits value with
    | error e => rw [hb] at h; cases h
    | ok b =>
      rw [hb] at h
      obtain ⟨-, rfl, rfl⟩ := Module.place_eq_ok_iff.1 h
      exact fun r hr => absurd hr List.not_mem_nil
  | zeroed shape =>
    obtain ⟨-, rfl, rfl⟩ := Module.place_eq_ok_iff.1 h
    exact fun r hr => absurd hr List.not_mem_nil
  | named t fields ih => exact within_valuesBytes (fun f hf => ih f hf) h
  | anon fields ih => exact within_valuesBytes (fun f hf => ih f hf) h
  | array shape elements ih => exact within_valuesBytes (fun f hf => ih f hf) h
  | reference d => exact within_addressSlot hp h
  | function m => exact within_addressSlot hp h

/-- Contents that follow one another are held one after the other. -/
theorem holds_cons (hp : c.pointerSize ≠ 0) {blob : Blob} {v : Value} {vs : List Value}
    (h : c.valuesBytes kind lo (v :: vs) = .ok (bs, rs)) (hb : blob.Holds lo bs rs) :
    ∃ b r b' r', c.valueBytes kind lo v = .ok (b, r) ∧ blob.Holds lo b r ∧
      c.valuesBytes kind (lo + b.length) vs = .ok (b', r') ∧ blob.Holds (lo + b.length) b' r' ∧
      bs.length = b.length + b'.length := by
  obtain ⟨b, r, b', r', hv, hvs, rfl, rfl⟩ := valuesBytes_cons_eq_ok_iff.1 h
  obtain ⟨hleft, hright⟩ := hb.append (within_valueBytes hp hv)
    (within_valuesBytes (fun v _ => within_valueBytes hp) hvs)
  exact ⟨b, r, b', r', hv, hleft, hvs, hright, List.length_append⟩

end Catalog

end DataImage
