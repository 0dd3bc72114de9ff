import DataImage.Image.Reference
import DataImage.Proofs.Catalog.Value
import DataImage.Proofs.Module.Addresses

/-!
# Bytes of contents

The bytes that the contents of a value take, before they have positions: the sizes of structs come
from the declared types, and an address is a slot with the name of what lies there. So the bytes of
a value depend on the catalog alone (`Catalog.blobOf`).
-/

namespace DataImage.Catalog

variable (c : Catalog)

/-- The layout of data in images of the catalog. -/
def dataLayout : DataLayout := { pointerBytes := c.pointerSize }

/-- The packed size of a shape, zero if it has none. -/
def shapeSize (s : Shape) : Nat := (s.size? c.pointerSize c.layoutSize?).getD 0

/-- The name of the global of a value. -/
def nameOf (d : DescriptorId) : String :=
  match c.descriptor? d with
  | some v => c.globalName d v
  | none => ""

mutual

/-- The size of the type of a value's contents. -/
def valueSize (c : Catalog) : Value → Nat
  | .int bits _ _ => (bits + 7) / 8
  | .zeroed shape => c.shapeSize shape
  | .named t _ => c.shapeSize (.layout t)
  | .anon fields => c.valuesSize fields
  | .array element elements => elementsSize (c.shapeSize element) elements.length
  | .reference _ | .function _ => c.pointerSize

/-- The sum of the sizes of the types of values. -/
def valuesSize (c : Catalog) : List Value → Nat
  | [] => 0
  | v :: vs => c.valueSize v + c.valuesSize vs

end

mutual

/-- The bytes of contents whose first byte lies at `offset`, and their relocations. -/
def valueBytes (c : Catalog) (kind : RelocationKind) (offset : Nat) :
    Value → Except LoweringError (List UInt8 × List Relocation)
  | .int bits value _ => do
    let bytes ← c.dataLayout.integerBytes bits value
    Module.place offset bytes []
  | .zeroed shape => Module.place offset (List.replicate (c.shapeSize shape) 0) []
  | .named _ fields => c.valuesBytes kind offset fields
  | .anon fields => c.valuesBytes kind offset fields
  | .array _ elements => c.valuesBytes kind offset elements
  | .reference d => Module.addressSlot c.dataLayout kind offset (c.nameOf d)
  | .function m => Module.addressSlot c.dataLayout kind offset (c.methodSymbol m)

/-- The bytes of contents that follow one another from `offset` on, and their relocations. -/
def valuesBytes (c : Catalog) (kind : RelocationKind) (offset : Nat) :
    List Value → Except LoweringError (List UInt8 × List Relocation)
  | [] => return ([], [])
  | v :: vs => do
    let (bytes, relocations) ← c.valueBytes kind offset v
    let (bytes', relocations') ← c.valuesBytes kind (offset + bytes.length) vs
    return (bytes ++ bytes', relocations ++ relocations')

end

/-- The size of the type of a value's global. -/
def globalSize (v : Descriptor) (contents : Value) : Nat :=
  if v.takesTypeFromContents then c.valueSize contents else c.shapeSize (.layout v.context)

/-- The blob of a value with the given contents. -/
def blobOf (kind : RelocationKind) (d : DescriptorId) (v : Descriptor) (contents : Value) :
    Except LoweringError Blob := do
  let name := c.globalName d v
  let (bytes, relocations) ← c.valueBytes kind 0 contents
  let size ← Module.knownSize (word? (c.globalSize v contents))
  if size ≠ bytes.length then throw (.sizeMismatch name size bytes.length)
  return { name, bytes, relocations, writable := v.isMutable }

/-! ## Contents one after the other -/

variable {c} {kind : RelocationKind} {lo : Nat} {bs : List UInt8} {rs : List Relocation}

theorem valuesBytes_nil_eq_ok_iff :
    c.valuesBytes kind lo [] = .ok (bs, rs) ↔ bs = [] ∧ rs = [] := by
  rw [valuesBytes]
  constructor
  · intro h
    obtain ⟨rfl, rfl⟩ := Prod.mk.inj (Except.ok.inj h)
    exact ⟨rfl, rfl⟩
  · rintro ⟨rfl, rfl⟩
    rfl

theorem valuesBytes_cons_eq_ok_iff {v : Value} {vs : List Value} :
    c.valuesBytes kind lo (v :: vs) = .ok (bs, rs) ↔ ∃ b r b' r',
      c.valueBytes kind lo v = .ok (b, r) ∧ c.valuesBytes kind (lo + b.length) vs = .ok (b', r') ∧
      bs = b ++ b' ∧ rs = r ++ r' := by
  rw [valuesBytes]
  cases hv : c.valueBytes kind lo v with
  | error e => simp [bind, Except.bind]
  | ok p =>
    obtain ⟨b, r⟩ := p
    cases hvs : c.valuesBytes kind (lo + b.length) vs with
    | error e =>
      simp only [bind, Except.bind, hvs]
      constructor
      · intro h
        cases h
      · rintro ⟨b₁, r₁, b', r', heq, hrest, -, -⟩
        obtain ⟨rfl, rfl⟩ := Prod.mk.inj (Except.ok.inj heq)
        rw [hvs] at hrest
        cases hrest
    | ok p' =>
      obtain ⟨b', r'⟩ := p'
      simp only [bind, Except.bind, hvs]
      constructor
      · intro h
        obtain ⟨rfl, rfl⟩ := Prod.mk.inj (Except.ok.inj h)
        exact ⟨b, r, b', r', rfl, hvs, rfl, rfl⟩
      · rintro ⟨b₁, r₁, b₂, r₂, heq, hrest, rfl, rfl⟩
        obtain ⟨rfl, rfl⟩ := Prod.mk.inj (Except.ok.inj heq)
        rw [hvs] at hrest
        obtain ⟨rfl, rfl⟩ := Prod.mk.inj (Except.ok.inj hrest)
        rfl

/-- A struct of one field has the bytes of the field. -/
theorem valuesBytes_singleton (v : Value) :
    c.valuesBytes kind lo [v] = c.valueBytes kind lo v := by
  rw [valuesBytes]
  cases hv : c.valueBytes kind lo v with
  | error e => rfl
  | ok p =>
    obtain ⟨b, r⟩ := p
    simp [valuesBytes, bind, Except.bind, pure, Except.pure]

end DataImage.Catalog
