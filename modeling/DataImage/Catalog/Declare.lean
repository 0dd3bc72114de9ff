import DataImage.Catalog.Core
import DataImage.Text.Utf16

/-!
# Making declarations

How a catalog grows. A type name that is taken keeps its first meaning, and declaring it again
changes nothing; of fields at one offset and of methods of one name the first is found. Classes and
array types get a virtual table: a value of the class `VTable` that records the size of an instance
and, for an array, of an element.

`Catalog.new` is the catalog with the core types.
-/

namespace DataImage.Catalog

/-! ## Values -/

/-- Add a value. -/
def addDescriptor (c : Catalog) (d : Descriptor) : DescriptorId × Catalog :=
  (⟨c.descriptors.length⟩, { c with descriptors := c.descriptors ++ [d] })

/-- Change a value. -/
def updateDescriptor (c : Catalog) (d : DescriptorId) (change : Descriptor → Descriptor) :
    Catalog :=
  { c with descriptors := c.descriptors.modify d.index change }

/-- Set what one field of an object holds. -/
def setPayload (c : Catalog) (d : DescriptorId) (field : FieldId) (payload : Payload) : Catalog :=
  c.updateDescriptor d (·.withField field payload)

/-- Add a read-only string. Its length counts 16-bit units. -/
def addString (c : Catalog) (text : String) : DescriptorId × Catalog :=
  c.addDescriptor (.object
    { context := Core.string
      isMutable := false
      fields := [(Core.stringLength, .scalar (UInt64.ofNat (Text.utf16 text).length))]
      source := some text })

/-- Add a code pointer. -/
def addCodePointer (c : Catalog) (target : CodeTarget) : CodePointerId × Catalog :=
  (⟨c.codePointers.length⟩, { c with codePointers := c.codePointers ++ [target] })

/-! ## Virtual tables -/

/-- Let a value be the virtual table of a type. -/
def setVtable (c : Catalog) (t : TypeId) (d : DescriptorId) : Catalog :=
  { c with vtables := Keyed.put t d c.vtables }

/-- The size of an element of an array type, and zero for any other type. -/
def elementSize (c : Catalog) (t : TypeId) : Nat :=
  match (c.declaredType t).kind with
  | .array element => (c.declaredType element).holdingSize c.pointerSize
  | _ => 0

/-- A field of the virtual table class with a size, if the class has the field. -/
def sizeEntry (c : Catalog) (name : String) (size : Nat) : List (FieldId × Payload) :=
  match c.findField? Core.vtable name with
  | some f => [(f, .scalar (UInt64.ofNat size))]
  | none => []

/-- What the fields of the virtual table of a type hold. -/
def vtableFields (c : Catalog) (t : TypeId) : List (FieldId × Payload) :=
  let entries := c.sizeEntry "BaseSize" (c.declaredType t).size ++
    (if c.elementSize t = 0 then [] else c.sizeEntry "ElementSize" (c.elementSize t))
  entries.foldl (fun fields (f, payload) => Keyed.put f payload fields) []

/-- The virtual table of a type, which is created if there is none. -/
def addVtable (c : Catalog) (t : TypeId) : DescriptorId × Catalog :=
  match c.vtable? t with
  | some d => (d, c)
  | none =>
    let table : ObjectValue :=
      { context := Core.vtable, isMutable := false, fields := c.vtableFields t }
    let (d, c) := c.addDescriptor (.object table)
    (d, c.setVtable t d)

/-! ## Types -/

/-- Declare a type, unless its name is taken. -/
def declareType (c : Catalog) (d : TypeDef) : TypeId × Catalog :=
  match c.findType? d.name with
  | some t => (t, c)
  | none => (⟨c.types.length⟩, { c with types := c.types ++ [d] })

/-- Declare an integer type. -/
def addScalar (c : Catalog) (name : String) (size : Nat) (signed : Bool) : TypeId × Catalog :=
  c.declareType { name, kind := .scalar signed, size }

/-- Declare a value type. -/
def addValueType (c : Catalog) (name : String) (size : Nat) : TypeId × Catalog :=
  c.declareType { name, kind := .valueType, size }

/-- Declare a class with its virtual table. -/
def addClass (c : Catalog) (name : String) (base : TypeId) (size : Nat) : TypeId × Catalog :=
  let (t, c) := c.declareType { name, kind := .reference, base := some base, size }
  let (_, c) := c.addVtable t
  (t, c)

/-- The array type of an element type, which is declared with its virtual table on first use. -/
def addArrayType (c : Catalog) (element : TypeId) : TypeId × Catalog :=
  match c.arrayTypes.lookup element with
  | some t => (t, c)
  | none =>
    let (t, c) := c.declareType
      { name := (c.declaredType element).name ++ "[]"
        kind := .array element
        base := some Core.array
        size := (c.declaredType Core.array).size }
    let c := { c with arrayTypes := Keyed.put element t c.arrayTypes }
    let (_, c) := c.addVtable t
    (t, c)

/-- Let the builder see another base class of a type from now on. -/
def reviseBase (c : Catalog) (t : TypeId) (base : Option TypeId) : Catalog :=
  let revised : TypeDef := { c.declaredType t with base := base }
  { c with revisions := Keyed.put t revised c.revisions }

/-! ## Members -/

/-- Declare a field. -/
def addField (c : Catalog) (owner : TypeId) (name : String) (offset : Nat) (type : TypeId) :
    FieldId × Catalog :=
  let f : FieldId := ⟨c.fields.length⟩
  (f, { c with
    fields := c.fields ++ [{ name, owner, offset, type }]
    types := c.types.modify owner.index fun d => { d with fields := d.fields ++ [f] } })

/-- Declare a method. -/
def addMethod (c : Catalog) (d : MethodDef) : MethodId × Catalog :=
  (⟨c.methods.length⟩, { c with methods := c.methods ++ [d] })

/-! ## The start -/

/-- The catalog of the core types for pointers of a number of bytes, with the virtual tables of the
core classes. -/
def new (pointerSize : Nat) : Catalog :=
  let bare : Catalog :=
    { pointerSize := pointerSize
      types := Core.types pointerSize
      fields := Core.fields pointerSize }
  [Core.object, Core.vtable, Core.array, Core.string].foldl (fun c t => (c.addVtable t).2) bare

end DataImage.Catalog
