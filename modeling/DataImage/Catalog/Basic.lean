import DataImage.Bits
import DataImage.Keyed

/-!
# The catalog of declarations

What an image is built from: types with their fields, methods, and the values to be placed. All are
lists addressed by position. A value is described by its type and by what its fields or elements
hold; it may refer to other values by their positions, in any direction.

`Catalog.typeDef` is what the builder of an image sees. It differs from the declaration only for
types whose definition was revised; looking up fields by name always follows the declarations.
-/

namespace DataImage

/-- Position of a declared type. -/
structure TypeId where
  index : Nat
deriving DecidableEq, Repr, Inhabited

/-- Position of a declared field. -/
structure FieldId where
  index : Nat
deriving DecidableEq, Repr, Inhabited

/-- Position of a declared method. -/
structure MethodId where
  index : Nat
deriving DecidableEq, Repr, Inhabited

/-- Position of a described value. -/
structure DescriptorId where
  index : Nat
deriving DecidableEq, Repr, Inhabited

/-- Position of a code pointer. -/
structure CodePointerId where
  index : Nat
deriving DecidableEq, Repr, Inhabited

/-! ## Types -/

/-- The shape of a declared type. -/
inductive TypeKind where
  /-- An integer. -/
  | scalar (signed : Bool)
  /-- A class, whose instances are held by reference. -/
  | reference
  /-- A struct, whose instances are held in place. -/
  | valueType
  /-- An array class, whose instances are held by reference. -/
  | array (element : TypeId)
deriving DecidableEq, Repr

instance : Inhabited TypeKind := ⟨.scalar false⟩

/-- A declared type. -/
structure TypeDef where
  name : String
  kind : TypeKind
  /-- The base class. Only classes look at it. -/
  base : Option TypeId := none
  /-- The size of an instance in bytes, with the part that belongs to the base class. -/
  size : Nat
  /-- The fields that the type itself declares, in order. -/
  fields : List FieldId := []
deriving DecidableEq, Repr, Inhabited

namespace TypeDef

/-- Whether this is an integer type. -/
def isScalar (d : TypeDef) : Bool :=
  match d.kind with
  | .scalar _ => true
  | _ => false

/-- Whether this is an integer type with a sign. -/
def isSigned (d : TypeDef) : Bool := d.kind = .scalar true

/-- Whether instances have neither a header nor a base. -/
def isValueType (d : TypeDef) : Bool :=
  match d.kind with
  | .scalar _ | .valueType => true
  | .reference | .array _ => false

/-- Whether a field or an element holds a pointer to the instance. -/
def isHeldByReference (d : TypeDef) : Bool :=
  match d.kind with
  | .reference | .array _ => true
  | .scalar _ | .valueType => false

/-- The bytes that a field or an element of this type takes. -/
def holdingSize (d : TypeDef) (pointerSize : Nat) : Nat :=
  if d.isHeldByReference then pointerSize else d.size

end TypeDef

/-- A declared field. -/
structure FieldDef where
  name : String
  owner : TypeId
  /-- The distance in bytes from the start of the instance. -/
  offset : Nat
  type : TypeId
deriving DecidableEq, Repr, Inhabited

/-- A declared method. -/
structure MethodDef where
  name : String
  owner : TypeId
  params : List TypeId := []
  result : Option TypeId := none
  /-- Whether the method lives in another program, which knows it by its bare name. -/
  isExternal : Bool := false
deriving DecidableEq, Repr, Inhabited

/-! ## Values -/

/-- What a code pointer points to. -/
inductive CodeTarget where
  /-- The start of a method. -/
  | method (id : MethodId)
  /-- An exception handler, known by a name for the reader. -/
  | handler (name : String)
deriving DecidableEq, Repr, Inhabited

/-- What a field or an element holds. -/
inductive Payload where
  /-- Nothing: a null reference, or zero. -/
  | null
  /-- A bit pattern. -/
  | scalar (raw : UInt64)
  /-- Another value, in place if that value is nested, else by reference. -/
  | descriptor (id : DescriptorId)
  /-- A code pointer. -/
  | code (id : CodePointerId)
deriving DecidableEq, Repr, Inhabited

/-- How a payload is named in a message. -/
def Payload.text : Payload → String
  | .null => "null"
  | .scalar raw => "scalar " ++ Bits.hexNumber raw
  | .descriptor id => "descriptor #" ++ toString id.index
  | .code id => "code pointer #" ++ toString id.index

/-- An instance of a class or of a value type. -/
structure ObjectValue where
  /-- The declared type. -/
  context : TypeId
  /-- The value that this one is a part of. Such a value has no place of its own. -/
  nesting : Option DescriptorId := none
  isMutable : Bool
  /-- What the fields hold. A field that is not listed is zero. -/
  fields : List (FieldId × Payload) := []
  /-- The characters of a string. -/
  source : Option String := none
deriving DecidableEq, Repr, Inhabited

/-- An instance of an array class. -/
structure ArrayValue where
  /-- The declared array type. -/
  context : TypeId
  /-- The value that this one is a part of. -/
  nesting : Option DescriptorId := none
  isMutable : Bool
  length : Nat
  /-- What the elements hold. -/
  values : Option (List Payload) := none
  /-- The elements as bit patterns, where `values` is absent. -/
  source : Option (List UInt64) := none
deriving DecidableEq, Repr, Inhabited

/-- A value to be placed in the image. -/
inductive Descriptor where
  | object (value : ObjectValue)
  | array (value : ArrayValue)
deriving DecidableEq, Repr, Inhabited

namespace Descriptor

/-- The declared type of a value. -/
def context : Descriptor → TypeId
  | .object o => o.context
  | .array a => a.context

/-- The value that this one is a part of. -/
def nesting : Descriptor → Option DescriptorId
  | .object o => o.nesting
  | .array a => a.nesting

/-- Whether this value is a part of another one. -/
def isNested (d : Descriptor) : Bool := d.nesting.isSome

/-- Whether the program may write to the value. -/
def isMutable : Descriptor → Bool
  | .object o => o.isMutable
  | .array a => a.isMutable

/-- The value as a part of another one. -/
def nestedIn (d : Descriptor) (container : DescriptorId) : Descriptor :=
  match d with
  | .object o => .object { o with nesting := some container }
  | .array a => .array { a with nesting := some container }

/-- The value with another content of a field. An array has no fields and stays as it is. -/
def withField (d : Descriptor) (field : FieldId) (payload : Payload) : Descriptor :=
  match d with
  | .object o => .object { o with fields := Keyed.put field payload o.fields }
  | .array a => .array a

end Descriptor

/-! ## The catalog -/

/-- Everything that is declared. -/
structure Catalog where
  /-- The size of a pointer in bytes. -/
  pointerSize : Nat
  types : List TypeDef := []
  fields : List FieldDef := []
  methods : List MethodDef := []
  descriptors : List Descriptor := []
  codePointers : List CodeTarget := []
  /-- The virtual table of each type that has one. -/
  vtables : List (TypeId × DescriptorId) := []
  /-- The array type of each element type that has one. -/
  arrayTypes : List (TypeId × TypeId) := []
  /-- Definitions that the builder sees in place of the declared ones. -/
  revisions : List (TypeId × TypeDef) := []
deriving DecidableEq, Repr, Inhabited

namespace Catalog

/-- A type as it was declared. Outside the list this is a nameless integer of no width. -/
def declaredType (c : Catalog) (t : TypeId) : TypeDef := c.types.getD t.index default

/-- A type as the builder sees it. -/
def typeDef (c : Catalog) (t : TypeId) : TypeDef :=
  (c.revisions.lookup t).getD (c.declaredType t)

/-- The name of a type. -/
def typeName (c : Catalog) (t : TypeId) : String := (c.typeDef t).name

/-- The bytes that a field or an element of a type takes. -/
def holdingSize (c : Catalog) (t : TypeId) : Nat := (c.typeDef t).holdingSize c.pointerSize

/-- A field. -/
def field (c : Catalog) (f : FieldId) : FieldDef := c.fields.getD f.index default

/-- The first field that a type itself declares at an offset. -/
def fieldAt? (c : Catalog) (t : TypeId) (offset : Nat) : Option FieldId :=
  (c.fields.findIdx? fun f => f.owner = t && f.offset = offset).map FieldId.mk

/-- A method. -/
def method (c : Catalog) (m : MethodId) : MethodDef := c.methods.getD m.index default

/-- The first method of a name. -/
def findMethod? (c : Catalog) (name : String) : Option MethodId :=
  (c.methods.findIdx? (·.name = name)).map MethodId.mk

/-- The symbol of a method: its bare name if it is external, else owner, name and position. -/
def methodSymbol (c : Catalog) (m : MethodId) : String :=
  let d := c.method m
  if d.isExternal then d.name
  else c.typeName d.owner ++ "::" ++ d.name ++ "_" ++ toString m.index

/-- A value. -/
def descriptor? (c : Catalog) (d : DescriptorId) : Option Descriptor := c.descriptors[d.index]?

/-- The declared type of a value. -/
def contextOf (c : Catalog) (d : DescriptorId) : TypeId :=
  (c.descriptors.getD d.index default).context

/-- The virtual table of a type. -/
def vtable? (c : Catalog) (t : TypeId) : Option DescriptorId := c.vtables.lookup t

/-- A code pointer. -/
def codePointer? (c : Catalog) (p : CodePointerId) : Option CodeTarget := c.codePointers[p.index]?

/-- The type of a name. -/
def findType? (c : Catalog) (name : String) : Option TypeId :=
  (c.types.findIdx? (·.name = name)).map TypeId.mk

/-- The first field of a name among those that a type itself declares. -/
def ownField? (c : Catalog) (t : TypeId) (name : String) : Option FieldId :=
  (c.declaredType t).fields.find? fun f => (c.field f).name = name

/-- The field of a name on a type or on one of at most `steps` bases above it. -/
def findFieldWithin (c : Catalog) (name : String) : (steps : Nat) → TypeId → Option FieldId
  | 0, t => c.ownField? t name
  | steps + 1, t =>
    match c.ownField? t name with
    | some f => some f
    | none =>
      let d := c.declaredType t
      if d.isValueType then none else d.base.bind (c.findFieldWithin name steps)

/-- The field of a name that a type declares or inherits. Bases are declared before the classes that
derive from them, so there are fewer bases than types. -/
def findField? (c : Catalog) (t : TypeId) (name : String) : Option FieldId :=
  c.findFieldWithin name c.types.length t

/-- The bytes before the first field of a class that has no fields above it: a flag word and a
pointer. -/
def headerSize (c : Catalog) : Nat := 4 + c.pointerSize

end Catalog

end DataImage
