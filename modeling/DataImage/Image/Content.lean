import DataImage.Image.Reference
import DataImage.Text.Utf16

/-!
# Contents of values

The constant that a value becomes. An object is built from the top of its ancestry down: the header
that the root class stands for, then for each class a struct of what came before and the class's
own fields, with padding where no field lies. An array is its header and length, followed by the
elements; a string ends in its characters. Arrays and strings have no named struct, because their
size differs from value to value.

Values refer to one another, so the functions here take a parameter: how the contents of another
value are built. `Build.contentsOf` closes the circle. A value that is a part of itself has no
contents; building it ends in `Violation.endless`.
-/

namespace DataImage.Build

variable (c : Catalog)

/-! ## Integers -/

/-- The integer type `t` with the bits of `raw`. Zero is zeroed memory, which also stands for a null
reference. -/
def scalar (t : TypeId) (raw : UInt64) : Build Constant := do
  let d := c.typeDef t
  if d.isScalar && (d.size = 0 || 8 < d.size) then violate (.scalarWidth d.name d.size)
  if raw = 0 then return .zeroed (← storageOf c t)
  let bits ← bitWidth c t
  let layout ← layoutOf c t
  return .named layout [.ofWord bits raw d.isSigned]

/-- The value of a byte that no field covers. -/
def paddingByte : UInt64 := 0xab

/-! ## Fields and elements -/

variable (contents : DescriptorId → Build Constant)

/-- What a field or an element of type `t` becomes. A part of the value is put in place, any other
value is referred to. -/
def payloadContents (t : TypeId) (place : Place) (payload : Payload) : Build Constant :=
  match payload with
  | .null => scalar c t 0
  | .scalar raw =>
    if (c.typeDef t).isScalar then scalar c t raw
    else throw { cause := .typeConsistency payload place }
  | .descriptor d => do
    let v ← descriptor c d
    if v.isNested then contents d
    else return .globalAddr (← requestWith c contents d)
  | .code _ => throw { cause := .typeConsistency payload place }

/-- What a code pointer becomes in a field of type `t`: the address of the function, wrapped in the
struct of the type. -/
def codeContents (t : TypeId) (place : Place) (p : CodePointerId) : Build Constant :=
  match c.codePointer? p with
  | none => violate (.unknownCodePointer p)
  | some (.method m) => do
    let function ← declarationOf c m
    let layout ← layoutOf c t
    return .named layout [.functionAddr function]
  | some (.handler name) => throw { cause := .handlerPointer name place }

/-- What a field of an object becomes. A code pointer may be put into the address field of the code
pointer type, or in place of a whole instance of that type. -/
def fieldContents (o : ObjectValue) (f : FieldId) : Build Constant :=
  let d := c.field f
  let place := Place.field d.name (c.typeName d.owner)
  match o.fields.lookup f with
  | none => return .zeroed (← storageOf c d.type)
  | some (.code p) =>
    if f = Core.codePointerTarget then codeContents c d.type place p
    else if d.type = Core.codePointer then do
      let target ← codeContents c (c.field Core.codePointerTarget).type place p
      let layout ← layoutOf c d.type
      return .named layout [target]
    else payloadContents c contents d.type place (.code p)
  | some payload => payloadContents c contents d.type place payload

/-- What a part of an object becomes. -/
def partContents (o : ObjectValue) (t : TypeId) : Part → Build Constant
  | .padding => scalar c Core.byte paddingByte
  | .field f => fieldContents c contents o f
  | .zeroSized offset => violate (.zeroSizedField offset (c.typeName t))
  | .overflow _ => overflow

/-- What the parts of an object from an offset to the end of a type become. -/
def regionContents (o : ObjectValue) (t : TypeId) (offset : Nat) : Build (List Constant) :=
  (c.region t offset).mapM (partContents c contents o t)

/-! ## Objects -/

/-- The root class's share of an instance: a flag word and the address of the virtual table. -/
def headerContents (context : TypeId) (isMutable : Bool) : Build Constant :=
  match c.vtable? context with
  | none => violate (.noVirtualTable (c.typeName context))
  | some vtable => do
    let flags := if isMutable then Core.mutableFlags else Core.readOnlyFlags
    let word ← scalar c (c.field Core.multiUseWord).type flags
    let table ← requestWith c contents vtable
    let header ← layoutOf c Core.objectHeader
    let object ← layoutOf c Core.object
    return .named object [.named header [word, .globalAddr table]]

/-- The characters of a string. -/
def characters (o : ObjectValue) : Build Constant := do
  let t := (c.field Core.firstChar).type
  let element ← storageOf c t
  let elements ← (Text.utf16 (o.source.getD "")).mapM fun unit => scalar c t unit.toUInt64
  return .array element elements

/-- The top of an instance: the header of the root class, or all of a value type. -/
def topContents (o : ObjectValue) (t : TypeId) : Build Constant := do
  if t = Core.object then headerContents c contents o.context o.isMutable
  else
    let fields ← regionContents c contents o t 0
    let layout ← layoutOf c t
    return .named layout fields

/-- An instance of a class, around the instance of its base. A string has no struct of its own. -/
def classContents (o : ObjectValue) (base : Constant) (t : TypeId) : Build Constant := do
  let own ← regionContents c contents o t (c.ownStart t)
  if t = Core.string then
    let chars ← characters c o
    return .anon (base :: own ++ [chars])
  else
    let layout ← layoutOf c t
    return .named layout (base :: own)

/-- An object laid out as an instance of a type. -/
def objectContents (o : ObjectValue) (t : TypeId) : Build Constant :=
  match c.ancestry t with
  | .error e => violate (.ancestry e)
  | .ok a => do a.below.foldlM (classContents c contents o) (← topContents c contents o a.top)

/-! ## Arrays -/

/-- The elements of an array from what each of them holds. -/
def valueElements (a : ArrayValue) (element : TypeId) (values : List Payload) :
    Build (List Constant) := do
  let name := c.typeName a.context
  if values.length ≠ a.length then violate (.elementCount name a.length values.length)
  values.zipIdx.mapM fun (p, i) => payloadContents c contents element (.element i name) p

/-- The elements of an array from bit patterns. -/
def sourceElements (a : ArrayValue) (element : TypeId) (source : List UInt64) :
    Build (List Constant) := do
  let name := c.typeName a.context
  if source.length ≠ a.length then violate (.elementCount name a.length source.length)
  match source with
  | [] => return []
  | first :: _ =>
    if !(c.typeDef element).isScalar then
      throw { cause := .typeConsistency (.scalar first) (.element 0 name) }
    source.mapM (scalar c element)

/-- An array with its header, its length and its elements. -/
def arrayContents (a : ArrayValue) : Build Constant :=
  match (c.typeDef a.context).kind with
  | .array element => do
    let header ← headerContents c contents a.context a.isMutable
    let length ← scalar c (c.field Core.arrayLength).type (UInt64.ofNat a.length)
    let layout ← layoutOf c Core.array
    let elements ← match a.values with
      | some values => valueElements c contents a element values
      | none => sourceElements c a element (a.source.getD [])
    let storage ← storageOf c element
    return .anon [.named layout [header, length], .array storage elements]
  | _ => violate (.notAnArray (c.typeName a.context))

/-! ## Values -/

/-- The contents of a value laid out as a type, given how the contents of other values are built.
Arrays have only one layout. -/
def valueContents (v : Descriptor) (t : TypeId) : Build Constant :=
  match v with
  | .object o => objectContents c contents o t
  | .array a => arrayContents c contents a

/-- The contents of a value laid out as a type, with at most `depth` values under construction at a
time. -/
def contentsWithin : (depth : Nat) → DescriptorId → TypeId → Build Constant
  | 0, _, _ => violate .endless
  | depth + 1, d, t => do
    let v ← descriptor c d
    within d (valueContents c
      (fun inner => do contentsWithin depth inner (← descriptor c inner).context) v t)

/-- How many values can be under construction at a time when none is a part of itself: between two
arrays or strings, which are marked as being built, each value occurs once at most. -/
def depthBound : Nat := (c.descriptors.length + 1) * (c.descriptors.length + 1)

/-- The contents of a value laid out as a type. -/
def contentsAs (d : DescriptorId) (t : TypeId) : Build Constant :=
  contentsWithin c (depthBound c) d t

/-- The contents of a value laid out as its declared type. -/
def contentsOf (d : DescriptorId) : Build Constant := do
  contentsAs c d (← descriptor c d).context

/-- The global of a value, made on first request. -/
def request (d : DescriptorId) : Build GlobalId := requestWith c (contentsOf c) d

end DataImage.Build
