import DataImage.Image.Basic

/-!
# Layouts of declared types

Every declared type that occurs in an image becomes a named struct: an integer type a struct of one
integer, a value type a struct of its parts, a class a struct of its base and its own parts. The
struct of an array class has no room for elements, since their number is not known from the type.
Methods become function declarations.

Layouts and declarations are made on first use and remembered. A type that contains itself has no
layout; asking for it ends in `Violation.endless`.
-/

namespace DataImage.Build

variable (c : Catalog)

/-- The storage type of a field or an element, given how value types are laid out: a pointer to what
is held by reference, else the struct itself. -/
def storageWith (layout : TypeId → Build StructId) (t : TypeId) : Build Storage :=
  if (c.typeDef t).isHeldByReference then pure .ptr
  else return .struct (← layout t)

/-- The storage type of one part of a type, given how value types are laid out. -/
def partStorage (layout : TypeId → Build StructId) (t : TypeId) : Part → Build Storage
  | .padding => storageWith c layout Core.byte
  | .field f => storageWith c layout (c.field f).type
  | .zeroSized offset => violate (.zeroSizedField offset (c.typeName t))
  | .overflow _ => overflow

/-- The width in bits of an integer type, which is a word of 32 bits itself. -/
def bitWidth (t : TypeId) : Build Nat :=
  let bits := (c.typeDef t).size * 8
  if bits < UInt32.size then pure bits else overflow

/-- The storage types of the fields of a type's struct, given how other types are laid out. -/
def layoutFields (layout : TypeId → Build StructId) (t : TypeId) : Build (List Storage) := do
  let d := c.typeDef t
  match d.kind with
  | .scalar _ => return [.int (← bitWidth c t)]
  | .valueType => (c.region t 0).mapM (partStorage c layout t)
  | .reference =>
    if t = Core.object then return [.struct (← layout Core.objectHeader)]
    match d.base with
    | none => violate (.noBase d.name)
    | some base =>
      let inherited ← layout base
      let own ← (c.region t (c.typeDef base).size).mapM (partStorage c layout t)
      return .struct inherited :: own
  | .array element =>
    let inherited ← layout Core.array
    return [.struct inherited, .array (← storageWith c layout element) 0]

/-- The struct of a type whose layout nests at most `depth` types deep. -/
def layoutWithin : (depth : Nat) → TypeId → Build StructId
  | 0, _ => violate .endless
  | depth + 1, t => do
    match (← get).layouts.lookup t with
    | some id => return id
    | none =>
      let fields ← layoutFields c (layoutWithin depth) t
      let id ← onModule (·.declareStruct (c.typeName t) fields)
      modify fun s => { s with layouts := Keyed.put t id s.layouts }
      return id

/-- The struct of a type. A layout that does not contain itself goes through each type once at
most. -/
def layoutOf (t : TypeId) : Build StructId := layoutWithin c (c.typeCount + 1) t

/-- The storage type of a field or an element of a type. -/
def storageOf (t : TypeId) : Build Storage := storageWith c (layoutOf c) t

/-- The declaration of a method. -/
def declarationOf (m : MethodId) : Build FunctionId := do
  match (← get).declarations.lookup m with
  | some id => return id
  | none =>
    let d := c.method m
    let params ← d.params.mapM (storageOf c)
    let result ← d.result.mapM (storageOf c)
    let id ← onModule (·.declareFunction (c.methodSymbol m) params result)
    modify fun s => { s with declarations := Keyed.put m id s.declarations }
    return id

end DataImage.Build
