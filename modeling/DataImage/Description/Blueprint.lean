import DataImage.Catalog.Declare
import DataImage.Description.Basic

/-!
# From descriptions to catalogs

What a description declares. Types come first, and their fields after all of them, so that a field
may have a type that is declared later. Then come the methods, then a place for each value, then
what the values hold, so that a value may refer to one that is described later, and at last the
values to start from.

* `Description.blueprint` gives the catalog and the values to start from, or the first error.
-/

namespace DataImage.Description

/-- Why a description has no meaning. -/
inductive Error where
  /-- The text is no description. -/
  | malformed
  /-- A type is named that is neither declared nor the array type of a declared one. -/
  | unknownType (name : String)
  /-- A value has a field that its type has not. -/
  | unknownField (type field : String)
  /-- An integer type is not one to eight bytes wide. -/
  | scalarWidth (type : String) (size : Nat)
  /-- A method is named that is not declared. -/
  | unknownMethod (name : String)
  /-- A value is named that is not described. -/
  | unknownValue (name : String)
  /-- Two values have one name. -/
  | duplicateValue (name : String)
  /-- An array has more elements than a length of 32 bits can count. -/
  | tooManyElements (value : String) (count : Nat)
deriving DecidableEq, Repr, Inhabited

/-- What an error says. -/
def Error.message : Error → String
  | .malformed => "invalid description: not a description"
  | .unknownType name => "unknown type `" ++ name ++ "`"
  | .unknownField type field => "type `" ++ type ++ "` has no field `" ++ field ++ "`"
  | .scalarWidth type size =>
    "scalar `" ++ type ++ "` is " ++ toString size ++ " bytes wide, encodable widths are 1 to 8"
  | .unknownMethod name => "unknown method `" ++ name ++ "`"
  | .unknownValue name => "unknown value `" ++ name ++ "`"
  | .duplicateValue name => "value `" ++ name ++ "` is defined twice"
  | .tooManyElements value count =>
    "value `" ++ value ++ "`: " ++ toString count ++ " elements do not fit an array length"

/-- What an image is built from: a catalog and the values to start from. -/
structure Blueprint where
  catalog : Catalog
  roots : List DescriptorId
deriving Repr, Inhabited

/-- A step that adds declarations to a catalog. -/
abbrev Declare := StateT Catalog (Except Error)

/-- Do something to the catalog. -/
def onCatalog {α : Type} (f : Catalog → α × Catalog) : Declare α := modifyGet f

/-! ## Types -/

/-- The name of the element type in the name of an array type. -/
def elementName? (name : String) : Option String :=
  match name.toList.reverse with
  | ']' :: '[' :: rest => some (String.ofList rest.reverse)
  | _ => none

/-- The type of a name with at most `depth` array marks. -/
def typeWithin : (depth : Nat) → (name : String) → Declare TypeId
  | depth, name => do
    match (← get).findType? name with
    | some t => return t
    | none =>
      match depth, elementName? name with
      | depth + 1, some element => do
        let element ← typeWithin depth element
        onCatalog (·.addArrayType element)
      | _, _ => throw (.unknownType name)

/-- The type of a name. Array types are declared on first use. A name has fewer array marks than
characters. -/
def typeNamed (name : String) : Declare TypeId := typeWithin name.length name

/-- Declare a type without its fields. -/
def declareType (e : TypeEntry) : Declare TypeId := do
  match e.shape with
  | .scalar signed =>
    if e.size = 0 ∨ 8 < e.size then throw (.scalarWidth e.name e.size)
    onCatalog (·.addScalar e.name e.size signed)
  | .valueType => onCatalog (·.addValueType e.name e.size)
  | .class base =>
    let base ← match base with
      | some name => typeNamed name
      | none => pure Core.object
    onCatalog (·.addClass e.name base e.size)

/-- Declare the fields of a type. -/
def declareFields (e : TypeEntry) (owner : TypeId) : Declare Unit :=
  e.fields.forM fun f => do
    let type ← typeNamed f.type
    discard <| onCatalog (·.addField owner f.name f.offset type)

/-- Declare types, the fields after all of the types. -/
def declareTypes (types : List TypeEntry) : Declare Unit := do
  let ids ← types.mapM declareType
  (types.zip ids).forM fun (e, id) => declareFields e id

/-! ## Methods -/

/-- Declare a method. -/
def declareMethod (e : MethodEntry) : Declare MethodId := do
  let owner ← typeNamed e.owner
  let params ← e.params.mapM typeNamed
  let result ← e.result.mapM typeNamed
  onCatalog (·.addMethod { owner, name := e.name, params, result, isExternal := e.isExternal })

/-! ## Values -/

/-- The values by name. -/
abbrev Names := List (String × DescriptorId)

/-- The value of a name. -/
def valueNamed (names : Names) (name : String) : Declare DescriptorId :=
  match names.lookup name with
  | some d => pure d
  | none => throw (.unknownValue name)

/-- Make a place for a value. -/
def declareValue (e : ValueEntry) : Declare DescriptorId := do
  match e.body with
  | .string text => onCatalog (·.addString text)
  | .object type _ =>
    let context ← typeNamed type
    onCatalog (·.addDescriptor (.object { context, isMutable := e.isMutable }))
  | .array type .. =>
    let context ← typeNamed type
    onCatalog (·.addDescriptor (.array { context, isMutable := e.isMutable, length := 0 }))

/-- Make places for values, and note their names. -/
def declareValues (values : List ValueEntry) : Declare Names :=
  values.foldlM (fun names e => do
    let d ← declareValue e
    if (names.lookup e.name).isSome then throw (.duplicateValue e.name)
    return names ++ [(e.name, d)]) []

/-- What a payload stands for. Each code payload gets a code pointer of its own. -/
def payload (names : Names) : PayloadEntry → Declare Payload
  | .null => return .null
  | .scalar raw => return .scalar raw
  | .value name => return .descriptor (← valueNamed names name)
  | .method name => do
    match (← get).findMethod? name with
    | none => throw (.unknownMethod name)
    | some m => return .code (← onCatalog (·.addCodePointer (.method m)))
  | .handler name => return .code (← onCatalog (·.addCodePointer (.handler name)))

/-- Fill a field of an object. -/
def fillField (names : Names) (d : DescriptorId) (name : String) (entry : PayloadEntry) :
    Declare Unit := do
  let c ← get
  let context := c.contextOf d
  match c.findField? context name with
  | none => throw (.unknownField (c.typeName context) name)
  | some f =>
    let held ← payload names entry
    modify (·.setPayload d f held)

/-- The length of an array: the one that is given, else the number of its values, else of its bit
patterns. -/
def arrayLength (name : String) (length values source : Option Nat) : Declare Nat :=
  match length with
  | some n => pure n
  | none =>
    let count := (values <|> source).getD 0
    if count < UInt32.size then pure count else throw (.tooManyElements name count)

/-- The value with the length and the elements of an array. An object stays as it is. -/
def withElements (length : Nat) (values : Option (List Payload)) (source : Option (List UInt64)) :
    Descriptor → Descriptor
  | .array a => .array { a with length, values, source }
  | .object o => .object o

/-- Fill the contents of a value. -/
def fillBody (names : Names) (name : String) (d : DescriptorId) : Body → Declare Unit
  | .string _ => pure ()
  | .object _ fields => fields.forM fun (field, entry) => fillField names d field entry
  | .array _ values source length => do
    let values ← values.mapM (·.mapM (payload names))
    let length ← arrayLength name length (values.map (·.length)) (source.map (·.length))
    modify (·.updateDescriptor d (withElements length values source))

/-- Fill a value and make it a part of the one that it is nested in. -/
def fillValue (names : Names) (e : ValueEntry) : Declare Unit := do
  let d ← valueNamed names e.name
  let container ← e.nestedIn.mapM (valueNamed names)
  fillBody names e.name d e.body
  container.forM fun container => modify (·.updateDescriptor d (·.nestedIn container))

/-! ## The whole description -/

/-- Declare all that a description declares, and find the values to start from. -/
def declare (d : Description) : Declare (List DescriptorId) := do
  declareTypes d.types
  d.methods.forM fun e => discard <| declareMethod e
  let names ← declareValues d.values
  d.values.forM (fillValue names)
  d.roots.mapM (valueNamed names)

/-- What a description declares, for pointers of a number of bytes. -/
def blueprint (d : Description) (pointerSize : Nat) : Except Error Blueprint := do
  let (roots, catalog) ← d.declare.run (Catalog.new pointerSize)
  return { catalog, roots }

end DataImage.Description
