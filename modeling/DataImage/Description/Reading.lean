import DataImage.Description.Basic
import DataImage.Json.Record
import DataImage.Keyed

/-!
# Descriptions in JSON

How a description is written. All parts are records except values, which are objects that may have
members besides their fields, and payloads, which are objects with a single member.

* `Description.ofText?` reads a description.
-/

namespace DataImage.Description

open Json (Fields)

/-! ## Choices -/

/-- A choice written as an object with one member, or by name alone. -/
def choice? : Json → Option (String × Option Json)
  | .text name => some (name, none)
  | .object [(name, value)] => some (name, some value)
  | _ => none

/-! ## Types and methods -/

/-- The shape of a type from its name, base and signedness. -/
def shape? (base : Option String) (signed : Bool) (kind : Json) : Option TypeShape := do
  match ← choice? kind with
  | ("class", none) | ("class", some .null) => return .class base
  | ("value_type", none) | ("value_type", some .null) => return .valueType
  | ("scalar", none) | ("scalar", some .null) => return .scalar signed
  | _ => none

/-- A field of a type. -/
def fieldEntry? (value : Json) : Option FieldEntry := do
  let fields ← Json.record? ["name", "offset", "type"] value
  return {
    name := ← fields.required? "name" Json.asText?
    offset := ← fields.required? "offset" Json.asNat32?
    type := ← fields.required? "type" Json.asText? }

/-- A type. -/
def typeEntry? (value : Json) : Option TypeEntry := do
  let fields ← Json.record? ["name", "kind", "base", "size", "signed", "fields"] value
  let base ← fields.optional? "base" Json.asText?
  let signed ← fields.withDefault? "signed" false Json.asBool?
  return {
    name := ← fields.required? "name" Json.asText?
    shape := ← fields.required? "kind" (shape? base signed)
    size := ← fields.required? "size" Json.asNat32?
    fields := ← fields.withDefault? "fields" [] (Json.asList? fieldEntry?) }

/-- A method. -/
def methodEntry? (value : Json) : Option MethodEntry := do
  let fields ← Json.record? ["owner", "name", "params", "ret", "pinvoke"] value
  return {
    owner := ← fields.required? "owner" Json.asText?
    name := ← fields.required? "name" Json.asText?
    params := ← fields.withDefault? "params" [] (Json.asList? Json.asText?)
    result := ← fields.optional? "ret" Json.asText?
    isExternal := ← fields.withDefault? "pinvoke" false Json.asBool? }

/-! ## Values -/

/-- A payload. -/
def payload? (value : Json) : Option PayloadEntry := do
  match ← choice? value with
  | ("null", none) | ("null", some .null) | ("null", some (.object [])) => return .null
  | ("scalar", some raw) => return .scalar (← Json.asWord? raw)
  | ("value", some name) => return .value (← Json.asText? name)
  | ("method", some name) => return .method (← Json.asText? name)
  | ("handler", some name) => return .handler (← Json.asText? name)
  | _ => none

/-- The payloads of an object's fields. A repeated name keeps its place and takes the last
payload. -/
def payloads? : Json → Option (List (String × PayloadEntry))
  | .object members => do
    let entries ← members.mapM fun (name, value) => return (name, ← payload? value)
    return entries.foldl (fun kept (name, p) => Keyed.put name p kept) []
  | _ => none

/-- The kinds of values. -/
inductive ValueKind where
  | object
  | string
  | array

/-- The kind of a value, by name or by number. -/
def valueKind? : Json → Option ValueKind
  | .text "object" | .number (.integer 0) => some .object
  | .text "string" | .number (.integer 1) => some .string
  | .text "array" | .number (.integer 2) => some .array
  | _ => none

/-- The type and the contents of a value of a kind, from the members of its object. -/
def body? (members : List (String × Json)) : ValueKind → Option Body
  | .object => do
    let fields ← Json.select? ["type", "fields"] members
    return .object (← fields.required? "type" Json.asText?)
      (← fields.withDefault? "fields" [] payloads?)
  | .string => do
    let fields ← Json.select? ["text"] members
    return .string (← fields.required? "text" Json.asText?)
  | .array => do
    let fields ← Json.select? ["type", "values", "source", "length"] members
    return .array (← fields.required? "type" Json.asText?)
      (← fields.optional? "values" (Json.asList? payload?))
      (← fields.optional? "source" (Json.asList? Json.asWord?))
      (← fields.optional? "length" Json.asNat32?)

/-- A value. -/
def valueEntry? : Json → Option ValueEntry
  | .object members => do
    let fields ← Json.select? ["name", "mutable", "nested_in", "kind"] members
    return {
      name := ← fields.required? "name" Json.asText?
      isMutable := ← fields.withDefault? "mutable" false Json.asBool?
      nestedIn := ← fields.optional? "nested_in" Json.asText?
      body := ← body? members (← fields.required? "kind" valueKind?) }
  | _ => none

/-! ## The description -/

/-- The description that a JSON value gives. -/
def ofJson? (value : Json) : Option Description := do
  let fields ← Json.record? ["types", "methods", "values", "roots"] value
  return {
    types := ← fields.withDefault? "types" [] (Json.asList? typeEntry?)
    methods := ← fields.withDefault? "methods" [] (Json.asList? methodEntry?)
    values := ← fields.withDefault? "values" [] (Json.asList? valueEntry?)
    roots := ← fields.withDefault? "roots" [] (Json.asList? Json.asText?) }

/-- The description that a text gives. -/
def ofText? (text : String) : Option Description := Json.ofText? text >>= ofJson?

end DataImage.Description
