import DataImage.Json.Basic
import DataImage.Bits

/-!
# Records in JSON

How values become data. A record is an object whose members are its fields, or an array of its
fields in their order, from which fields at the end may be missing. A function that reads a value
gives nothing if the value does not have the expected form.

* `Json.record?` accepts both forms and refuses unknown and repeated names.
* `Json.select?` picks the fields of a record out of an object that may have other members too.
* `required?`, `withDefault?` and `optional?` read a field that must be there, one that may be
  missing, and one that may also be null.
-/

namespace DataImage.Json

/-! ## Plain values -/

/-- A truth value. -/
def asBool? : Json → Option Bool
  | .bool value => some value
  | _ => none

/-- A string. -/
def asText? : Json → Option String
  | .text value => some value
  | _ => none

/-- An integer without sign that fits 32 bits. -/
def asNat32? : Json → Option Nat
  | .number (.integer value) =>
    if 0 ≤ value ∧ value.toNat < UInt32.size then some value.toNat else none
  | _ => none

/-- An integer as the word of 64 bits that agrees with it modulo 2^64. -/
def asWord? : Json → Option UInt64
  | .number (.integer value) => some (UInt64.ofInt value)
  | _ => none

/-- A list of values of one form. -/
def asList? {α : Type} (element : Json → Option α) : Json → Option (List α)
  | .array elements => elements.mapM element
  | _ => none

/-! ## Records -/

/-- The fields of a record by name. -/
abbrev Fields := List (String × Json)

/-- The members of an object that have one of the given names, each at most once. -/
def select? (names : List String) (members : List (String × Json)) : Option Fields :=
  let mine := members.filter (names.contains ·.1)
  if (mine.map (·.1)).Nodup then some mine else none

/-- The fields of a record, which has the given fields and no others. -/
def record? (names : List String) : Json → Option Fields
  | .object members =>
    if members.all (names.contains ·.1) then select? names members else none
  | .array elements =>
    if elements.length ≤ names.length then some (names.zip elements) else none
  | _ => none

namespace Fields

variable {α : Type}

/-- A field that must be there. -/
def required? (fields : Fields) (name : String) (read : Json → Option α) : Option α :=
  fields.lookup name >>= read

/-- A field that may be missing. -/
def withDefault? (fields : Fields) (name : String) (default : α) (read : Json → Option α) :
    Option α :=
  match fields.lookup name with
  | none => some default
  | some value => read value

/-- A field that may be missing or null. -/
def optional? (fields : Fields) (name : String) (read : Json → Option α) : Option (Option α) :=
  match fields.lookup name with
  | none | some .null => some none
  | some value => (read value).map some

end Fields

end DataImage.Json
