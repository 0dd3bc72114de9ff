import DataImage.Proofs.Description.Names

/-!
# Faults of descriptions

What can be wrong with a description (`Description.Faulty`): a type that cannot be declared, a name
that denotes nothing, a name for two values, a field that a type has not, or an array that is too
long. All of these can be told from the description, but for the fields that a type has: these are
looked up once there is a place for each value (`Description.places`).
-/

namespace DataImage.Description

/-- Whether a list describes a type of a name. -/
def ListsType (types : List TypeEntry) (n : String) : Prop := ∃ e ∈ types, e.name = n

/-- Why a type cannot be declared after others: an integer type has no width, or the base of a class
is no type of those that are described before. -/
inductive Undeclarable (p : Nat) (before : List TypeEntry) (e : TypeEntry) : Error → Prop where
  | scalarWidth {signed : Bool} (shape : e.shape = .scalar signed)
    (size : e.size = 0 ∨ 8 < e.size) : Undeclarable p before e (.scalarWidth e.name e.size)
  | base {base : String} {err : Error} (shape : e.shape = .class (some base))
    (unresolved : Unresolved p (ListsType before) base err) : Undeclarable p before e err

/-- The types that a method is declared with. -/
def MethodEntry.mentions (e : MethodEntry) : List String := e.owner :: (e.params ++ e.result.toList)

/-- The type that a value is described with. Strings have one of their own. -/
def Body.type? : Body → Option String
  | .object type _ => some type
  | .string _ => none
  | .array type .. => some type

/-- Whether the name of a type is mentioned where types may be named before they are declared. -/
inductive Mentions (d : Description) : String → Prop where
  | field {e : TypeEntry} {f : FieldEntry} (mem : e ∈ d.types) (field : f ∈ e.fields) :
    Mentions d f.type
  | method {e : MethodEntry} {n : String} (mem : e ∈ d.methods) (mention : n ∈ e.mentions) :
    Mentions d n
  | value {e : ValueEntry} {n : String} (mem : e ∈ d.values) (type : e.body.type? = some n) :
    Mentions d n

/-- Whether a field or an element of a value is said to hold something. -/
inductive Contains (d : Description) : PayloadEntry → Prop where
  | field {e : ValueEntry} {type name : String} {fields : List (String × PayloadEntry)}
    {entry : PayloadEntry} (mem : e ∈ d.values) (body : e.body = .object type fields)
    (held : (name, entry) ∈ fields) : Contains d entry
  | element {e : ValueEntry} {type : String} {values : List PayloadEntry}
    {source : Option (List UInt64)} {length : Option Nat} {entry : PayloadEntry}
    (mem : e ∈ d.values) (body : e.body = .array type (some values) source length)
    (held : entry ∈ values) : Contains d entry

/-- Whether a value is mentioned by its name. -/
inductive CitesName (d : Description) : String → Prop where
  | payload {n : String} (held : d.Contains (.value n)) : CitesName d n
  | container {e : ValueEntry} {n : String} (mem : e ∈ d.values) (nested : e.nestedIn = some n) :
    CitesName d n
  | root {n : String} (mem : n ∈ d.roots) : CitesName d n

/-- Declare all types and methods, and make a place for each value. -/
def places (d : Description) : Declare Names := do
  declareTypes d.types
  d.methods.forM fun e => discard <| declareMethod e
  declareValues d.values

/-- Fill the places, and find the values to start from. -/
def fill (d : Description) (names : Names) : Declare (List DescriptorId) := do
  d.values.forM (fillValue names)
  d.roots.mapM (valueNamed names)

/-- First there is a place for each value, and then all places are filled. -/
theorem declare_eq (d : Description) : d.declare = d.places >>= d.fill := by
  unfold declare places fill
  simp only [bind_assoc]

/-- The number of elements that an array of no given length has. -/
def elementCount (values : Option (List PayloadEntry)) (source : Option (List UInt64)) : Nat :=
  (values.map (·.length) <|> source.map (·.length)).getD 0

/-- **What can be wrong with a description**, for pointers of `p` bytes. -/
inductive Faulty (d : Description) (p : Nat) : Error → Prop where
  | declaration {before after : List TypeEntry} {e : TypeEntry} {err : Error}
    (types : d.types = before ++ e :: after) (undeclarable : Undeclarable p before e err) :
    Faulty d p err
  | type {n : String} {err : Error} (mentioned : d.Mentions n)
    (unresolved : Unresolved p (ListsType d.types) n err) : Faulty d p err
  | duplicateValue {before after : List ValueEntry} {e other : ValueEntry}
    (values : d.values = before ++ e :: after) (mem : other ∈ before)
    (name : other.name = e.name) : Faulty d p (.duplicateValue e.name)
  | unknownField {names : Names} {c : Catalog} {e : ValueEntry} {type name : String}
    {fields : List (String × PayloadEntry)} {entry : PayloadEntry} {t : TypeId}
    (places : d.places (Catalog.new p) = .ok (names, c)) (mem : e ∈ d.values)
    (body : e.body = .object type fields) (held : (name, entry) ∈ fields)
    (context : c.findType? type = some t) (none : c.findField? t name = none) :
    Faulty d p (.unknownField type name)
  | unknownValue {n : String} (cited : d.CitesName n) (unknown : ∀ e ∈ d.values, e.name ≠ n) :
    Faulty d p (.unknownValue n)
  | unknownMethod {n : String} (held : d.Contains (.method n))
    (unknown : ∀ e ∈ d.methods, e.name ≠ n) : Faulty d p (.unknownMethod n)
  | tooManyElements {e : ValueEntry} {type : String} {values : Option (List PayloadEntry)}
    {source : Option (List UInt64)} (mem : e ∈ d.values)
    (body : e.body = .array type values source none)
    (count : UInt32.size ≤ elementCount values source) :
    Faulty d p (.tooManyElements e.name (elementCount values source))

end DataImage.Description
