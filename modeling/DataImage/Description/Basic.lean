/-!
# Descriptions

A description declares types, methods and values by name, and lists the values to start from. Types
may be named before they are declared in fields, methods and values, but not as a base class. The
name of an element type followed by `[]` names its array type.
-/

namespace DataImage.Description

/-- The shape of a described type. -/
inductive TypeShape where
  /-- A class with its base, or with the root class as base. -/
  | «class» (base : Option String)
  /-- A value type. -/
  | valueType
  /-- An integer type. -/
  | scalar (signed : Bool)
deriving DecidableEq, Repr, Inhabited

/-- A field of a described type. -/
structure FieldEntry where
  name : String
  offset : Nat
  type : String
deriving DecidableEq, Repr, Inhabited

/-- A described type. -/
structure TypeEntry where
  name : String
  shape : TypeShape
  size : Nat
  fields : List FieldEntry := []
deriving DecidableEq, Repr, Inhabited

/-- A described method. -/
structure MethodEntry where
  owner : String
  name : String
  params : List String := []
  result : Option String := none
  isExternal : Bool := false
deriving DecidableEq, Repr, Inhabited

/-- What a field or an element holds. -/
inductive PayloadEntry where
  /-- A null reference, or zero. -/
  | null
  /-- A bit pattern. -/
  | scalar (raw : UInt64)
  /-- Another value, by name. -/
  | value (name : String)
  /-- The code of a method, by name. -/
  | method (name : String)
  /-- The code of an exception handler. -/
  | handler (name : String)
deriving DecidableEq, Repr, Inhabited

/-- The type and the contents of a described value. -/
inductive Body where
  /-- An instance of a class or a value type, with its fields by name. -/
  | object (type : String) (fields : List (String × PayloadEntry))
  /-- A string. -/
  | string (text : String)
  /-- An array. A missing length is that of the values, or else of the bit patterns. -/
  | array (type : String) (values : Option (List PayloadEntry)) (source : Option (List UInt64))
      (length : Option Nat)
deriving DecidableEq, Repr, Inhabited

/-- A described value. -/
structure ValueEntry where
  name : String
  isMutable : Bool := false
  /-- The value that this one is a part of. -/
  nestedIn : Option String := none
  body : Body
deriving DecidableEq, Repr, Inhabited

end DataImage.Description

namespace DataImage

/-- A description of an image. -/
structure Description where
  types : List Description.TypeEntry := []
  methods : List Description.MethodEntry := []
  values : List Description.ValueEntry := []
  /-- The names of the values to start from. -/
  roots : List String := []
deriving DecidableEq, Repr, Inhabited

end DataImage
