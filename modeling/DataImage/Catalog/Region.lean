import DataImage.Catalog.Core

/-!
# Regions of a type

How the bytes of an instance fall into parts. A class owns the bytes between the size of its base
and its own size, a value type owns all of its bytes; walking over them from the front, each part
is either a field that starts there or a byte of padding.

Offsets are words of 32 bits. A field whose end is no such word ends the walk, and with it whatever
wanted to know the parts.

* `Catalog.region` lists the parts of a type from an offset on.
* `Catalog.ancestry` lists the types whose regions make up an instance, from the top down: the root
  class or a value type, and the classes below it.
-/

namespace DataImage

/-- A part of a region. -/
inductive Part where
  /-- A byte that no field covers. -/
  | padding
  /-- The bytes of a field. -/
  | field (id : FieldId)
  /-- A field without bytes, behind which the walk cannot go on. -/
  | zeroSized (offset : Nat)
  /-- A field that ends where no word can point to. -/
  | overflow (offset : Nat)
deriving DecidableEq, Repr, Inhabited

/-- Why the regions of an instance cannot be found. -/
inductive AncestryError where
  /-- The type, or one that it derives from, is an integer or an array class. -/
  | notAnObject (type : String)
  /-- A class other than the root has no base. -/
  | rootless (type : String)
  /-- The base of the class is one of the classes below it. -/
  | cycle (type : String)
deriving DecidableEq, Repr, Inhabited

/-- What an ancestry error says. -/
def AncestryError.message : AncestryError → String
  | .notAnObject type => "object value laid out as " ++ type
  | .rootless type => type ++ " does not derive from the root object"
  | .cycle type => "inheritance cycle through " ++ type

/-- The types that an instance consists of. -/
structure Ancestry where
  /-- The root class or a value type. -/
  top : TypeId
  /-- The classes below it, each the base of the next. -/
  below : List TypeId
deriving DecidableEq, Repr, Inhabited

namespace Catalog

/-- At most `steps` parts of the region of a type from an offset on. -/
def regionWithin (c : Catalog) (t : TypeId) : (steps offset : Nat) → List Part
  | 0, _ => []
  | steps + 1, offset =>
    if (c.typeDef t).size ≤ offset then []
    else match c.fieldAt? t offset with
      | none => .padding :: c.regionWithin t steps (offset + 1)
      | some f =>
        let size := c.holdingSize (c.field f).type
        if size = 0 then [.zeroSized offset]
        else if UInt32.size ≤ offset + size then [.overflow offset]
        else .field f :: c.regionWithin t steps (offset + size)

/-- The parts of a type from an offset to its end. Every part but the last takes a byte at least. -/
def region (c : Catalog) (t : TypeId) (offset : Nat) : List Part :=
  c.regionWithin t ((c.typeDef t).size - offset) offset

/-- A bound for the number of different types. -/
def typeCount (c : Catalog) : Nat := c.types.length + c.revisions.length

/-- Walk up from a type over at most `steps` further bases, with the classes passed so far. No class
is passed twice, so running out of steps means that there are more classes than types. -/
def ancestryWithin (c : Catalog) :
    (steps : Nat) → (below : List TypeId) → TypeId → Except AncestryError Ancestry
  | 0, _, t => .error (.cycle (c.typeName t))
  | steps + 1, below, t =>
    let d := c.typeDef t
    match d.kind with
    | .scalar _ | .array _ => .error (.notAnObject d.name)
    | .valueType => .ok { top := t, below }
    | .reference =>
      if t = Core.object then .ok { top := t, below }
      else match d.base with
        | none => .error (.rootless d.name)
        | some base =>
          if base ∈ t :: below then .error (.cycle d.name)
          else c.ancestryWithin steps (t :: below) base

/-- The types that an instance of a type consists of. -/
def ancestry (c : Catalog) (t : TypeId) : Except AncestryError Ancestry :=
  c.ancestryWithin (c.typeCount + 1) [] t

/-- Where the own region of a class starts: at the end of its base. -/
def ownStart (c : Catalog) (t : TypeId) : Nat :=
  match (c.typeDef t).base with
  | some base => (c.typeDef base).size
  | none => 0

end Catalog

end DataImage
