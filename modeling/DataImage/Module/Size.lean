import DataImage.Module.Basic

/-!
# Sizes in bytes

How many bytes a storage type takes. Aggregates are packed: the fields of a struct follow one
another without gaps, because whoever declares the struct has put the padding into it.

Sizes are words of 64 bits. A type has no size if a sum or a product on the way to it is no such
word.
-/

namespace DataImage

/-- What a target fixes about data: the width of a pointer and the order of the bytes of an
integer. -/
structure DataLayout where
  pointerBytes : Nat
  littleEndian : Bool := true
deriving DecidableEq, Repr, Inhabited

/-- A number, if it is a word of 64 bits. -/
def word? (n : Nat) : Option Nat := if n < UInt64.size then some n else none

namespace DataLayout

/-- The layout for a module, with pointers of its native width. -/
def ofModule (m : Module) : DataLayout := { pointerBytes := m.nativeBits / 8 }

mutual

/-- The size of a type, given the sizes of named structs. -/
def sizeWith? (layout : DataLayout) (structSize? : StructId → Option Nat) : Storage → Option Nat
  | .int bits => word? ((bits + 7) / 8)
  | .ptr => word? layout.pointerBytes
  | .struct id => structSize? id
  | .anon fields => layout.sizesWith? structSize? fields
  | .array element count => do
    let size ← layout.sizeWith? structSize? element
    word? (size * count)

/-- The sum of the sizes of types, given the sizes of named structs. -/
def sizesWith? (layout : DataLayout) (structSize? : StructId → Option Nat) :
    List Storage → Option Nat
  | [] => some 0
  | t :: ts => do
    let size ← layout.sizeWith? structSize? t
    let rest ← layout.sizesWith? structSize? ts
    word? (size + rest)

end

/-- The size of a named struct whose fields nest at most `depth` structs deep. -/
def structSizeWithin? (layout : DataLayout) (m : Module) : (depth : Nat) → StructId → Option Nat
  | 0, _ => some 0
  | depth + 1, id => layout.sizesWith? (layout.structSizeWithin? m depth) (m.struct id).fields

/-- The size of a type in bytes. Structs that do not contain themselves nest no deeper than there
are structs. -/
def sizeOf? (layout : DataLayout) (m : Module) (t : Storage) : Option Nat :=
  layout.sizeWith? (layout.structSizeWithin? m m.structs.length) t

end DataLayout

end DataImage
