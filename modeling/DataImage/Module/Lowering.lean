import DataImage.Module.Size
import DataImage.Object.Basic

/-!
# From globals to bytes

Every live global becomes a blob: integers in the byte order of the layout, zeroed memory as zero
bytes, and an address as a slot of zeros together with a relocation that names the symbol. There is
room for fewer than `2 ^ 63` bytes in a blob.

* `Module.constantBytes` gives the bytes and the relocations of a constant that starts at an offset.
* `Module.lower` gives the blobs of all live globals, in order of creation.
-/

namespace DataImage

/-- Why the globals of a module cannot be turned into bytes. -/
inductive LoweringError where
  /-- The contents of a global are still to come. -/
  | uninitialized (name : String)
  /-- Integers of this width do not fit one to eight bytes. -/
  | integerWidth (bits : Nat)
  /-- There is no relocation for pointers of this width. -/
  | pointerWidth (bytes : Nat)
  /-- The contents of a global do not have the size of its type. -/
  | sizeMismatch (name : String) (expected actual : Nat)
  /-- A size is no word of 64 bits, or there is no room for so many bytes. This is no error that is
  reported: the program stops for good. -/
  | overflow
deriving DecidableEq, Repr, Inhabited

/-- What a lowering error says. -/
def LoweringError.message : LoweringError → String
  | .uninitialized name => "global @" ++ name ++ " is still a placeholder"
  | .integerWidth bits => "no byte encoding for " ++ toString bits ++ "-bit integers"
  | .pointerWidth bytes => "no absolute relocation for " ++ toString bytes ++ "-byte pointers"
  | .sizeMismatch name expected actual =>
    "global @" ++ name ++ ": initializer is " ++ toString actual ++ " bytes, type needs " ++
      toString expected
  | .overflow => "arithmetic overflow"

namespace DataLayout

/-- The bytes of an integer of `bits` bits, in the order of the layout. -/
def integerBytes (layout : DataLayout) (bits : Nat) (value : UInt64) :
    Except LoweringError (List UInt8) :=
  let count := (bits + 7) / 8
  if count = 0 ∨ 8 < count then .error (.integerWidth bits)
  else
    let bytes := Bits.littleEndian value count
    .ok (if layout.littleEndian then bytes else bytes.reverse)

end DataLayout

namespace Module

/-- The bytes of a blob are fewer than this, `2 ^ 63`. -/
def blobRoom : Nat := 0x8000000000000000

/-- Make room for more bytes behind those that are there. -/
def reserve (offset count : Nat) : Except LoweringError Unit :=
  if offset + count < blobRoom then .ok () else .error .overflow

/-- More bytes behind those that are there, with their relocations. -/
def place (offset : Nat) (bytes : List UInt8) (relocations : List Relocation) :
    Except LoweringError (List UInt8 × List Relocation) := do
  reserve offset bytes.length
  return (bytes, relocations)

/-- A size that has to be there. -/
def knownSize : Option Nat → Except LoweringError Nat
  | some size => .ok size
  | none => .error .overflow

/-- The empty slot for the address of `symbol`. -/
def addressSlot (layout : DataLayout) (kind : RelocationKind) (offset : Nat) (symbol : String) :
    Except LoweringError (List UInt8 × List Relocation) :=
  place offset (List.replicate layout.pointerBytes 0) [{ offset, symbol, kind }]

mutual

/-- The bytes of a constant whose first byte lies at `offset`, and its relocations. -/
def constantBytes (m : Module) (layout : DataLayout) (kind : RelocationKind) (offset : Nat) :
    Constant → Except LoweringError (List UInt8 × List Relocation)
  | .int bits value _ => do
    let bytes ← layout.integerBytes bits value
    place offset bytes []
  | .zeroed type => do
    let size ← knownSize (layout.sizeOf? m type)
    reserve offset size
    return (List.replicate size 0, [])
  | .aggregate _ fields => m.constantsBytes layout kind offset fields
  | .array _ elements => m.constantsBytes layout kind offset elements
  | .globalAddr id => addressSlot layout kind offset (m.globalName (m.resolve id))
  | .functionAddr id => addressSlot layout kind offset (m.functionName id)

/-- The bytes of constants that follow one another from `offset` on, and their relocations. -/
def constantsBytes (m : Module) (layout : DataLayout) (kind : RelocationKind) (offset : Nat) :
    List Constant → Except LoweringError (List UInt8 × List Relocation)
  | [] => return ([], [])
  | c :: cs => do
    let (bytes, relocations) ← m.constantBytes layout kind offset c
    let (bytes', relocations') ← m.constantsBytes layout kind (offset + bytes.length) cs
    return (bytes ++ bytes', relocations ++ relocations')

end

/-- The blob of a global. -/
def globalBlob (m : Module) (layout : DataLayout) (kind : RelocationKind) (g : Global) :
    Except LoweringError Blob :=
  let name := m.symbol g.name
  match g.initializer with
  | none => .error (.uninitialized name)
  | some contents => do
    let (bytes, relocations) ← m.constantBytes layout kind 0 contents
    let size ← knownSize (layout.sizeOf? m g.type)
    if size ≠ bytes.length then throw (.sizeMismatch name size bytes.length)
    return { name, bytes, relocations, writable := !g.constant }

/-- The blobs of the live globals, in order of creation, or the first error. -/
def lower (m : Module) (layout : DataLayout) : Except LoweringError (List Blob) :=
  match RelocationKind.ofPointerBytes? layout.pointerBytes with
  | none => .error (.pointerWidth layout.pointerBytes)
  | some kind => m.live.mapM fun (_, g) => m.globalBlob layout kind g

end Module

end DataImage
