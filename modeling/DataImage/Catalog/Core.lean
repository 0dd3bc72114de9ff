import DataImage.Catalog.Basic

/-!
# Core types

The types that every catalog starts with, at fixed positions: the integers, the classes that
objects, arrays, strings and virtual tables belong to, and the header in front of each instance.
With `p` the size of a pointer and `H = 4 + p`:

* `ObjectHeader` (value type): a flag word at 0, the virtual table at 4;
* `Object`: the header, so its size is `H`;
* `VTable`: the size of an instance at `H`, the size of an element at `H + 4`;
* `Array` and `String`: a length at `H`; the characters of a string follow from `H + 4` on, behind
  the end of the class;
* `CodePointer` (value type): an address kept in an integer of pointer width.
-/

namespace DataImage.Core

/-! ## Positions -/

/-- One byte without sign. -/
def byte : TypeId := ⟨1⟩
/-- Four bytes with sign. -/
def int32 : TypeId := ⟨6⟩
/-- Four bytes without sign. -/
def uint32 : TypeId := ⟨7⟩
/-- A pointer's width, with sign. -/
def intPtr : TypeId := ⟨10⟩
/-- The header of an instance. -/
def objectHeader : TypeId := ⟨12⟩
/-- The class that all others derive from. -/
def object : TypeId := ⟨13⟩
/-- Virtual tables. -/
def vtable : TypeId := ⟨14⟩
/-- The base of all array classes. -/
def array : TypeId := ⟨15⟩
/-- Strings. -/
def string : TypeId := ⟨16⟩
/-- The address of code. -/
def codePointer : TypeId := ⟨17⟩

/-- The flag word of a header. -/
def multiUseWord : FieldId := ⟨0⟩
/-- The virtual table of a header. -/
def headerVtable : FieldId := ⟨1⟩
/-- The number of elements of an array. -/
def arrayLength : FieldId := ⟨4⟩
/-- The number of characters of a string. -/
def stringLength : FieldId := ⟨5⟩
/-- The first character of a string. -/
def firstChar : FieldId := ⟨6⟩
/-- The address in a code pointer. -/
def codePointerTarget : FieldId := ⟨7⟩

/-! ## Declarations -/

/-- An integer type. -/
def scalarDef (name : String) (size : Nat) (signed : Bool) : TypeDef :=
  { name, kind := .scalar signed, size }

/-- The core types for pointers of `p` bytes. -/
def types (p : Nat) : List TypeDef :=
  [ scalarDef "System.Boolean" 1 false,
    scalarDef "System.Byte" 1 false,
    scalarDef "System.SByte" 1 true,
    scalarDef "System.Char" 2 false,
    scalarDef "System.Int16" 2 true,
    scalarDef "System.UInt16" 2 false,
    scalarDef "System.Int32" 4 true,
    scalarDef "System.UInt32" 4 false,
    scalarDef "System.Int64" 8 true,
    scalarDef "System.UInt64" 8 false,
    scalarDef "System.IntPtr" p true,
    scalarDef "System.UIntPtr" p false,
    { name := "Microsoft.Zelig.Runtime.ObjectHeader", kind := .valueType, size := 4 + p,
      fields := [multiUseWord, headerVtable] },
    { name := "System.Object", kind := .reference, size := 4 + p },
    { name := "Microsoft.Zelig.Runtime.VTable", kind := .reference, base := some object,
      size := 4 + p + 8, fields := [⟨2⟩, ⟨3⟩] },
    { name := "System.Array", kind := .reference, base := some object, size := 4 + p + 4,
      fields := [arrayLength] },
    { name := "System.String", kind := .reference, base := some object, size := 4 + p + 4,
      fields := [stringLength, firstChar] },
    { name := "Microsoft.Zelig.Runtime.CodePointer", kind := .valueType, size := p,
      fields := [codePointerTarget] } ]

/-- The fields of the core types for pointers of `p` bytes. -/
def fields (p : Nat) : List FieldDef :=
  [ { name := "MultiUseWord", owner := objectHeader, offset := 0, type := uint32 },
    { name := "VTable", owner := objectHeader, offset := 4, type := vtable },
    { name := "BaseSize", owner := vtable, offset := 4 + p, type := uint32 },
    { name := "ElementSize", owner := vtable, offset := 4 + p + 4, type := uint32 },
    { name := "Length", owner := array, offset := 4 + p, type := int32 },
    { name := "StringLength", owner := string, offset := 4 + p, type := int32 },
    { name := "FirstChar", owner := string, offset := 4 + p + 4, type := ⟨3⟩ },
    { name := "Target", owner := codePointer, offset := 0, type := intPtr } ]

/-- The flag word of an instance that the program may write to: it is never reclaimed. -/
def mutableFlags : UInt64 := 0x8

/-- The flag word of a read-only instance. -/
def readOnlyFlags : UInt64 := 0x6

end DataImage.Core
