import DataImage.Object.Basic

/-!
# Libraries for object files

An object file is put together and written by a library that is not part of this project. It is
given sections, bytes, symbols and relocations one by one, and at last it writes the file. A
`Library` has these operations, for the files of one format and machine, and a reader for what was
written; what its operations do is not said here. `ObjectFile` is what the reader finds.
-/

namespace DataImage

/-! ## What a library is given -/

/-- The sections that code and data go to. -/
inductive SectionKind where
  | text
  | readOnly
  | relocatedReadOnly
  | writable
deriving DecidableEq, Repr, Inhabited

namespace SectionKind

/-- The kinds in the order in which an object shows them. -/
def all : List SectionKind := [.text, .readOnly, .relocatedReadOnly, .writable]

/-- The name of a section. -/
def name : SectionKind → String
  | .text => ".text"
  | .readOnly => ".rodata"
  | .relocatedReadOnly => ".data.rel.ro"
  | .writable => ".data"

/-- The attributes of a section: 1 for writable, 2 for allocated, 4 for executable. -/
def flags : SectionKind → Nat
  | .text => 6
  | .readOnly => 2
  | .relocatedReadOnly => 3
  | .writable => 3

end SectionKind

/-- What a symbol stands for. -/
inductive SymbolType where
  | func
  | object
  | unknown
deriving DecidableEq, Repr, Inhabited

/-- Who can see a symbol. -/
inductive SymbolScope where
  /-- The object only. -/
  | compilation
  /-- The objects that are linked together. -/
  | linkage
  /-- This is not known, as the symbol is defined elsewhere. -/
  | unknown
deriving DecidableEq, Repr, Inhabited

/-- A symbol for an object, with its section as a library names it. -/
structure NewSymbol (σ : Type) where
  name : String
  value : Nat
  size : Nat
  type : SymbolType
  scope : SymbolScope
  /-- The section it lies in, absent for a symbol that is defined elsewhere. -/
  home : Option σ
deriving DecidableEq, Repr, Inhabited

/-- A relocation for an object, with its symbol as a library names it: an absolute address of 32
bits. -/
structure NewRelocation (τ : Type) where
  /-- The distance from the start of the section. -/
  offset : Nat
  symbol : τ
deriving DecidableEq, Repr, Inhabited

/-! ## What a reader finds -/

/-- An entry of the symbol table. -/
structure Symbol where
  name : String
  value : UInt32
  size : UInt32
  /-- Whether other objects cannot see the name. -/
  isLocal : Bool
  /-- Whether the name is not visible outside the linked program. -/
  isHidden : Bool
  type : SymbolType
  /-- The section it lies in, absent for a symbol that is defined elsewhere. -/
  home : Option SectionKind
deriving DecidableEq, Repr, Inhabited

/-- The entry for a symbol, in words of 32 bits. -/
def NewSymbol.entry (s : NewSymbol SectionKind) : Symbol where
  name := s.name
  value := UInt32.ofNat s.value
  size := UInt32.ofNat s.size
  isLocal := s.scope = .compilation
  isHidden := s.scope = .linkage
  type := s.type
  home := s.home

/-- A relocation of a section: a 32-bit absolute address. -/
structure SectionRelocation where
  /-- The distance from the start of the section. -/
  offset : UInt32
  /-- The position of the symbol in the symbol table. -/
  symbol : Nat
deriving DecidableEq, Repr, Inhabited

/-- A section with its contents. -/
structure Section where
  kind : SectionKind
  bytes : List UInt8
  alignment : Nat
  relocations : List SectionRelocation
deriving DecidableEq, Repr, Inhabited

/-- A relocatable object. -/
structure ObjectFile where
  /-- The sections in use. -/
  sections : List Section
  symbols : List Symbol
deriving DecidableEq, Repr, Inhabited

/-! ## The library -/

/-- A library for object files of 32 bits. Where an operation can fail, the library says why. -/
structure Library where
  /-- Objects that are not written yet. -/
  Draft : Type
  SectionId : Type
  SymbolId : Type
  File : Type
  empty : Draft
  /-- The section of a kind, which is made if it is not there. -/
  sectionOf : Draft → SectionKind → SectionId × Draft
  /-- Append bytes to a section, at a multiple of some number. The result is their place. -/
  append : Draft → SectionId → List UInt8 → Nat → Nat × Draft
  addSymbol : Draft → NewSymbol SectionId → SymbolId × Draft
  addRelocation : Draft → SectionId → NewRelocation SymbolId → Except String Draft
  write : Draft → Except String File
  /-- The bytes of a file. -/
  bytes : File → List UInt8
  /-- What is in a file. -/
  read : File → Option ObjectFile

end DataImage
