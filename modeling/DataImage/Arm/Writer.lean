import DataImage.Arm.Elf
import DataImage.Keyed

/-!
# A writer for ELF files

A library for object files: it puts an object together in memory, and what it writes is an ELF file
for 32-bit ARM. Appended bytes come to lie at the next multiple of what was asked for, with zeros
before them, and the symbol table has local symbols first.

* `library` is the library.
-/

namespace DataImage.Arm

/-- A section that is not written yet. -/
structure DraftSection where
  bytes : List UInt8 := []
  alignment : Nat := 1
  /-- Relocations, with the positions of their symbols in the order in which these were added. -/
  relocations : List (NewRelocation Nat) := []
deriving DecidableEq, Repr, Inhabited

/-- An object that is not written yet. -/
structure Draft where
  /-- The sections in use. -/
  sections : List (SectionKind × DraftSection) := []
  symbols : List (NewSymbol SectionKind) := []
deriving DecidableEq, Repr, Inhabited

namespace Draft

/-- The section of a kind, empty if it is not in use. -/
def get (d : Draft) (kind : SectionKind) : DraftSection := (d.sections.lookup kind).getD {}

/-- Change the section of a kind, or make it. -/
def put (d : Draft) (kind : SectionKind) (s : DraftSection) : Draft :=
  { d with sections := Keyed.put kind s d.sections }

/-- Append bytes to a section. The result is their place. -/
def append (d : Draft) (kind : SectionKind) (bytes : List UInt8) (unit : Nat) : Nat × Draft :=
  let s := d.get kind
  let offset := ObjectFile.roundUp unit s.bytes.length
  (offset, d.put kind
    { s with
      bytes := ObjectFile.appendAt s.bytes offset bytes
      alignment := max s.alignment unit })

/-- Add a symbol. The result is its position. -/
def addSymbol (d : Draft) (symbol : NewSymbol SectionKind) : Nat × Draft :=
  (d.symbols.length, { d with symbols := d.symbols ++ [symbol] })

/-- Add a relocation to a section. -/
def addRelocation (d : Draft) (kind : SectionKind) (r : NewRelocation Nat) : Draft :=
  let s := d.get kind
  d.put kind { s with relocations := s.relocations ++ [r] }

end Draft

/-! ## Writing -/

/-- The place in the symbol table, local symbols first, of the symbol at position `i`. -/
def tableIndex (symbols : List Symbol) (i : Nat) : Nat :=
  let before := symbols.take i
  if (symbols[i]?.map (·.isLocal)).getD false then before.countP (·.isLocal)
  else symbols.countP (·.isLocal) + before.countP (!·.isLocal)

/-- The object as it is written. -/
def Draft.finish (d : Draft) : ObjectFile :=
  let symbols := d.symbols.map NewSymbol.entry
  { sections := SectionKind.all.filterMap fun kind => (d.sections.lookup kind).map fun s =>
      { kind
        bytes := s.bytes
        alignment := s.alignment
        relocations := s.relocations.map fun r =>
          { offset := UInt32.ofNat r.offset, symbol := tableIndex symbols r.symbol } }
    symbols := symbols.filter (·.isLocal) ++ symbols.filter (!·.isLocal) }

/-- The library. Its files are kept as objects, and have the bytes of ELF files. -/
def library : Library where
  Draft := Draft
  SectionId := SectionKind
  SymbolId := Nat
  File := ObjectFile
  empty := {}
  sectionOf d kind := (kind, d.put kind (d.get kind))
  append := Draft.append
  addSymbol := Draft.addSymbol
  addRelocation d kind r := .ok (d.addRelocation kind r)
  write d := .ok d.finish
  bytes := ObjectFile.toElf
  read := some

end DataImage.Arm
