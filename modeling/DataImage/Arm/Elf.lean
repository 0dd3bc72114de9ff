import DataImage.Object.Library

/-!
# Objects as ELF files

How a relocatable object is written: as a little-endian 32-bit ELF file without segments. After the
header come the sections in use, the relocations of each that has some, the symbol table, and the
two tables of names; the section headers stand at the end.

* `ObjectFile.toElf` gives the bytes of the file.
-/

namespace DataImage.ObjectFile

/-! ## Words and names -/

/-- Two bytes. -/
def half (n : Nat) : List UInt8 := Bits.littleEndian (UInt64.ofNat n) 2

/-- Four bytes. -/
def word (n : Nat) : List UInt8 := Bits.littleEndian (UInt64.ofNat n) 4

/-- The bytes of a name and the zero behind it. -/
def nameBytes (name : String) : List UInt8 := name.toUTF8.toList ++ [0]

/-- A table of names: the empty name, and then the given ones. -/
def nameTable (names : List String) : List UInt8 := 0 :: names.flatMap nameBytes

/-- The place in the table of the name at position `i`. -/
def nameOffset (names : List String) (i : Nat) : Nat := (nameTable (names.take i)).length

/-! ## Sections of the file -/

/-- A section as the file holds it. -/
structure Chunk where
  name : String
  type : Nat
  flags : Nat := 0
  bytes : List UInt8
  /-- The position of the section that this one is read with. -/
  link : Nat := 0
  info : Nat := 0
  alignment : Nat := 1
  /-- The size of an entry, if the section is a table. -/
  entrySize : Nat := 0

/-- The sections that have relocations, with their positions among the sections in use. -/
def relocated (o : ObjectFile) : List (Nat × Section) :=
  (o.sections.zipIdx.filter fun (s, _) => !s.relocations.isEmpty).map fun (s, i) => (i, s)

/-- The position in the file of the section in use at position `i`, after the empty section. -/
def sectionPosition (i : Nat) : Nat := i + 1

/-- The position in the file of the symbol table. -/
def symbolTablePosition (o : ObjectFile) : Nat := 1 + o.sections.length + o.relocated.length

/-- A section in use. -/
def contentsChunk (s : Section) : Chunk :=
  { name := s.kind.name, type := 1, flags := s.kind.flags, bytes := s.bytes,
    alignment := s.alignment }

/-- An entry of a table of relocations. The symbol with number zero is the empty one. -/
def relocationEntry (r : SectionRelocation) : List UInt8 :=
  word r.offset.toNat ++ word ((r.symbol + 1) * 0x100 + 2)

/-- The relocations of a section in use. -/
def relocationChunk (o : ObjectFile) (i : Nat) (s : Section) : Chunk :=
  { name := ".rel" ++ s.kind.name, type := 9, flags := 0x40,
    bytes := s.relocations.flatMap relocationEntry,
    link := o.symbolTablePosition, info := sectionPosition i, alignment := 4, entrySize := 8 }

/-- The number of a symbol type. -/
def typeNumber : SymbolType → Nat
  | .unknown => 0
  | .object => 1
  | .func => 2

/-- The position in the file of the section that a symbol lies in, or zero. -/
def homePosition (o : ObjectFile) (s : Symbol) : Nat :=
  match s.home.bind fun kind => o.sections.findIdx? (·.kind = kind) with
  | some i => sectionPosition i
  | none => 0

/-- An entry of the symbol table. -/
def symbolEntry (o : ObjectFile) (name : Nat) (s : Symbol) : List UInt8 :=
  let binding := if s.isLocal then 0 else 1
  let visibility := if s.isHidden then 2 else 0
  word name ++ word s.value.toNat ++ word s.size.toNat ++
    Bits.littleEndian (UInt64.ofNat (binding * 16 + typeNumber s.type)) 1 ++
    Bits.littleEndian (UInt64.ofNat visibility) 1 ++ half (o.homePosition s)

/-- The symbol table, after an empty symbol. -/
def symbolChunk (o : ObjectFile) : Chunk :=
  let names := o.symbols.map (·.name)
  { name := ".symtab", type := 2,
    bytes := List.replicate 16 0 ++
      (o.symbols.zipIdx.map fun (s, i) => o.symbolEntry (nameOffset names i) s).flatten,
    link := o.symbolTablePosition + 1, info := o.symbols.countP (·.isLocal) + 1,
    alignment := 4, entrySize := 16 }

/-- The names of the symbols. -/
def symbolNameChunk (o : ObjectFile) : Chunk :=
  { name := ".strtab", type := 3, bytes := nameTable (o.symbols.map (·.name)) }

/-- The sections of the file apart from the empty one and the names of sections. -/
def leadingChunks (o : ObjectFile) : List Chunk :=
  o.sections.map contentsChunk ++ o.relocated.map (fun (i, s) => o.relocationChunk i s) ++
    [o.symbolChunk, o.symbolNameChunk]

/-- The name of the section that holds the names of sections. -/
def sectionNamesName : String := ".shstrtab"

/-- The names of the sections of the file. -/
def chunkNames (o : ObjectFile) : List String :=
  o.leadingChunks.map (·.name) ++ [sectionNamesName]

/-- The sections of the file apart from the empty one. -/
def chunks (o : ObjectFile) : List Chunk :=
  o.leadingChunks ++ [{ name := sectionNamesName, type := 3, bytes := nameTable o.chunkNames }]

/-! ## The file -/

/-- The size of the header. -/
def headerSize : Nat := 52

/-- The first multiple of `unit` that is not below `n`. -/
def roundUp (unit n : Nat) : Nat := (n + (unit - 1)) / unit * unit

/-- Sections with their places in the file, from a place on. -/
def placeChunks (start : Nat) : List Chunk → List (Nat × Chunk)
  | [] => []
  | c :: cs =>
    let offset := roundUp c.alignment start
    (offset, c) :: placeChunks (offset + c.bytes.length) cs

/-- Append bytes at a place, with zeros before them. -/
def appendAt (bytes : List UInt8) (offset : Nat) (more : List UInt8) : List UInt8 :=
  bytes ++ List.replicate (offset - bytes.length) 0 ++ more

/-- The header of a section. -/
def chunkHeader (name offset : Nat) (c : Chunk) : List UInt8 :=
  word name ++ word c.type ++ word c.flags ++ word 0 ++ word offset ++ word c.bytes.length ++
    word c.link ++ word c.info ++ word c.alignment ++ word c.entrySize

/-- The header of the file: a relocatable object for ARM with its section headers at a place. -/
def fileHeader (sectionHeaders count : Nat) : List UInt8 :=
  [0x7f, 0x45, 0x4c, 0x46, 1, 1, 1] ++ List.replicate 9 0 ++
    half 1 ++ half 40 ++ word 1 ++ word 0 ++ word 0 ++ word sectionHeaders ++ word 0 ++
    half headerSize ++ half 0 ++ half 0 ++ half 40 ++ half count ++ half (count - 1)

/-- The bytes of the file. -/
def toElf (o : ObjectFile) : List UInt8 :=
  let placed := placeChunks headerSize o.chunks
  let stop := (placed.getLast?.map fun (offset, c) => offset + c.bytes.length).getD headerSize
  let sectionHeaders := roundUp 4 stop
  let contents := placed.foldl (fun bytes (offset, c) => appendAt bytes offset c.bytes)
    (fileHeader sectionHeaders (placed.length + 1))
  let headers := (placed.zipIdx.map fun ((offset, c), i) =>
    chunkHeader (nameOffset o.chunkNames i) offset c).flatten
  appendAt contents sectionHeaders (List.replicate 40 0 ++ headers)

end DataImage.ObjectFile
