import DataImage.Keyed
import DataImage.Object.Library

/-!
# Relocatable objects for 32-bit ARM

Functions and blobs are placed one after the other, each at a multiple of four: functions in
`.text`, writable blobs in `.data`, read-only blobs in `.rodata`, or in `.data.rel.ro` if the
linker has to write addresses into them. Each gets a symbol; a name that starts with `.L` is local
to the object, all other names can be linked to. An alias is one more symbol at the place of a
function.

A relocation refers to the last symbol that was defined under its name, in the order functions,
blobs, aliases. Names without a definition become undefined symbols, in the order of their first
use. Therefore there are two passes: the first defines all symbols, and the second adds the
relocations.

The object is put together by a library for object files.

* `draft` gives the object as the library has it in the end, or the first error.
* `emit` gives the file.
-/

namespace DataImage.Arm

/-- The alignment of functions and blobs. -/
def alignment : Nat := 4

/-- The width of a pointer. -/
def pointerBits : Nat := 32

/-- Where a blob goes. -/
def sectionKind (b : Blob) : SectionKind :=
  if b.writable then .writable
  else if b.relocations.isEmpty then .readOnly
  else .relocatedReadOnly

/-- Who can see a symbol that is defined under a name. -/
def scopeOf (name : String) : SymbolScope :=
  if name.startsWith ".L" then .compilation else .linkage

/-- A symbol that is defined elsewhere. -/
def undefinedSymbol {σ : Type} (name : String) : NewSymbol σ where
  name
  value := 0
  size := 0
  type := .unknown
  scope := .unknown
  home := none

/-- A relocation on its way into a section. -/
structure Use (lib : Library) where
  home : lib.SectionId
  /-- The place of the function or blob that the relocation belongs to. -/
  base : Nat
  relocation : Relocation

/-- An object on its way, and what is known of its symbols. -/
structure Progress (lib : Library) where
  draft : lib.Draft
  /-- The symbols that names stand for. -/
  names : List (String × lib.SymbolId) := []
  /-- Place and size of functions, by name. -/
  functions : List (String × Nat × Nat) := []
  /-- The relocations that are still to come, in order. -/
  uses : List (Use lib) := []

namespace Progress

variable {lib : Library}

/-- Add a symbol. From now on its name stands for it. -/
def define (s : Progress lib) (symbol : NewSymbol lib.SectionId) : lib.SymbolId × Progress lib :=
  let (id, draft) := lib.addSymbol s.draft symbol
  (id, { s with draft, names := Keyed.put symbol.name id s.names })

/-! ## Definitions -/

/-- Append the bytes of a function or a blob to a section, and define its symbol. The result is its
place. -/
def place (s : Progress lib) (home : lib.SectionId) (type : SymbolType) (name : String)
    (bytes : List UInt8) (relocations : List Relocation) : Nat × Progress lib :=
  let (offset, draft) := lib.append s.draft home bytes alignment
  let (_, s) := { s with draft }.define
    { name, value := offset, size := bytes.length, type, scope := scopeOf name, home := some home }
  (offset, { s with uses := s.uses ++ relocations.map fun r => ⟨home, offset, r⟩ })

/-- Place a function into the section for code. -/
def addFunction (text : lib.SectionId) (s : Progress lib) (f : FunctionBody) : Progress lib :=
  let (offset, s) := s.place text .func f.name f.code f.relocations
  { s with functions := Keyed.put f.name (offset, f.code.length) s.functions }

/-- Place a blob into its section. -/
def addBlob (s : Progress lib) (b : Blob) : Progress lib :=
  let (home, draft) := lib.sectionOf s.draft (sectionKind b)
  ({ s with draft }.place home .object b.name b.bytes b.relocations).2

/-- Define one more symbol for the last function that an alias names. -/
def addAlias (text : lib.SectionId) (s : Progress lib) (a : SymbolAlias) :
    Except EmissionError (Progress lib) :=
  match s.functions.lookup a.target with
  | none => .error (.undefinedAliasTarget a.name a.target)
  | some (offset, size) => .ok (s.define
      { name := a.name, value := offset, size, type := .func, scope := .linkage,
        home := some text }).2

/-! ## Relocations -/

/-- The symbol that a name stands for, which is a new one if nothing has the name. -/
def symbolOf (s : Progress lib) (name : String) : lib.SymbolId × Progress lib :=
  match s.names.lookup name with
  | some id => (id, s)
  | none => s.define (undefinedSymbol name)

/-- Add a relocation to its section. -/
def addUse (s : Progress lib) (u : Use lib) : Except EmissionError (Progress lib) :=
  let (symbol, s) := s.symbolOf u.relocation.symbol
  let offset := u.base + u.relocation.offset
  if UInt64.size ≤ offset then .error .overflow
  else match u.relocation.kind with
    | .abs64 => .error (.unsupportedRelocation u.relocation.symbol .abs64)
    | .abs32 =>
      match lib.addRelocation s.draft u.home { offset, symbol } with
      | .error message => .error (.object message)
      | .ok draft => .ok { s with draft }

end Progress

/-! ## The object -/

/-- The object with the given functions, blobs and aliases, as the library has it. -/
def draft (lib : Library) (functions : List FunctionBody) (blobs : List Blob)
    (aliases : List SymbolAlias) : Except EmissionError lib.Draft := do
  let (text, draft) := lib.sectionOf lib.empty .text
  let s := functions.foldl (Progress.addFunction text) { draft }
  let s := blobs.foldl Progress.addBlob s
  let s ← aliases.foldlM (Progress.addAlias text) s
  let s ← s.uses.foldlM Progress.addUse s
  return s.draft

/-- The file with the given functions, blobs and aliases. -/
def emit (lib : Library) (functions : List FunctionBody) (blobs : List Blob)
    (aliases : List SymbolAlias) : Except EmissionError lib.File := do
  let object ← draft lib functions blobs aliases
  match lib.write object with
  | .error message => .error (.object message)
  | .ok file => .ok file

/-- The 32-bit ARM target, with a library for its objects. -/
def target (lib : Library) : Target lib.File where
  name := "arm"
  pointerBits
  emit := emit lib

end DataImage.Arm
