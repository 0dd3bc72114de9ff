import DataImage.Object.Library
import Mathlib.Algebra.Group.Nat.Defs
import Mathlib.Data.List.Forall2

/-!
# What a library for object files does

What is proved about object files rests on the documented behaviour of the library that makes them.
A `Library.View` says what an object that is not written yet holds: the bytes of its sections, its
symbols in the order in which they were added, and the relocations of each section. The library is
lawful if each operation does to this what its documentation says (`Library.View.Lawful`), and if
what is written can be read (`ObjectFile.Reflects`). The fields of a file are words: a distance is
one of 32 bits, the number of a symbol one of 24 bits, and names end at a zero. Only a file that is
not too large for them can say everything (`Contents.FitsFile`).
-/

namespace DataImage

/-! ## What an object holds -/

/-- What an object holds that is not written yet. -/
structure Contents where
  /-- The bytes of the sections in use. -/
  sections : SectionKind → Option (List UInt8) := fun _ => none
  /-- The symbols in the order in which they were added. -/
  symbols : List (NewSymbol SectionKind) := []
  /-- The relocations of sections, with the positions of their symbols. -/
  relocations : SectionKind → List (NewRelocation Nat) := fun _ => []

namespace Contents

/-- Let a section have some bytes. -/
def setBytes (c : Contents) (kind : SectionKind) (bytes : List UInt8) : Contents :=
  { c with sections := fun k => if k = kind then some bytes else c.sections k }

theorem setBytes_setBytes (c : Contents) (kind : SectionKind) (bytes more : List UInt8) :
    (c.setBytes kind bytes).setBytes kind more = c.setBytes kind more := by
  rw [setBytes, setBytes, setBytes]
  congr 1
  funext k
  exact ite_congr rfl (fun _ => rfl) fun hk => if_neg hk

/-- A section has the bytes that it was let have, and every other one those that it had. -/
theorem sections_setBytes_eq_some_iff {c : Contents} {kind k : SectionKind}
    {bytes bytes' : List UInt8} : (c.setBytes kind bytes).sections k = some bytes' ↔
      k = kind ∧ bytes' = bytes ∨ k ≠ kind ∧ c.sections k = some bytes' := by
  by_cases h : k = kind
  · simp [setBytes, h, eq_comm]
  · simp [setBytes, h]

/-- Make a section if it is not there. -/
def use (c : Contents) (kind : SectionKind) : Contents :=
  c.setBytes kind ((c.sections kind).getD [])

theorem use_eq_self {c : Contents} {kind : SectionKind} (h : (c.sections kind).isSome = true) :
    c.use kind = c := by
  obtain ⟨bytes, hbytes⟩ := Option.isSome_iff_exists.1 h
  have hsections : (c.use kind).sections = c.sections := by
    funext k
    by_cases hk : k = kind
    · rw [hk, hbytes]
      simp [use, setBytes, hbytes]
    · exact if_neg hk
  calc c.use kind = { c with sections := (c.use kind).sections } := rfl
    _ = c := by rw [hsections]

/-- Add a symbol. -/
def addSymbol (c : Contents) (s : NewSymbol SectionKind) : Contents :=
  { c with symbols := c.symbols ++ [s] }

/-- Add a relocation to a section. -/
def addRelocation (c : Contents) (kind : SectionKind) (r : NewRelocation Nat) : Contents :=
  { c with relocations := fun k =>
      if k = kind then c.relocations k ++ [r] else c.relocations k }

/-- Whether the bytes of a file have room for what an object holds, and a reader can tell where
names end. -/
structure FitsFile (c : Contents) (bytes : List UInt8) : Prop where
  length : bytes.length < UInt32.size
  symbols : c.symbols.length < 2 ^ 24
  names : ∀ s ∈ c.symbols, Char.ofNat 0 ∉ s.name.toList

end Contents

/-- Whether each of some symbols has a place of its own in the symbol table of an object. -/
structure ObjectFile.Indexes (o : ObjectFile) (symbols : List (NewSymbol SectionKind))
    (index : Nat → Nat) : Prop where
  entry : ∀ i s, symbols[i]? = some s → o.symbols[index i]? = some s.entry
  distinct : ∀ i j, i < j → j < symbols.length → index i ≠ index j

/-- **Whether a reader finds what an object held**: the sections with their bytes, the symbols at
some places, and the relocations of each section in order, bound to the symbols that they were added
with. -/
structure ObjectFile.Reflects (o : ObjectFile) (c : Contents) (index : Nat → Nat) : Prop where
  kinds : (o.sections.map (·.kind)).Nodup
  used : ∀ kind, (∃ sec ∈ o.sections, sec.kind = kind) ↔ (c.sections kind).isSome = true
  bytes : ∀ sec ∈ o.sections, c.sections sec.kind = some sec.bytes
  symbols : o.symbols.Perm (c.symbols.map NewSymbol.entry)
  places : o.Indexes c.symbols index
  relocations : ∀ sec ∈ o.sections, List.Forall₂ (fun r r' =>
    r'.offset = UInt32.ofNat r.offset ∧ r'.symbol = index r.symbol)
    (c.relocations sec.kind) sec.relocations

namespace Library

/-! ## The laws -/

/-- What the objects of a library hold, and what its names for sections and symbols stand for. -/
structure View (lib : Library) where
  contents : lib.Draft → Contents
  kind : lib.SectionId → SectionKind
  /-- The position of a symbol in the order in which symbols were added. -/
  position : lib.SymbolId → Nat

/-- A symbol with its section. -/
def View.symbol {lib : Library} (v : lib.View) (s : NewSymbol lib.SectionId) :
    NewSymbol SectionKind where
  name := s.name
  value := s.value
  size := s.size
  type := s.type
  scope := s.scope
  home := s.home.map v.kind

/-- **Whether a library does what its documentation says.** -/
structure View.Lawful {lib : Library} (v : lib.View) : Prop where
  /-- A new object holds nothing. -/
  empty : v.contents lib.empty = {}
  /-- The section of a kind is the one that is there, or a new one without bytes. -/
  sectionOf : ∀ d kind, v.kind (lib.sectionOf d kind).1 = kind ∧
    v.contents (lib.sectionOf d kind).2 = (v.contents d).use kind
  /-- Bytes come behind those that are there, at the next multiple of what is asked for, which has
  to be a power of two. There are zeros between. -/
  append : ∀ d home bytes k old, (v.contents d).sections (v.kind home) = some old →
    2 ^ k ∣ (lib.append d home bytes (2 ^ k)).1 ∧
    old.length ≤ (lib.append d home bytes (2 ^ k)).1 ∧
    (lib.append d home bytes (2 ^ k)).1 < old.length + 2 ^ k ∧
    v.contents (lib.append d home bytes (2 ^ k)).2 = (v.contents d).setBytes (v.kind home)
      (old ++ List.replicate ((lib.append d home bytes (2 ^ k)).1 - old.length) 0 ++ bytes)
  /-- A symbol comes behind those that are there. -/
  addSymbol : ∀ d s, v.position (lib.addSymbol d s).1 = (v.contents d).symbols.length ∧
    v.contents (lib.addSymbol d s).2 = (v.contents d).addSymbol (v.symbol s)
  /-- Sections take relocations, each with a symbol that is there. -/
  addRelocation : ∀ d home r, ((v.contents d).sections (v.kind home)).isSome = true →
    v.position r.symbol < (v.contents d).symbols.length → ∃ d',
      lib.addRelocation d home r = .ok d' ∧
      v.contents d' = (v.contents d).addRelocation (v.kind home) ⟨r.offset, v.position r.symbol⟩
  /-- A file is at least as long as each section. -/
  length_le : ∀ d file kind bytes, lib.write d = .ok file →
    (v.contents d).sections kind = some bytes → bytes.length ≤ (lib.bytes file).length
  /-- What is written can be read, if the file has room for it. -/
  read : ∀ d file, lib.write d = .ok file → (v.contents d).FitsFile (lib.bytes file) → ∃ o index,
    lib.read file = some o ∧ o.Reflects (v.contents d) index

/-- **Whether a library can write every object.** -/
def AlwaysWrites (lib : Library) : Prop := ∀ d, ∃ file, lib.write d = .ok file

end Library

end DataImage
