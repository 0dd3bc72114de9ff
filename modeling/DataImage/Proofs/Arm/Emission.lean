import DataImage.Proofs.Arm.Binding
import DataImage.Proofs.Arm.Writer
import Mathlib.Data.List.Perm.Basic

/-!
# What is emitted

The outcome of an emission, for all functions, blobs and aliases and with every lawful library
(`Arm.emit_outcome`): the first alias without a function is an error, then the first relocation that
is out of reach or one of 64 bits is one, then the library can fail to write, and otherwise there is
a file. What the library is told to write is as it should be (`Arm.Emitted`), and a file that has
room for it shows it (`Arm.Shown`). Names may be equal: what is said about a symbol is said about
its position, and a relocation refers to the last position of its name.
-/

namespace DataImage.Arm

/-! ## Functions by name -/

section

variable {functions : List FunctionBody} {blobs : List Blob} {placed : List Placed}

/-- A search among placed pieces is one among the functions and blobs. -/
theorem find?_placed (hplaced : placed.map Placed.toPiece = pieces functions blobs)
    (q : Piece → Bool) :
    (placed.reverse.find? fun p => q p.toPiece).map Placed.toPiece =
      ((blobs.reverse.find? fun b => q (blobPiece b)).map blobPiece).or
        ((functions.reverse.find? fun f => q (bodyPiece f)).map bodyPiece) := by
  have hmap : (placed.reverse.find? fun p => q p.toPiece).map Placed.toPiece =
      (pieces functions blobs).reverse.find? q := by
    rw [← hplaced, ← List.map_reverse, List.find?_map]
    rfl
  rw [hmap, pieces, List.reverse_append, List.find?_append, ← List.map_reverse, ← List.map_reverse,
    List.find?_map, List.find?_map]
  rfl

/-- Only functions are found by the name of the target of an alias. -/
theorem findFunction?_placed (hplaced : placed.map Placed.toPiece = pieces functions blobs)
    (name : String) :
    (findFunction? placed name).map Placed.toPiece =
      (functions.reverse.find? (·.name = name)).map bodyPiece := by
  have hblobs : (blobs.reverse.find? fun b =>
      decide ((blobPiece b).type = .func) && decide ((blobPiece b).name = name)) = none :=
    List.find?_eq_none.2 fun b _ => Bool.false_ne_true
  have hfunctions : (functions.reverse.find? fun f =>
      decide ((bodyPiece f).type = .func) && decide ((bodyPiece f).name = name)) =
      functions.reverse.find? (·.name = name) := rfl
  have hfind := find?_placed hplaced fun p => decide (p.type = .func) && decide (p.name = name)
  rw [hblobs, hfunctions] at hfind
  exact hfind

theorem isNone_findFunction? (hplaced : placed.map Placed.toPiece = pieces functions blobs)
    (name : String) :
    (findFunction? placed name).isNone = functions.all (·.name ≠ name) := by
  have hfind := congrArg Option.isNone (findFunction?_placed hplaced name)
  rw [Option.isNone_map, Option.isNone_map] at hfind
  rw [hfind, Bool.eq_iff_iff, Option.isNone_iff_eq_none, List.find?_eq_none, List.all_eq_true]
  simp

theorem mem_of_findFunction? {name : String} {p : Placed} (h : findFunction? placed name = some p) :
    p ∈ placed ∧ p.type = .func ∧ p.name = name := by
  have hmem := List.mem_of_find?_eq_some h
  have hcond := List.find?_some h
  rw [Bool.and_eq_true, decide_eq_true_eq, decide_eq_true_eq] at hcond
  exact ⟨List.mem_reverse.1 hmem, hcond⟩

end

/-! ## What the library is told -/

/-- Whether functions and blobs are placed at proper places. -/
structure Places (functions : List FunctionBody) (blobs : List Blob) (placed : List Placed) :
    Prop where
  /-- Every function and then every blob is placed once, in order: functions in `.text`, blobs in
  the section that `sectionKind` says. -/
  placed_eq : placed.map Placed.toPiece = functions.map bodyPiece ++ blobs.map blobPiece
  /-- Offsets are multiples of four. -/
  aligned : ∀ p ∈ placed, 4 ∣ p.offset
  /-- Pieces of one section follow each other without overlap. -/
  apart : placed.Pairwise fun p q => p.kind = q.kind → p.offset + p.bytes.length ≤ q.offset
  /-- Pieces lie close to each other, with at most three bytes between. -/
  end_le : ∀ p ∈ placed, p.offset + p.bytes.length ≤ paddedLength placed

/-- All symbols in the order in which they are added: those of the pieces, those of the aliases, and
the undefined ones. -/
def allSymbols (placed : List Placed) (aliasSymbols : List (NewSymbol SectionKind))
    (undefinedNames : List String) : List (NewSymbol SectionKind) :=
  placed.map (·.symbol) ++ aliasSymbols ++ undefinedNames.map undefinedSymbol

/-- What an object holds, given where the pieces are placed, the symbols of the aliases, and the
names that are left undefined. -/
structure Emitted (aliases : List SymbolAlias) (placed : List Placed)
    (aliasSymbols : List (NewSymbol SectionKind)) (undefinedNames : List String)
    (c : Contents) : Prop where
  /-- The sections hold the pieces. -/
  holds : HoldsPieces c placed
  /-- The symbol of an alias has place and size of the last function of the target's name. -/
  aliased : List.Forall₂ (fun a t => ∃ p, findFunction? placed a.target = some p ∧
    t = aliasSymbol a p) aliases aliasSymbols
  /-- The undefined names are those that relocations use and nothing defines, each once. -/
  undefined : undefinedNames.Nodup ∧ ∀ name, name ∈ undefinedNames ↔
    (∀ t ∈ placed.map (·.symbol) ++ aliasSymbols, t.name ≠ name) ∧
      ∃ u ∈ usesOf placed, u.2.symbol = name
  /-- Every piece, every alias and every undefined name has one symbol. -/
  symbols : c.symbols = allSymbols placed aliasSymbols undefinedNames
  /-- The relocations of a section are those of its pieces in order, each bound to the last symbol
  of its name. -/
  relocations : ∀ kind, List.Forall₂ (Relocates c.symbols)
    ((usesOf placed).filter (·.1.kind = kind)) (c.relocations kind)

section

variable {lib : Library} {v : lib.View} (hv : v.Lawful)

include hv

/-- Before anything is added, there is only the section for code. -/
theorem defined_start :
    v.kind (lib.sectionOf lib.empty .text).1 = .text ∧
      Defined v { draft := (lib.sectionOf lib.empty .text).2 } [] [] := by
  obtain ⟨hkind, hcontents⟩ := hv.sectionOf lib.empty .text
  rw [hv.empty] at hcontents
  refine ⟨hkind,
    { holds := .congr .nil (congrArg Contents.sections hcontents)
      symbols := (congrArg Contents.symbols hcontents).trans rfl
      relocations := (congrArg Contents.relocations hcontents).trans rfl
      names := fun name => ?_
      uses := .nil }⟩
  dsimp only
  rw [hcontents]
  rfl

/-- **What the library is told**, or the first error. -/
theorem draft_outcome (functions : List FunctionBody) (blobs : List Blob)
    (aliases : List SymbolAlias) :
    match aliases.find? (fun a => functions.all (·.name ≠ a.target)) with
    | some a => draft lib functions blobs aliases =
        .error (.undefinedAliasTarget a.name a.target)
    | none => ∃ placed, Places functions blobs placed ∧
        match (usesOf placed).findSome? useError? with
        | some e => draft lib functions blobs aliases = .error e
        | none => ∃ d aliasSymbols undefinedNames, draft lib functions blobs aliases = .ok d ∧
            Emitted aliases placed aliasSymbols undefinedNames (v.contents d) := by
  obtain ⟨htext, hstart⟩ := defined_start hv
  obtain ⟨placed, hplaced, hdefined, hknown⟩ :=
    exists_placed hv htext functions blobs hstart fun name => rfl
  have haliases := aliases_outcome hv htext hdefined hknown aliases
  have hfunctions : (fun a : SymbolAlias => (findFunction? placed a.target).isNone) =
      fun a => functions.all (·.name ≠ a.target) :=
    funext fun a => isNone_findFunction? hplaced a.target
  rw [hfunctions] at haliases
  split
  · rename_i a hfind
    rw [hfind] at haliases
    unfold draft
    dsimp only at haliases ⊢
    rw [haliases]
    rfl
  · rename_i hfind
    rw [hfind] at haliases
    obtain ⟨s, aliasSymbols, hrun, haliased, hall⟩ := haliases
    refine ⟨placed, ⟨hplaced, hdefined.holds.aligned, hdefined.holds.apart,
      fun p => hdefined.holds.end_le⟩, ?_⟩
    have huses := uses_outcome hv haliased.relocated haliased.uses fun u hu => (mem_usesOf.1 hu).1
    split
    · rename_i e herror
      rw [herror] at huses
      unfold draft
      dsimp only at hrun huses ⊢
      rw [hrun]
      dsimp only [bind, Except.bind]
      rw [huses]
    · rename_i hnone
      rw [hnone] at huses
      obtain ⟨s', undefinedNames, hrun', hrelocated⟩ := huses
      refine ⟨s'.draft, aliasSymbols, undefinedNames, ?_,
        { holds := hrelocated.holds
          aliased := hall
          undefined := ⟨hrelocated.nodup, fun name => ?_⟩
          symbols := hrelocated.symbols
          relocations := hrelocated.relocations }⟩
      · unfold draft
        dsimp only at hrun ⊢
        rw [hrun]
        dsimp only [bind, Except.bind]
        rw [hrun']
        rfl
      · exact (hrelocated.mem_iff name).trans (and_congr_right fun _ => List.mem_map)

end

/-! ## What a file shows -/

/-- What a reader finds in a file, given where the pieces are placed, the symbols of the aliases,
the names that are left undefined, and the places of symbols in the symbol table. -/
structure Shown (placed : List Placed) (aliasSymbols : List (NewSymbol SectionKind))
    (undefinedNames : List String) (o : ObjectFile) (index : Nat → Nat) : Prop where
  /-- There is one section for code, and one of every kind that some piece has. -/
  sections : (o.sections.map (·.kind)).Nodup ∧ ∀ kind,
    (∃ sec ∈ o.sections, sec.kind = kind) ↔ kind = .text ∨ ∃ p ∈ placed, p.kind = kind
  /-- The length of a section is a word. -/
  room : ∀ sec ∈ o.sections, sec.bytes.length < UInt32.size
  /-- In its section a piece has its bytes at its offset. -/
  slice : ∀ sec ∈ o.sections, ∀ p ∈ placed, p.kind = sec.kind →
    p.offset + p.bytes.length ≤ sec.bytes.length ∧
      (sec.bytes.drop p.offset).take p.bytes.length = p.bytes
  /-- Every other byte of a section is zero. -/
  zero : ∀ sec ∈ o.sections, ∀ i x, sec.bytes[i]? = some x →
    x = 0 ∨ ∃ p ∈ placed, p.kind = sec.kind ∧ p.offset ≤ i ∧ i < p.offset + p.bytes.length
  /-- The symbol table has an entry for every piece, alias and undefined name, and no other ones. -/
  symbols : o.symbols.Perm
    ((allSymbols placed aliasSymbols undefinedNames).map NewSymbol.entry)
  /-- Each of them has its own place in the table. -/
  places : o.Indexes (allSymbols placed aliasSymbols undefinedNames) index
  /-- Places and sizes are words, so the entries say what they are. -/
  exact : ∀ s ∈ allSymbols placed aliasSymbols undefinedNames,
    s.entry.value.toNat = s.value ∧ s.entry.size.toNat = s.size
  /-- The relocations of a section are those of its pieces in order, each at the distance from the
  start of the section that the word for it can hold. It is bound to the last definition of its
  name, or else to the undefined symbol of the name. -/
  relocations : ∀ sec ∈ o.sections, List.Forall₂ (fun u r =>
    r.offset.toNat = (u.1.offset + u.2.offset) % UInt32.size ∧
    (∃ i, lastPosition? (allSymbols placed aliasSymbols undefinedNames) u.2.symbol = some i ∧
      r.symbol = index i) ∧
    o.symbols[r.symbol]? = some ((lastNamed? (placed.map (·.symbol) ++ aliasSymbols)
      u.2.symbol).getD (undefinedSymbol u.2.symbol)).entry)
    ((usesOf placed).filter (·.1.kind = sec.kind)) sec.relocations

section

variable {aliases : List SymbolAlias} {placed : List Placed}
  {aliasSymbols : List (NewSymbol SectionKind)} {undefinedNames : List String} {c : Contents}

theorem lastNamed?_undefined {names : List String} {name : String} (h : name ∈ names) :
    lastNamed? (names.map undefinedSymbol) name = some (undefinedSymbol name) := by
  cases hlast : lastNamed? (names.map undefinedSymbol) name with
  | none => exact absurd rfl (lastNamed?_eq_none_iff.1 hlast _ (List.mem_map_of_mem h))
  | some s =>
    obtain ⟨hs, hname⟩ := mem_of_lastNamed? hlast
    obtain ⟨other, -, rfl⟩ := List.mem_map.1 hs
    obtain rfl : other = name := hname
    rfl

/-- **The last symbol of a name** that a relocation uses is the last definition of the name, or else
the undefined symbol of the name. -/
theorem Emitted.lastNamed?_eq (h : Emitted aliases placed aliasSymbols undefinedNames c)
    {u : Placed × Relocation} (hu : u ∈ usesOf placed) :
    lastNamed? (allSymbols placed aliasSymbols undefinedNames) u.2.symbol =
      some ((lastNamed? (placed.map (·.symbol) ++ aliasSymbols) u.2.symbol).getD
        (undefinedSymbol u.2.symbol)) := by
  rw [allSymbols, lastNamed?_append]
  cases hdefined : lastNamed? (placed.map (·.symbol) ++ aliasSymbols) u.2.symbol with
  | none =>
    have hfree := lastNamed?_eq_none_iff.1 hdefined
    rw [lastNamed?_undefined ((h.undefined.2 _).2 ⟨hfree, u, hu, rfl⟩)]
    rfl
  | some s =>
    have hnone : lastNamed? (undefinedNames.map undefinedSymbol) u.2.symbol = none := by
      refine lastNamed?_eq_none_iff.2 fun t ht hname => ?_
      obtain ⟨name, hmem, rfl⟩ := List.mem_map.1 ht
      obtain rfl : name = u.2.symbol := hname
      obtain ⟨hs, hsame⟩ := mem_of_lastNamed? hdefined
      exact ((h.undefined.2 _).1 hmem).1 s hs hsame
    rw [hnone]
    rfl

/-- Every symbol marks a part of a section, or is undefined. -/
theorem Emitted.end_le (h : Emitted aliases placed aliasSymbols undefinedNames c) {bound : Nat}
    (hbound : ∀ kind bytes, c.sections kind = some bytes → bytes.length < bound)
    (hpos : 0 < bound) {s : NewSymbol SectionKind}
    (hs : s ∈ allSymbols placed aliasSymbols undefinedNames) :
    s.value < bound ∧ s.size < bound := by
  have hplaced : ∀ p ∈ placed, p.offset < bound ∧ p.bytes.length < bound := fun p hp => by
    obtain ⟨bytes, hbytes⟩ :=
      Option.isSome_iff_exists.1 ((h.holds.used p.kind).2 (.inr ⟨p, hp, rfl⟩))
    have hend := (h.holds.slice p hp bytes hbytes).1
    have hlength := hbound p.kind bytes hbytes
    omega
  rcases List.mem_append.1 hs with hs | hs
  · rcases List.mem_append.1 hs with hs | hs
    · obtain ⟨p, hp, rfl⟩ := List.mem_map.1 hs
      exact hplaced p hp
    · obtain ⟨a, -, p, hp, rfl⟩ := Partial.exists_of_forall₂_right h.aliased hs
      exact hplaced p (mem_of_findFunction? hp).1
  · obtain ⟨name, -, rfl⟩ := List.mem_map.1 hs
    exact ⟨hpos, hpos⟩

/-- **A file with room shows what was emitted.** -/
theorem Emitted.shown (h : Emitted aliases placed aliasSymbols undefinedNames c) {o : ObjectFile}
    {index : Nat → Nat} (hshows : o.Reflects c index)
    (hroom : ∀ kind bytes, c.sections kind = some bytes → bytes.length < UInt32.size) :
    Shown placed aliasSymbols undefinedNames o index := by
  have hplaces := hshows.places
  rw [h.symbols] at hplaces
  refine
    { sections := ⟨hshows.kinds, fun kind => (hshows.used kind).trans (h.holds.used kind)⟩
      room := fun sec hsec => hroom sec.kind sec.bytes (hshows.bytes sec hsec)
      slice := fun sec hsec p hp hkind =>
        h.holds.slice p hp sec.bytes (hkind ▸ hshows.bytes sec hsec)
      zero := fun sec hsec => h.holds.zero sec.kind sec.bytes (hshows.bytes sec hsec)
      symbols := h.symbols ▸ hshows.symbols
      places := hplaces
      exact := fun s hs => ?_
      relocations := fun sec hsec => ?_ }
  · obtain ⟨hvalue, hsize⟩ := h.end_le hroom (by decide) hs
    exact ⟨UInt32.toNat_ofNat_of_lt' hvalue, UInt32.toNat_ofNat_of_lt' hsize⟩
  · have huses := Partial.forall₂_mem (h.relocations sec.kind)
    refine Partial.forall₂_trans huses (hshows.relocations sec hsec) fun u r r' hu hr => ?_
    obtain ⟨hmem, -, hoffset, hlast⟩ := hu
    rw [h.symbols] at hlast
    have hget := (getElem?_lastPosition? hlast).1
    rw [h.lastNamed?_eq (List.mem_filter.1 hmem).1] at hget
    refine ⟨?_, ⟨r.symbol, hlast, hr.2⟩, ?_⟩
    · rw [hr.1, hoffset]
      exact UInt32.toNat_ofNat'
    · rw [hr.2]
      exact hplaces.entry _ _ hget

/-- A lawful library writes such files. -/
theorem Emitted.exists_shown {lib : Library} {v : lib.View} (hv : v.Lawful) {d : lib.Draft}
    (h : Emitted aliases placed aliasSymbols undefinedNames (v.contents d)) {file : lib.File}
    (hwrite : lib.write d = .ok file) (hfits : (v.contents d).FitsFile (lib.bytes file)) :
    ∃ o index, lib.read file = some o ∧ Shown placed aliasSymbols undefinedNames o index := by
  obtain ⟨o, index, hread, hshows⟩ := hv.read d file hwrite hfits
  refine ⟨o, index, hread, h.shown hshows fun kind bytes hbytes => ?_⟩
  exact Nat.lt_of_le_of_lt (hv.length_le d file kind bytes hwrite hbytes) hfits.length

end

/-! ## The outcome -/

/-- The file is what the library writes. -/
theorem emit_eq (lib : Library) (functions : List FunctionBody) (blobs : List Blob)
    (aliases : List SymbolAlias) :
    emit lib functions blobs aliases =
      match draft lib functions blobs aliases with
      | .error e => .error e
      | .ok d => match lib.write d with
        | .error message => .error (.object message)
        | .ok file => .ok file := by
  unfold emit
  cases draft lib functions blobs aliases <;> rfl

theorem emit_eq_ok_iff {lib : Library} {functions : List FunctionBody} {blobs : List Blob}
    {aliases : List SymbolAlias} {file : lib.File} :
    emit lib functions blobs aliases = .ok file ↔
      ∃ d, draft lib functions blobs aliases = .ok d ∧ lib.write d = .ok file := by
  rw [emit_eq]
  cases draft lib functions blobs aliases with
  | error e => simp
  | ok d => cases h : lib.write d <;> simp [h]

/-- An object that was put together without an error is as it should be. -/
theorem exists_emitted {lib : Library} {v : lib.View} (hv : v.Lawful)
    {functions : List FunctionBody} {blobs : List Blob} {aliases : List SymbolAlias}
    {d : lib.Draft} (h : draft lib functions blobs aliases = .ok d) :
    ∃ placed aliasSymbols undefinedNames, Places functions blobs placed ∧
      Emitted aliases placed aliasSymbols undefinedNames (v.contents d) := by
  have houtcome := draft_outcome hv functions blobs aliases
  rw [h] at houtcome
  split at houtcome
  · cases houtcome
  · obtain ⟨placed, hplaces, houtcome⟩ := houtcome
    split at houtcome
    · cases houtcome
    · obtain ⟨d', aliasSymbols, undefinedNames, hsame, hemitted⟩ := houtcome
      obtain rfl := Except.ok.inj hsame
      exact ⟨placed, aliasSymbols, undefinedNames, hplaces, hemitted⟩

/-- **The outcome of an emission.** The first alias whose target no function has as its name is an
error. Otherwise functions and blobs are placed, and the first of their relocations is one whose
distance from the start of its section is no word of 64 bits, or which is one of 64 bits. Otherwise
the library is told what `Emitted` says. If it cannot write that, this is an error, and otherwise
there is a file; where the file has room, its reader finds what `Shown` says. -/
theorem emit_outcome {lib : Library} {v : lib.View} (hv : v.Lawful)
    (functions : List FunctionBody) (blobs : List Blob) (aliases : List SymbolAlias) :
    match aliases.find? (fun a => functions.all (·.name ≠ a.target)) with
    | some a => emit lib functions blobs aliases = .error (.undefinedAliasTarget a.name a.target)
    | none => ∃ placed, Places functions blobs placed ∧
        match (usesOf placed).findSome? useError? with
        | some e => emit lib functions blobs aliases = .error e
        | none => ∃ d aliasSymbols undefinedNames, draft lib functions blobs aliases = .ok d ∧
            Emitted aliases placed aliasSymbols undefinedNames (v.contents d) ∧
            match lib.write d with
            | .error message => emit lib functions blobs aliases = .error (.object message)
            | .ok file => emit lib functions blobs aliases = .ok file ∧
                ((v.contents d).FitsFile (lib.bytes file) → ∃ o index, lib.read file = some o ∧
                  Shown placed aliasSymbols undefinedNames o index) := by
  have hdraft := draft_outcome hv functions blobs aliases
  rw [emit_eq]
  split
  · rename_i a hfind
    rw [hfind] at hdraft
    dsimp only at hdraft
    rw [hdraft]
  · rename_i hfind
    rw [hfind] at hdraft
    obtain ⟨placed, hplaces, hdraft⟩ := hdraft
    refine ⟨placed, hplaces, ?_⟩
    split
    · rename_i e herror
      rw [herror] at hdraft
      dsimp only at hdraft
      rw [hdraft]
    · rename_i hnone
      rw [hnone] at hdraft
      obtain ⟨d, aliasSymbols, undefinedNames, hdraft, hemitted⟩ := hdraft
      refine ⟨d, aliasSymbols, undefinedNames, hdraft, hemitted, ?_⟩
      rw [hdraft]
      dsimp only
      cases hwrite : lib.write d with
      | error message => rfl
      | ok file =>
        exact ⟨rfl, hemitted.exists_shown hv hwrite⟩

/-- A function that refers to a blob, a blob that refers to the function and to something that is
defined elsewhere, and one more name for the function. -/
def linked : List FunctionBody × List Blob × List SymbolAlias :=
  ([{ name := "run", code := [0, 0, 0, 0, 0], relocations := [⟨0, "data", .abs32⟩] }],
    [{ name := "data", bytes := [0, 0, 0, 0, 0, 0, 0, 0], writable := true
       relocations := [⟨0, "run", .abs32⟩, ⟨4, "elsewhere", .abs32⟩] }],
    [⟨"main", "run"⟩])

/-- The file of these shows what belongs into it. -/
theorem emit_outcome_linked : ∃ placed aliasSymbols undefinedNames file o index,
    Places linked.1 linked.2.1 placed ∧ emit library linked.1 linked.2.1 linked.2.2 = .ok file ∧
      library.read file = some o ∧ Shown placed aliasSymbols undefinedNames o index := by
  have houtcome := emit_outcome lawful linked.1 linked.2.1 linked.2.2
  have haliases : linked.2.2.find? (fun a => linked.1.all (·.name ≠ a.target)) = none := by decide
  have hroom : (match emit library linked.1 linked.2.1 linked.2.2 with
      | .error _ => false
      | .ok (o : ObjectFile) => decide o.HasRoom) = true := by decide +kernel
  split at hroom
  · cases hroom
  rename_i file hemit
  rw [haliases] at houtcome
  obtain ⟨placed, hplaces, houtcome⟩ := houtcome
  split at houtcome
  · rw [hemit] at houtcome
    cases houtcome
  obtain ⟨d, aliasSymbols, undefinedNames, -, -, hwrite, hread⟩ := houtcome
  obtain rfl : file = d.finish := Except.ok.inj (hemit.symm.trans hwrite)
  obtain ⟨o, index, hread, hshown⟩ := hread (Draft.fits_of_hasRoom (of_decide_eq_true hroom))
  exact ⟨placed, aliasSymbols, undefinedNames, d.finish, o, index, hplaces, hemit, hread, hshown⟩

/-- Two blobs of which the second has a relocation 4 GiB from the start of their section. -/
def distant : List Blob := [
  { name := "A", bytes := [0, 0, 0, 0], writable := true },
  { name := "B", bytes := [0, 0, 0, 0], writable := true
    relocations := [{ offset := 4294967292, symbol := "A", kind := .abs32 }] }]

/-- The distance of a relocation that does not fit into a word wraps around. -/
theorem relocation_wraps_distant : ∃ file o, emit library [] distant [] = .ok file ∧
    library.read file = some o ∧ (∃ s ∈ o.symbols, s.name = "B" ∧ s.value = 4) ∧
    ∀ sec ∈ o.sections, ∀ r ∈ sec.relocations, r.offset.toNat ≠ 4 + 4294967292 := by
  have hrun : (match emit library [] distant [] with
      | .error _ => false
      | .ok (o : ObjectFile) => decide (∃ s ∈ o.symbols, s.name = "B" ∧ s.value = 4)) = true := by
    decide +kernel
  split at hrun
  · cases hrun
  · rename_i o hemit
    refine ⟨o, o, hemit, rfl, of_decide_eq_true hrun, fun sec _ r _ => ?_⟩
    have hlt := r.offset.toNat_lt
    omega

end DataImage.Arm
