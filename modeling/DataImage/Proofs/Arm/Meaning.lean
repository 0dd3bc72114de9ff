import DataImage.Proofs.Arm.Emission

/-!
# What names in relocations mean

A relocation has the name of what it refers to. What the name means in an emission can be said in
terms of the functions, blobs and aliases alone: the last alias of the name, else the last blob of
the name, else the last function of the name, and otherwise something that is defined elsewhere
(`Arm.StandsFor`). The relocations of a file are bound to symbols that mark the bytes of what is
meant (`Arm.Shown.binds`).
-/

namespace DataImage

namespace ObjectFile

/-- A symbol of an object marks the bytes of a piece in a section. -/
structure Marks (o : ObjectFile) (p : Arm.Piece) (s : Symbol) : Prop where
  mem : s ∈ o.symbols
  name : s.name = p.name
  type : s.type = p.type
  home : s.home = some p.kind
  size : s.size.toNat = p.bytes.length
  slice : ∃ sec ∈ o.sections, sec.kind = p.kind ∧
    (sec.bytes.drop s.value.toNat).take s.size.toNat = p.bytes

/-- A relocation at an offset of a section is bound to a symbol. -/
def Binds (o : ObjectFile) (kind : SectionKind) (offset : Nat) (s : Symbol) : Prop :=
  ∃ sec ∈ o.sections, sec.kind = kind ∧ ∃ r ∈ sec.relocations, r.offset.toNat = offset ∧
    o.symbols[r.symbol]? = some s

end ObjectFile

namespace Arm

/-- What the name in a relocation stands for, in this order: the last alias of the name, at the last
function that its target names; the last blob of the name; the last function of the name; and
otherwise something that is defined elsewhere. -/
inductive StandsFor (functions : List FunctionBody) (blobs : List Blob) (aliases : List SymbolAlias)
    (o : ObjectFile) (name : String) : Symbol → Prop where
  | aliased {a : SymbolAlias} {f : FunctionBody} {s : Symbol}
      (last : aliases.reverse.find? (·.name = name) = some a)
      (target : functions.reverse.find? (·.name = a.target) = some f)
      (covers : o.Marks { bodyPiece f with name } s) : StandsFor functions blobs aliases o name s
  | blob {b : Blob} {s : Symbol} (noAlias : aliases.reverse.find? (·.name = name) = none)
      (last : blobs.reverse.find? (·.name = name) = some b) (covers : o.Marks (blobPiece b) s) :
      StandsFor functions blobs aliases o name s
  | body {f : FunctionBody} {s : Symbol} (noAlias : aliases.reverse.find? (·.name = name) = none)
      (noBlob : blobs.reverse.find? (·.name = name) = none)
      (last : functions.reverse.find? (·.name = name) = some f)
      (covers : o.Marks (bodyPiece f) s) : StandsFor functions blobs aliases o name s
  | undefined (noAlias : aliases.reverse.find? (·.name = name) = none)
      (noBlob : blobs.reverse.find? (·.name = name) = none)
      (noBody : functions.reverse.find? (·.name = name) = none)
      (mem : (undefinedSymbol name).entry ∈ o.symbols) :
      StandsFor functions blobs aliases o name (undefinedSymbol name).entry

variable {functions : List FunctionBody} {blobs : List Blob} {aliases : List SymbolAlias}
  {placed : List Placed} {aliasSymbols : List (NewSymbol SectionKind)}
  {undefinedNames : List String} {c : Contents} {o : ObjectFile} {index : Nat → Nat}

/-! ## Last definitions -/

/-- The last symbol of a name among the pieces is that of the last blob of the name, else that of
the last function. -/
theorem lastNamed?_placed (hplaced : placed.map Placed.toPiece = pieces functions blobs)
    (name : String) :
    match ((blobs.reverse.find? (·.name = name)).map blobPiece).or
      ((functions.reverse.find? (·.name = name)).map bodyPiece) with
    | none => lastNamed? (placed.map (·.symbol)) name = none
    | some piece => ∃ p ∈ placed, p.toPiece = piece ∧
        lastNamed? (placed.map (·.symbol)) name = some p.symbol := by
  have hlast : lastNamed? (placed.map (·.symbol)) name =
      (placed.reverse.find? (·.name = name)).map (·.symbol) := by
    rw [lastNamed?, ← List.map_reverse, List.find?_map]
    rfl
  have hfind : (placed.reverse.find? (·.name = name)).map Placed.toPiece =
      ((blobs.reverse.find? (·.name = name)).map blobPiece).or
        ((functions.reverse.find? (·.name = name)).map bodyPiece) :=
    find?_placed hplaced (·.name = name)
  rw [hlast, ← hfind]
  cases hp : placed.reverse.find? (·.name = name) with
  | none => rfl
  | some p => exact ⟨p, List.mem_reverse.1 (List.mem_of_find?_eq_some hp), rfl, rfl⟩

/-- The last symbol of a name among those of aliases is that of the last alias of the name. -/
theorem lastNamed?_aliasSymbols (h : List.Forall₂ (fun a t => ∃ p,
      findFunction? placed a.target = some p ∧ t = aliasSymbol a p) aliases aliasSymbols)
    (name : String) :
    match aliases.reverse.find? (·.name = name) with
    | none => lastNamed? aliasSymbols name = none
    | some a => ∃ p, findFunction? placed a.target = some p ∧ aliasSymbol a p ∈ aliasSymbols ∧
        lastNamed? aliasSymbols name = some (aliasSymbol a p) := by
  -- the aliases that follow decide, if one of them has the name
  induction h with
  | nil => rfl
  | @cons a t aliases symbols ht _ ih =>
    obtain ⟨p, hp, rfl⟩ := ht
    have hcons : lastNamed? (aliasSymbol a p :: symbols) name =
        (lastNamed? symbols name).or (lastNamed? [aliasSymbol a p] name) :=
      lastNamed?_append [aliasSymbol a p] symbols name
    rw [List.reverse_cons, List.find?_append, hcons]
    cases hfind : aliases.reverse.find? (·.name = name) with
    | some b =>
      rw [hfind] at ih
      obtain ⟨q, hq, hmem, hlast⟩ := ih
      rw [hlast]
      exact ⟨q, hq, List.mem_cons_of_mem _ hmem, rfl⟩
    | none =>
      rw [hfind] at ih
      dsimp only at ih
      rw [ih]
      by_cases hsame : a.name = name
      · simp [lastNamed?, hsame, aliasSymbol, hp]
      · simp [lastNamed?, hsame, aliasSymbol]

/-! ## Binding -/

section

variable (hshown : Shown placed aliasSymbols undefinedNames o index)

include hshown

/-- An entry at the place of a piece marks the bytes of the piece. -/
theorem Shown.covers {p : Placed} (hp : p ∈ placed) {s : NewSymbol SectionKind}
    (hs : s ∈ allSymbols placed aliasSymbols undefinedNames) (htype : s.type = p.type)
    (hhome : s.home = some p.kind) (hvalue : s.value = p.offset)
    (hsize : s.size = p.bytes.length) :
    o.Marks { p.toPiece with name := s.name } s.entry := by
  obtain ⟨hvalue', hsize'⟩ := hshown.exact s hs
  obtain ⟨sec, hsec, hkind⟩ := (hshown.sections.2 p.kind).2 (.inr ⟨p, hp, rfl⟩)
  exact
    { mem := hshown.symbols.mem_iff.2 (List.mem_map_of_mem hs)
      name := rfl
      type := htype
      home := hhome
      size := hsize'.trans hsize
      slice := ⟨sec, hsec, hkind, by
        rw [hvalue', hsize', hvalue, hsize]
        exact (hshown.slice sec hsec p hp hkind.symm).2⟩ }

/-- The entry of a piece marks its bytes. -/
theorem Shown.covers_symbol {p : Placed} (hp : p ∈ placed) :
    o.Marks p.toPiece p.symbol.entry :=
  hshown.covers hp (s := p.symbol)
    (List.mem_append_left _ (List.mem_append_left _ (List.mem_map_of_mem hp))) rfl rfl rfl rfl

/-- The last symbol of a name that is used is what the name stands for. -/
theorem Shown.means (hplaces : Places functions blobs placed)
    (hemitted : Emitted aliases placed aliasSymbols undefinedNames c) {u : Placed × Relocation}
    (hu : u ∈ usesOf placed) :
    StandsFor functions blobs aliases o u.2.symbol
      ((lastNamed? (placed.map (·.symbol) ++ aliasSymbols)
      u.2.symbol).getD (undefinedSymbol u.2.symbol)).entry := by
  have halias := lastNamed?_aliasSymbols hemitted.aliased u.2.symbol
  have hpieces := lastNamed?_placed hplaces.placed_eq u.2.symbol
  have hlast := hemitted.lastNamed?_eq hu
  rw [lastNamed?_append] at hlast ⊢
  -- aliases come after pieces, and blobs after functions
  cases hfindAlias : aliases.reverse.find? (·.name = u.2.symbol) with
  | some a =>
    rw [hfindAlias] at halias
    obtain ⟨p, hp, hmem, hsymbol⟩ := halias
    rw [hsymbol, Option.some_or, Option.getD_some]
    have hname : a.name = u.2.symbol := by simpa using List.find?_some hfindAlias
    have hpiece := findFunction?_placed hplaces.placed_eq a.target
    rw [hp, Option.map_some, eq_comm, Option.map_eq_some_iff] at hpiece
    obtain ⟨f, hf, hpiece⟩ := hpiece
    refine .aliased hfindAlias hf ?_
    rw [hpiece, ← hname]
    obtain ⟨hmem', htype, -⟩ := mem_of_findFunction? hp
    have hkind : p.kind = .text := (congrArg Piece.kind hpiece).symm
    refine hshown.covers hmem' (s := aliasSymbol a p) ?_ htype.symm ?_ rfl rfl
    · exact List.mem_append_left _ (List.mem_append_right _ hmem)
    · rw [hkind]
      rfl
  | none =>
    rw [hfindAlias] at halias
    dsimp only at halias
    rw [halias, Option.none_or]
    cases hfindBlob : blobs.reverse.find? (·.name = u.2.symbol) with
    | some b =>
      rw [hfindBlob] at hpieces
      obtain ⟨p, hp, hpiece, hsymbol⟩ := hpieces
      rw [hsymbol, Option.getD_some]
      refine .blob hfindAlias hfindBlob ?_
      rw [← hpiece]
      exact hshown.covers_symbol hp
    | none =>
      rw [hfindBlob] at hpieces
      cases hfindBody : functions.reverse.find? (·.name = u.2.symbol) with
      | some f =>
        rw [hfindBody] at hpieces
        obtain ⟨p, hp, hpiece, hsymbol⟩ := hpieces
        rw [hsymbol, Option.getD_some]
        refine .body hfindAlias hfindBlob hfindBody ?_
        rw [← hpiece]
        exact hshown.covers_symbol hp
      | none =>
        rw [hfindBody] at hpieces
        dsimp only [Option.map_none, Option.or_none] at hpieces
        rw [hpieces, halias] at hlast
        rw [hpieces, Option.getD_none]
        refine .undefined hfindAlias hfindBlob hfindBody ?_
        exact hshown.symbols.mem_iff.2 (List.mem_map_of_mem (mem_of_lastNamed? hlast).1)

/-- **Relocations are bound to what their names mean.** Every piece has a symbol that marks its
bytes, and each relocation within them is one of the section, at the same distance from the symbol,
and bound to what its name stands for. -/
theorem Shown.binds (hplaces : Places functions blobs placed)
    (hemitted : Emitted aliases placed aliasSymbols undefinedNames c) {piece : Piece}
    (hpiece : piece ∈ pieces functions blobs) :
    ∃ s, o.Marks piece s ∧ ∀ r ∈ piece.relocations, r.offset < piece.bytes.length → ∃ t,
      o.Binds piece.kind (s.value.toNat + r.offset) t ∧
        StandsFor functions blobs aliases o r.symbol t := by
  rw [pieces, ← hplaces.placed_eq] at hpiece
  obtain ⟨p, hp, rfl⟩ := List.mem_map.1 hpiece
  refine ⟨p.symbol.entry, hshown.covers_symbol hp, fun r hr hlt => ?_⟩
  have hu : (p, r) ∈ usesOf placed := mem_usesOf.2 ⟨hp, hr⟩
  refine ⟨_, ?_, hshown.means hplaces hemitted hu⟩
  obtain ⟨sec, hsec, hkind⟩ := (hshown.sections.2 p.kind).2 (.inr ⟨p, hp, rfl⟩)
  have hused : (p, r) ∈ (usesOf placed).filter (·.1.kind = sec.kind) :=
    List.mem_filter.2 ⟨hu, decide_eq_true hkind.symm⟩
  obtain ⟨r', hr', hoffset, -, hget⟩ :=
    Partial.exists_of_forall₂_right (hshown.relocations sec hsec).flip hused
  have hvalue : p.symbol.entry.value.toNat = p.offset :=
    (hshown.exact p.symbol
      (List.mem_append_left _ (List.mem_append_left _ (List.mem_map_of_mem hp)))).1
  refine ⟨sec, hsec, hkind, r', hr', ?_, hget⟩
  have hfits : p.offset + r.offset < UInt32.size := by
    have hend := (hshown.slice sec hsec p hp hkind.symm).1
    have hroom := hshown.room sec hsec
    omega
  rw [hoffset, hvalue]
  exact Nat.mod_eq_of_lt hfits

end

end Arm

end DataImage
