import DataImage.Proofs.Arm.Placement
import DataImage.Proofs.Partial
import Mathlib.Data.List.Induction

/-!
# What relocations are bound to

An emission has two passes. The first one defines symbols: those of the functions, of the blobs and
of the aliases, in this order. `Arm.Defined` says what an object holds on the way, and what is known
of its symbols; the symbol that a name stands for is always the last one of the name. The second one
adds the relocations, and undefined symbols for the names that nothing has. `Arm.Relocated` says
what the object holds then. Each pass has one lemma for a step, and from it one for the whole pass
(`Arm.exists_placed`, `Arm.aliases_outcome`, `Arm.uses_outcome`).
-/

namespace DataImage.Arm

/-! ## Last symbols -/

/-- The last symbol of a name. -/
def lastNamed? (symbols : List (NewSymbol SectionKind)) (name : String) :
    Option (NewSymbol SectionKind) :=
  symbols.reverse.find? (·.name = name)

/-- The position of the last symbol of a name. -/
def lastPosition? (symbols : List (NewSymbol SectionKind)) (name : String) : Option Nat :=
  (symbols.reverse.findIdx? (·.name = name)).map (symbols.length - 1 - ·)

section

variable {symbols : List (NewSymbol SectionKind)} {name : String}

theorem lastNamed?_append_singleton (s : NewSymbol SectionKind) :
    lastNamed? (symbols ++ [s]) name =
      if s.name = name then some s else lastNamed? symbols name := by
  rw [lastNamed?, List.reverse_append, List.reverse_singleton, List.singleton_append,
    List.find?_cons]
  by_cases h : s.name = name <;> simp [h, lastNamed?]

theorem lastPosition?_append_singleton (s : NewSymbol SectionKind) :
    lastPosition? (symbols ++ [s]) name =
      if s.name = name then some symbols.length else lastPosition? symbols name := by
  rw [lastPosition?, List.reverse_append, List.reverse_singleton, List.singleton_append,
    List.findIdx?_cons]
  by_cases h : s.name = name
  · simp [h]
  · simp only [h, decide_false, Bool.false_eq_true, if_false, Option.map_map, lastPosition?,
      List.length_append, List.length_singleton]
    congr 1
    funext i
    dsimp only [Function.comp]
    omega

theorem lastNamed?_eq_none_iff : lastNamed? symbols name = none ↔ ∀ s ∈ symbols, s.name ≠ name := by
  simp [lastNamed?]

theorem lastPosition?_eq_none_iff :
    lastPosition? symbols name = none ↔ ∀ s ∈ symbols, s.name ≠ name := by
  simp [lastPosition?]

/-- The last symbol of a name stands at the last position of the name. -/
theorem getElem?_lastPosition? {i : Nat} (h : lastPosition? symbols name = some i) :
    symbols[i]? = lastNamed? symbols name ∧ i < symbols.length := by
  induction symbols using List.reverseRecOn with
  | nil => cases h
  | append_singleton symbols s ih =>
    rw [lastPosition?_append_singleton] at h
    rw [lastNamed?_append_singleton, List.length_append]
    split at h
    · obtain rfl := Option.some.inj h
      rw [if_pos ‹_›, List.getElem?_append_right (Nat.le_refl _), Nat.sub_self]
      exact ⟨rfl, Nat.lt_succ_self _⟩
    · obtain ⟨hget, hlt⟩ := ih h
      rw [if_neg ‹_›, List.getElem?_append_left hlt]
      exact ⟨hget, Nat.lt_succ_of_lt hlt⟩

/-- A symbol of another name changes nothing. -/
theorem lastPosition?_append_of_ne {s : NewSymbol SectionKind} {i : Nat}
    (hs : lastPosition? symbols s.name = none) (h : lastPosition? symbols name = some i) :
    lastPosition? (symbols ++ [s]) name = some i := by
  rw [lastPosition?_append_singleton, if_neg, h]
  rintro rfl
  rw [hs] at h
  cases h

theorem lastNamed?_append (symbols more : List (NewSymbol SectionKind)) (name : String) :
    lastNamed? (symbols ++ more) name = (lastNamed? more name).or (lastNamed? symbols name) := by
  rw [lastNamed?, List.reverse_append, List.find?_append]
  rfl

theorem mem_of_lastNamed? {s : NewSymbol SectionKind} (h : lastNamed? symbols name = some s) :
    s ∈ symbols ∧ s.name = name :=
  ⟨List.mem_reverse.1 (List.mem_of_find?_eq_some h), by simpa using List.find?_some h⟩

end

/-- The last function of a name. -/
def findFunction? (placed : List Placed) (name : String) : Option Placed :=
  placed.reverse.find? fun p => p.type = .func && p.name = name

theorem findFunction?_append_singleton (placed : List Placed) (p : Placed) (name : String) :
    findFunction? (placed ++ [p]) name =
      if p.type = .func ∧ p.name = name then some p else findFunction? placed name := by
  rw [findFunction?, List.reverse_append, List.reverse_singleton, List.singleton_append,
    List.find?_cons]
  by_cases h : p.type = .func ∧ p.name = name
  · simp [h]
  · rw [if_neg h]
    split
    · rename_i heq
      rw [Bool.and_eq_true, decide_eq_true_eq, decide_eq_true_eq] at heq
      exact absurd heq h
    · rfl

/-! ## The first pass -/

variable {lib : Library} {v : lib.View} {s : Progress lib} {placed : List Placed}
  {aliasSymbols : List (NewSymbol SectionKind)}

/-- Whether names stand for the last symbols that have them. -/
def NamesLast (v : lib.View) (s : Progress lib) : Prop :=
  ∀ name, (s.names.lookup name).map v.position =
    lastPosition? (v.contents s.draft).symbols name

/-- What belongs to a relocation of a placed piece. -/
def UseOf (v : lib.View) (use : Use lib) (u : Placed × Relocation) : Prop :=
  v.kind use.home = u.1.kind ∧ use.base = u.1.offset ∧ use.relocation = u.2

/-- Whether an object has the symbols of placed pieces and of aliases and no relocations, and what
is known of it is right. -/
structure Defined (v : lib.View) (s : Progress lib) (placed : List Placed)
    (aliasSymbols : List (NewSymbol SectionKind)) : Prop where
  holds : HoldsPieces (v.contents s.draft) placed
  symbols : (v.contents s.draft).symbols = placed.map (·.symbol) ++ aliasSymbols
  relocations : (v.contents s.draft).relocations = fun _ => []
  names : NamesLast v s
  uses : List.Forall₂ (UseOf v) s.uses (usesOf placed)

/-- Whether place and size of each function are known by its name. -/
def FunctionsKnown (s : Progress lib) (placed : List Placed) : Prop :=
  ∀ name, s.functions.lookup name =
    (findFunction? placed name).map fun p => (p.offset, p.bytes.length)

variable (hv : v.Lawful)

include hv

/-- A new symbol comes last. -/
theorem define_spec (hnames : NamesLast v s) (symbol : NewSymbol lib.SectionId) :
    v.position (s.define symbol).1 = (v.contents s.draft).symbols.length ∧
      v.contents (s.define symbol).2.draft = (v.contents s.draft).addSymbol (v.symbol symbol) ∧
      NamesLast v (s.define symbol).2 := by
  obtain ⟨hposition, hcontents⟩ := hv.addSymbol s.draft symbol
  refine ⟨hposition, hcontents, fun name => ?_⟩
  have hlookup : (s.define symbol).2.names.lookup name = if name = symbol.name
      then some (s.define symbol).1 else s.names.lookup name := Keyed.lookup_put _ _ _ _
  have hsymbols : (v.contents (s.define symbol).2.draft).symbols =
      (v.contents s.draft).symbols ++ [v.symbol symbol] := congrArg Contents.symbols hcontents
  have hname : (v.symbol symbol).name = symbol.name := rfl
  rw [hlookup, hsymbols, lastPosition?_append_singleton, hname]
  by_cases h : name = symbol.name
  · rw [if_pos h, if_pos h.symm]
    exact congrArg some hposition
  · rw [if_neg h, if_neg (Ne.symm h), hnames name]

/-- **A piece is placed** into a section of its kind. -/
theorem Defined.place (h : Defined v s placed []) (piece : Piece) {d : lib.Draft}
    {home : lib.SectionId} (hkind : v.kind home = piece.kind)
    (hd : v.contents d = (v.contents s.draft).use piece.kind) :
    ∃ p : Placed, p.toPiece = piece ∧
      p.offset = ({ s with draft := d }.place home piece.type piece.name piece.bytes
        piece.relocations).1 ∧
      Defined v ({ s with draft := d }.place home piece.type piece.name piece.bytes
        piece.relocations).2 (placed ++ [p]) [] := by
  have hopen : (v.contents d).sections (v.kind home) =
      some (((v.contents s.draft).sections piece.kind).getD []) := by
    rw [hd, hkind]
    exact if_pos rfl
  obtain ⟨haligned, hle, hlt, hcontents⟩ := hv.append d home piece.bytes 2 _ hopen
  let p : Placed := { piece with offset := (lib.append d home piece.bytes (2 ^ 2)).1 }
  let s₁ : Progress lib := { s with draft := (lib.append d home piece.bytes (2 ^ 2)).2 }
  have hcontents₁ : v.contents s₁.draft = (v.contents s.draft).setBytes piece.kind
      (appended (((v.contents s.draft).sections piece.kind).getD []) p.offset piece.bytes) := by
    refine hcontents.trans ?_
    rw [hd, hkind, Contents.use, Contents.setBytes_setBytes]
    rfl
  have hnames₁ : NamesLast v s₁ := fun name => by
    rw [hcontents₁]
    exact h.names name
  let symbol : NewSymbol lib.SectionId :=
    { name := piece.name, value := p.offset, size := piece.bytes.length, type := piece.type
      scope := scopeOf piece.name, home := some home }
  have hsymbol : v.symbol symbol = p.symbol := by
    rw [Library.View.symbol, Option.map_some, hkind]
    rfl
  obtain ⟨-, hcontents₂, hnames₂⟩ := define_spec hv hnames₁ symbol
  rw [hcontents₁, hsymbol] at hcontents₂
  refine ⟨p, rfl, rfl, ?_⟩
  refine
    { holds := (h.holds.append p haligned hle hlt).congr
        ((congrArg Contents.sections hcontents₂).trans rfl)
      symbols := (congrArg Contents.symbols hcontents₂).trans ?_
      relocations := (congrArg Contents.relocations hcontents₂).trans h.relocations
      names := hnames₂
      uses := ?_ }
  · show (v.contents s.draft).symbols ++ [p.symbol] = _
    rw [h.symbols, List.append_nil, List.append_nil, List.map_append, List.map_singleton]
  · rw [usesOf_append]
    refine List.rel_append h.uses ?_
    rw [List.forall₂_map_left_iff, List.forall₂_map_right_iff, List.forall₂_same]
    exact fun r _ => ⟨hkind, rfl, rfl⟩

/-- Functions are placed into the section for code. -/
theorem Defined.addFunction (h : Defined v s placed []) (hknown : FunctionsKnown s placed)
    {text : lib.SectionId} (htext : v.kind text = .text) (f : FunctionBody) :
    ∃ p : Placed, p.toPiece = bodyPiece f ∧
      Defined v (s.addFunction text f) (placed ++ [p]) [] ∧
      FunctionsKnown (s.addFunction text f) (placed ++ [p]) := by
  have hused : v.contents s.draft = (v.contents s.draft).use .text :=
    (Contents.use_eq_self ((h.holds.used .text).2 (.inl rfl))).symm
  obtain ⟨p, hpiece, hoffset, hdefined⟩ := h.place hv (bodyPiece f) (d := s.draft) htext hused
  refine ⟨p, hpiece, ⟨hdefined.holds, hdefined.symbols, hdefined.relocations, hdefined.names,
    hdefined.uses⟩, fun name => ?_⟩
  have hlookup : (s.addFunction text f).functions.lookup name =
      if name = f.name then some (p.offset, f.code.length) else s.functions.lookup name := by
    rw [hoffset]
    exact Keyed.lookup_put _ _ _ _
  have htype : p.type = .func := congrArg Piece.type hpiece
  have hname : p.name = f.name := congrArg Piece.name hpiece
  have hbytes : p.bytes = f.code := congrArg Piece.bytes hpiece
  rw [hlookup, findFunction?_append_singleton, htype, hname]
  by_cases hf : name = f.name
  · rw [if_pos hf, if_pos ⟨rfl, hf.symm⟩, Option.map_some, hbytes]
  · rw [if_neg hf, if_neg fun h => hf h.2.symm]
    exact hknown name

/-- Blobs are placed into the sections of their kinds. -/
theorem Defined.addBlob (h : Defined v s placed []) (hknown : FunctionsKnown s placed) (b : Blob) :
    ∃ p : Placed, p.toPiece = blobPiece b ∧ Defined v (s.addBlob b) (placed ++ [p]) [] ∧
      FunctionsKnown (s.addBlob b) (placed ++ [p]) := by
  obtain ⟨hkind, hcontents⟩ := hv.sectionOf s.draft (sectionKind b)
  obtain ⟨p, hpiece, -, hdefined⟩ := h.place hv (blobPiece b) hkind hcontents
  have htype : p.type = .object := congrArg Piece.type hpiece
  refine ⟨p, hpiece, hdefined, fun name => ?_⟩
  rw [findFunction?_append_singleton, htype, if_neg fun h => nomatch h.1]
  exact hknown name

/-- **All functions and then all blobs are placed.** -/
theorem exists_placed {text : lib.SectionId} (htext : v.kind text = .text)
    (functions : List FunctionBody) (blobs : List Blob) (h : Defined v s [] [])
    (hknown : FunctionsKnown s []) :
    ∃ placed, placed.map Placed.toPiece = pieces functions blobs ∧
      Defined v (blobs.foldl Progress.addBlob (functions.foldl (Progress.addFunction text) s))
        placed [] ∧
      FunctionsKnown (blobs.foldl Progress.addBlob
        (functions.foldl (Progress.addFunction text) s)) placed := by
  obtain ⟨placed, hpieces, hdefined, hknown⟩ : ∃ placed,
      placed.map Placed.toPiece = functions.map bodyPiece ∧
      Defined v (functions.foldl (Progress.addFunction text) s) placed [] ∧
      FunctionsKnown (functions.foldl (Progress.addFunction text) s) placed := by
    induction functions using List.reverseRecOn with
    | nil => exact ⟨[], rfl, h, hknown⟩
    | append_singleton functions f ih =>
      obtain ⟨placed, hpieces, hdefined, hknown⟩ := ih
      obtain ⟨p, hp, hdefined', hknown'⟩ := hdefined.addFunction hv hknown htext f
      rw [List.foldl_append]
      refine ⟨placed ++ [p], ?_, hdefined', hknown'⟩
      rw [List.map_append, hpieces, List.map_append, List.map_singleton, hp, List.map_singleton]
  induction blobs using List.reverseRecOn with
  | nil => exact ⟨placed, hpieces.trans (List.append_nil _).symm, hdefined, hknown⟩
  | append_singleton blobs b ih =>
    obtain ⟨placed', hpieces', hdefined', hknown'⟩ := ih
    obtain ⟨p, hp, hdefined'', hknown''⟩ := hdefined'.addBlob hv hknown' b
    rw [List.foldl_append]
    refine ⟨placed' ++ [p], ?_, hdefined'', hknown''⟩
    rw [List.map_append, hpieces', pieces, pieces, List.map_append, List.map_singleton, hp,
      List.map_singleton, List.append_assoc]

/-- The symbol of an alias, at the place of a function. -/
def aliasSymbol (a : SymbolAlias) (p : Placed) : NewSymbol SectionKind where
  name := a.name
  value := p.offset
  size := p.bytes.length
  type := .func
  scope := .linkage
  home := some .text

/-- **Aliases have the places of their functions**, up to the first one that has none. -/
theorem aliases_outcome {text : lib.SectionId} (htext : v.kind text = .text)
    (h : Defined v s placed aliasSymbols) (hknown : FunctionsKnown s placed)
    (aliases : List SymbolAlias) :
    match aliases.find? fun a => (findFunction? placed a.target).isNone with
    | some a => aliases.foldlM (Progress.addAlias text) s =
        .error (.undefinedAliasTarget a.name a.target)
    | none => ∃ s' more, aliases.foldlM (Progress.addAlias text) s = .ok s' ∧
        Defined v s' placed (aliasSymbols ++ more) ∧
        List.Forall₂ (fun a t => ∃ p, findFunction? placed a.target = some p ∧
          t = aliasSymbol a p) aliases more := by
  induction aliases generalizing s aliasSymbols with
  | nil => exact ⟨s, [], rfl, by rwa [List.append_nil], .nil⟩
  | cons a aliases ih =>
    rw [List.find?_cons, List.foldlM_cons, Progress.addAlias, hknown]
    cases hfind : findFunction? placed a.target with
    | none => rfl
    | some p =>
      let symbol : NewSymbol lib.SectionId :=
        { name := a.name, value := p.offset, size := p.bytes.length, type := .func
          scope := .linkage, home := some text }
      have hsymbol : v.symbol symbol = aliasSymbol a p := by
        rw [Library.View.symbol, Option.map_some, htext]
        rfl
      obtain ⟨-, hcontents, hnames⟩ := define_spec hv h.names symbol
      rw [hsymbol] at hcontents
      have hdefined : Defined v (s.define symbol).2 placed (aliasSymbols ++ [aliasSymbol a p]) :=
        { holds := h.holds.congr ((congrArg Contents.sections hcontents).trans rfl)
          symbols := (congrArg Contents.symbols hcontents).trans (by
            show (v.contents s.draft).symbols ++ [aliasSymbol a p] = _
            rw [h.symbols, List.append_assoc])
          relocations := (congrArg Contents.relocations hcontents).trans h.relocations
          names := hnames
          uses := h.uses }
      have hrest := ih hdefined hknown
      dsimp only [Option.isNone_some]
      split at hrest
      · rename_i b hb
        rw [hb]
        exact hrest
      · rename_i hnone
        rw [hnone]
        obtain ⟨s', more, hrun, hdefined', hmore⟩ := hrest
        exact ⟨s', aliasSymbol a p :: more, hrun, by simpa using hdefined',
          .cons ⟨p, hfind, rfl⟩ hmore⟩

omit hv

/-! ## The second pass -/

/-- The error that a relocation of a placed piece is, if it is one: its distance from the start of
the section is no word of 64 bits, or it is not one of 32 bits. -/
def useError? (u : Placed × Relocation) : Option EmissionError :=
  if UInt64.size ≤ u.1.offset + u.2.offset then some .overflow
  else match u.2.kind with
    | .abs64 => some (.unsupportedRelocation u.2.symbol .abs64)
    | .abs32 => none

/-- Whether a relocation of an object is at the place of one of a piece, and bound to the last
symbol of its name. -/
def Relocates (symbols : List (NewSymbol SectionKind)) (u : Placed × Relocation)
    (r : NewRelocation Nat) : Prop :=
  r.offset = u.1.offset + u.2.offset ∧ lastPosition? symbols u.2.symbol = some r.symbol

/-- Whether an object with the symbols of placed pieces and of aliases has undefined symbols for the
names among `used` that nothing has, and the relocations of `done`. -/
structure Relocated (v : lib.View) (s : Progress lib) (placed : List Placed)
    (aliasSymbols : List (NewSymbol SectionKind)) (undefinedNames used : List String)
    (done : List (Placed × Relocation)) : Prop where
  holds : HoldsPieces (v.contents s.draft) placed
  symbols : (v.contents s.draft).symbols =
    placed.map (·.symbol) ++ aliasSymbols ++ undefinedNames.map undefinedSymbol
  names : NamesLast v s
  nodup : undefinedNames.Nodup
  mem_iff : ∀ name, name ∈ undefinedNames ↔
    (∀ t ∈ placed.map (·.symbol) ++ aliasSymbols, t.name ≠ name) ∧ name ∈ used
  relocations : ∀ kind, List.Forall₂ (Relocates (v.contents s.draft).symbols)
    (done.filter (·.1.kind = kind)) ((v.contents s.draft).relocations kind)

variable {undefinedNames used : List String} {done : List (Placed × Relocation)}

/-- After the first pass nothing is used yet. -/
theorem Defined.relocated (h : Defined v s placed aliasSymbols) :
    Relocated v s placed aliasSymbols [] [] [] where
  holds := h.holds
  symbols := h.symbols.trans (List.append_nil _).symm
  names := h.names
  nodup := .nil
  mem_iff := by simp
  relocations := fun kind => by
    rw [h.relocations]
    exact .nil

/-- A name that has a symbol is used: it is a defined one, or was used before. -/
theorem Relocated.useKnown (h : Relocated v s placed aliasSymbols undefinedNames used done)
    {name : String} {i : Nat}
    (hlast : lastPosition? (v.contents s.draft).symbols name = some i) :
    Relocated v s placed aliasSymbols undefinedNames (used ++ [name]) done := by
  refine { h with mem_iff := fun n => ?_ }
  rw [h.mem_iff, List.mem_append, List.mem_singleton]
  refine and_congr_right fun hfree => ⟨.inl, ?_⟩
  rintro (hn | rfl)
  · exact hn
  obtain ⟨t, ht, hname⟩ : ∃ t ∈ (v.contents s.draft).symbols, t.name = n := by
    by_contra hnone
    rw [lastPosition?_eq_none_iff.2 fun t ht hname => hnone ⟨t, ht, hname⟩] at hlast
    cases hlast
  rw [h.symbols] at ht
  rcases List.mem_append.1 ht with ht | ht
  · exact absurd hname (hfree t ht)
  · obtain ⟨other, hother, rfl⟩ := List.mem_map.1 ht
    obtain rfl : other = n := hname
    exact ((h.mem_iff other).1 hother).2

/-- A relocation of a placed piece comes last in the section of the piece. -/
theorem Relocated.addRelocation
    (h : Relocated v s placed aliasSymbols undefinedNames used done) {u : Placed × Relocation}
    {i : Nat} (hlast : lastPosition? (v.contents s.draft).symbols u.2.symbol = some i)
    {d : lib.Draft} (hcontents : v.contents d = (v.contents s.draft).addRelocation u.1.kind
      ⟨u.1.offset + u.2.offset, i⟩) :
    Relocated v { s with draft := d } placed aliasSymbols undefinedNames used (done ++ [u]) := by
  have hsymbols : (v.contents d).symbols = (v.contents s.draft).symbols :=
    (congrArg Contents.symbols hcontents).trans rfl
  refine
    { holds := h.holds.congr ((congrArg Contents.sections hcontents).trans rfl)
      symbols := hsymbols.trans h.symbols
      names := fun name => ?_
      nodup := h.nodup
      mem_iff := h.mem_iff
      relocations := fun kind => ?_ }
  · dsimp only
    rw [hsymbols]
    exact h.names name
  · have hrelocations : (v.contents d).relocations kind = if kind = u.1.kind
        then (v.contents s.draft).relocations kind ++ [⟨u.1.offset + u.2.offset, i⟩]
        else (v.contents s.draft).relocations kind :=
      congrArg (Contents.relocations · kind) hcontents
    dsimp only
    rw [hsymbols, hrelocations, List.filter_append]
    by_cases hk : kind = u.1.kind
    · have hfilter : [u].filter (·.1.kind = kind) = [u] :=
        List.filter_cons_of_pos (decide_eq_true hk.symm)
      rw [if_pos hk, hfilter]
      exact List.rel_append (h.relocations kind) (.cons ⟨rfl, hlast⟩ .nil)
    · have hfilter : [u].filter (·.1.kind = kind) = [] :=
        List.filter_cons_of_neg (by simpa using Ne.symm hk)
      rw [if_neg hk, hfilter, List.append_nil]
      exact h.relocations kind

include hv

/-- A name that has no symbol is used: it has an undefined one from now on. -/
theorem Relocated.useNew (h : Relocated v s placed aliasSymbols undefinedNames used done)
    {name : String} (hlast : lastPosition? (v.contents s.draft).symbols name = none) :
    Relocated v (s.define (undefinedSymbol name)).2 placed aliasSymbols (undefinedNames ++ [name])
        (used ++ [name]) done ∧
      lastPosition? (v.contents (s.define (undefinedSymbol name)).2.draft).symbols name =
        some (v.position (s.define (undefinedSymbol name)).1) := by
  obtain ⟨hposition, hcontents, hnames⟩ := define_spec hv h.names (undefinedSymbol name)
  have hsymbols : (v.contents (s.define (undefinedSymbol name)).2.draft).symbols =
      (v.contents s.draft).symbols ++ [undefinedSymbol name] :=
    congrArg Contents.symbols hcontents
  have hfree : ∀ t ∈ (v.contents s.draft).symbols, t.name ≠ name :=
    lastPosition?_eq_none_iff.1 hlast
  rw [h.symbols] at hfree
  have hnew : name ∉ undefinedNames := fun hmem =>
    hfree _ (List.mem_append_right _ (List.mem_map_of_mem hmem)) rfl
  refine ⟨
    { holds := h.holds.congr ((congrArg Contents.sections hcontents).trans rfl)
      symbols := hsymbols.trans ?_
      names := hnames
      nodup := List.nodup_append.2 ⟨h.nodup, List.pairwise_singleton _ _, ?_⟩
      mem_iff := fun n => ?_
      relocations := fun kind => ?_ }, ?_⟩
  case refine_1 => rw [h.symbols, List.map_append, List.append_assoc, List.map_singleton]
  case refine_2 =>
    rintro a ha b hb rfl
    exact hnew (List.mem_singleton.1 hb ▸ ha)
  case refine_3 =>
    rw [List.mem_append, List.mem_singleton, h.mem_iff, List.mem_append, List.mem_singleton,
      and_or_left]
    refine or_congr_right ⟨?_, And.right⟩
    rintro rfl
    exact ⟨fun t ht => hfree t (List.mem_append_left _ ht), rfl⟩
  case refine_4 =>
    rw [hsymbols, congrArg Contents.relocations hcontents]
    refine (h.relocations kind).imp fun u r hr => ⟨hr.1, ?_⟩
    exact lastPosition?_append_of_ne hlast hr.2
  case refine_5 =>
    rw [hsymbols, lastPosition?_append_singleton, hposition]
    exact if_pos rfl

/-- **A name is used**: the last symbol of the name is there from now on. -/
theorem Relocated.symbolOf
    (h : Relocated v s placed aliasSymbols undefinedNames used done) (name : String) :
    ∃ undefinedNames', Relocated v (s.symbolOf name).2 placed aliasSymbols undefinedNames'
        (used ++ [name]) done ∧
      lastPosition? (v.contents (s.symbolOf name).2.draft).symbols name =
        some (v.position (s.symbolOf name).1) := by
  have hlast := (h.names name).symm
  unfold Progress.symbolOf
  cases hlookup : s.names.lookup name with
  | some id =>
    rw [hlookup, Option.map_some] at hlast
    exact ⟨undefinedNames, h.useKnown hlast, hlast⟩
  | none =>
    rw [hlookup, Option.map_none] at hlast
    exact ⟨undefinedNames ++ [name], h.useNew hv hlast⟩

/-- **A relocation is added**, or it is an error. -/
theorem Relocated.addUse (h : Relocated v s placed aliasSymbols undefinedNames used done)
    {use : Use lib} {u : Placed × Relocation} (huse : UseOf v use u) (hu : u.1 ∈ placed) :
    match useError? u with
    | some e => s.addUse use = .error e
    | none => ∃ s' undefinedNames', s.addUse use = .ok s' ∧
        Relocated v s' placed aliasSymbols undefinedNames' (used ++ [u.2.symbol])
          (done ++ [u]) := by
  obtain ⟨home, base, relocation⟩ := use
  obtain ⟨hkind, rfl, rfl⟩ := huse
  obtain ⟨undefinedNames', hsymbol, hlast⟩ := h.symbolOf hv u.2.symbol
  unfold useError? Progress.addUse
  dsimp only
  by_cases hroom : UInt64.size ≤ u.1.offset + u.2.offset
  · rw [if_pos hroom, if_pos hroom]
  rw [if_neg hroom, if_neg hroom]
  cases u.2.kind with
  | abs64 => rfl
  | abs32 =>
    have hopen : ((v.contents (s.symbolOf u.2.symbol).2.draft).sections (v.kind home)).isSome =
        true := (hsymbol.holds.used _).2 (.inr ⟨u.1, hu, hkind.symm⟩)
    have hthere : v.position (s.symbolOf u.2.symbol).1 <
        (v.contents (s.symbolOf u.2.symbol).2.draft).symbols.length :=
      (getElem?_lastPosition? hlast).2
    obtain ⟨d, hadd, hcontents⟩ := hv.addRelocation _ home
      ⟨u.1.offset + u.2.offset, (s.symbolOf u.2.symbol).1⟩ hopen hthere
    rw [hkind] at hcontents
    rw [hadd]
    exact ⟨_, undefinedNames', rfl, hsymbol.addRelocation hlast hcontents⟩

/-- **All relocations are added**, up to the first that is an error. -/
theorem uses_outcome (h : Relocated v s placed aliasSymbols undefinedNames used done)
    {uses : List (Use lib)} {us : List (Placed × Relocation)}
    (huses : List.Forall₂ (UseOf v) uses us) (hus : ∀ u ∈ us, u.1 ∈ placed) :
    match us.findSome? useError? with
    | some e => uses.foldlM Progress.addUse s = .error e
    | none => ∃ s' undefinedNames', uses.foldlM Progress.addUse s = .ok s' ∧
        Relocated v s' placed aliasSymbols undefinedNames' (used ++ us.map (·.2.symbol))
          (done ++ us) := by
  induction huses generalizing s undefinedNames used done with
  | nil => exact ⟨s, undefinedNames, rfl, by simpa using h⟩
  | @cons use u uses us huse _ ih =>
    have hstep := h.addUse hv huse (hus u List.mem_cons_self)
    rw [List.findSome?_cons, List.foldlM_cons]
    cases herror : useError? u with
    | some e =>
      rw [herror] at hstep
      dsimp only at hstep
      rw [hstep]
      rfl
    | none =>
      rw [herror] at hstep
      obtain ⟨s', undefinedNames', hadd, hnext⟩ := hstep
      have hrest := ih hnext fun u hu => hus u (List.mem_cons_of_mem _ hu)
      simp only [List.append_assoc, List.singleton_append] at hrest
      rw [hadd, List.map_cons]
      exact hrest

end DataImage.Arm
