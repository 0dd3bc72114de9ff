import DataImage.Arm.Writer
import DataImage.Proofs.Object.Library
import DataImage.Proofs.Partial

/-!
# The writer is a lawful library

What a draft holds can be read off it (`Arm.Draft.contents`), and each operation of `Arm.library`
does to this what the laws say (`Arm.lawful`). The symbol table has local symbols first, so a symbol
that was added at some position has another one in the table; `Arm.Draft.indexes_finish` says that
no other symbol has it.
-/

namespace DataImage.Arm

/-! ## The symbol table -/

section

variable {α : Type} {p : α → Bool} {l : List α} {i j : Nat} {a : α}

/-- What satisfies a condition keeps its place among what satisfies it. -/
theorem getElem?_filter_countP (ha : l[i]? = some a) (hp : p a = true) :
    (l.filter p)[(l.take i).countP p]? = some a := by
  obtain ⟨hi, rfl⟩ := List.getElem?_eq_some_iff.1 ha
  have hsplit : l.filter p = (l.take i).filter p ++ (l.drop i).filter p := by
    rw [← List.filter_append, List.take_append_drop]
  rw [hsplit, List.countP_eq_length_filter, List.getElem?_append_right (Nat.le_refl _),
    Nat.sub_self, List.drop_eq_getElem_cons hi, List.filter_cons_of_pos hp]
  rfl

/-- It has a place that what comes later does not have. -/
theorem countP_take_lt (ha : l[i]? = some a) (hp : p a = true) (hij : i < j) :
    (l.take i).countP p < (l.take j).countP p := by
  calc (l.take i).countP p < (l.take (i + 1)).countP p := by
        rw [List.take_add_one, ha, List.countP_append]
        simp [hp]
    _ ≤ (l.take j).countP p := (List.take_sublist_take_left hij).countP_le

/-- It comes before the end. -/
theorem countP_take_lt_countP (ha : l[i]? = some a) (hp : p a = true) :
    (l.take i).countP p < l.countP p := by
  have hlt := countP_take_lt ha hp (Nat.lt_succ_of_lt (List.getElem?_eq_some_iff.1 ha).1)
  rwa [List.take_of_length_le (Nat.le_succ _)] at hlt

end

section

variable {symbols : List Symbol} {i j : Nat} {s t : Symbol}

theorem tableIndex_of_local (hs : symbols[i]? = some s) (h : s.isLocal = true) :
    tableIndex symbols i = (symbols.take i).countP (·.isLocal) := by
  simp [tableIndex, hs, h]

theorem tableIndex_of_global (hs : symbols[i]? = some s) (h : s.isLocal = false) :
    tableIndex symbols i =
      symbols.countP (·.isLocal) + (symbols.take i).countP (!·.isLocal) := by
  simp [tableIndex, hs, h]

/-- The symbol table holds the symbols at the places that are reckoned for them. -/
theorem getElem?_tableIndex (hs : symbols[i]? = some s) :
    (symbols.filter (·.isLocal) ++ symbols.filter (!·.isLocal))[tableIndex symbols i]? =
      some s := by
  cases h : s.isLocal with
  | true =>
    rw [tableIndex_of_local hs h]
    exact Partial.getElem?_of_prefix (List.prefix_append _ _) (getElem?_filter_countP hs h)
  | false =>
    have hplace := getElem?_filter_countP (p := fun s : Symbol => !s.isLocal) hs (by rw [h]; rfl)
    rw [tableIndex_of_global hs h, List.countP_eq_length_filter,
      List.getElem?_append_right (Nat.le_add_right _ _), Nat.add_sub_cancel_left]
    exact hplace

/-- Different symbols have different places. -/
theorem tableIndex_ne (hs : symbols[i]? = some s) (ht : symbols[j]? = some t) (hij : i < j) :
    tableIndex symbols i ≠ tableIndex symbols j := by
  cases hs' : s.isLocal with
  | true =>
    have hs := countP_take_lt_countP (p := fun s : Symbol => s.isLocal) hs hs'
    cases ht' : t.isLocal with
    | true =>
      rw [tableIndex_of_local ‹_› hs', tableIndex_of_local ht ht']
      exact Nat.ne_of_lt (countP_take_lt (p := fun s : Symbol => s.isLocal) ‹_› hs' hij)
    | false =>
      rw [tableIndex_of_local ‹_› hs', tableIndex_of_global ht ht']
      omega
  | false =>
    have hlt := countP_take_lt (p := fun s : Symbol => !s.isLocal) hs (by rw [hs']; rfl) hij
    cases ht' : t.isLocal with
    | true =>
      have ht'' := countP_take_lt_countP (p := fun s : Symbol => s.isLocal) ht ht'
      rw [tableIndex_of_global hs hs', tableIndex_of_local ht ht']
      omega
    | false =>
      rw [tableIndex_of_global hs hs', tableIndex_of_global ht ht']
      omega

end

/-! ## The length of a file -/

open ObjectFile in
/-- Bytes that are placed are part of what is written. -/
theorem length_le_foldl_appendAt (start : List UInt8) {placed : List (Nat × Chunk)}
    {e : Nat × Chunk} (he : e ∈ placed) :
    e.2.bytes.length ≤
      (placed.foldl (fun bytes (offset, c) => appendAt bytes offset c.bytes) start).length := by
  have hgrows : ∀ (placed : List (Nat × Chunk)) (start : List UInt8), start.length ≤
      (placed.foldl (fun bytes (offset, c) => appendAt bytes offset c.bytes) start).length := by
    intro placed
    induction placed with
    | nil => exact fun start => Nat.le_refl _
    | cons e placed ih =>
      refine fun start => Nat.le_trans ?_ (ih _)
      simp only [appendAt, List.length_append]
      omega
  induction placed generalizing start with
  | nil => cases he
  | cons f placed ih =>
    rcases List.mem_cons.1 he with rfl | he
    · refine Nat.le_trans ?_ (hgrows placed _)
      simp only [appendAt, List.length_append]
      omega
    · exact ih _ he

open ObjectFile in
/-- Placing keeps everything. -/
theorem exists_mem_placeChunks {c : Chunk} {cs : List Chunk} (hc : c ∈ cs) (start : Nat) :
    ∃ offset, (offset, c) ∈ placeChunks start cs := by
  induction cs generalizing start with
  | nil => cases hc
  | cons c' cs ih =>
    rcases List.mem_cons.1 hc with rfl | hc
    · exact ⟨_, List.mem_cons_self⟩
    · obtain ⟨offset, hoffset⟩ := ih hc _
      exact ⟨offset, List.mem_cons_of_mem _ hoffset⟩

/-- **A file is at least as long as each section.** -/
theorem length_le_toElf {o : ObjectFile} {sec : Section} (hsec : sec ∈ o.sections) :
    sec.bytes.length ≤ o.toElf.length := by
  have hchunk : ObjectFile.contentsChunk sec ∈ o.chunks :=
    List.mem_append_left _ (List.mem_append_left _ (List.mem_append_left _
      (List.mem_map_of_mem hsec)))
  obtain ⟨offset, hplaced⟩ := exists_mem_placeChunks hchunk ObjectFile.headerSize
  rw [ObjectFile.toElf, ObjectFile.appendAt, List.length_append, List.length_append]
  refine Nat.le_trans (Nat.le_trans ?_ (Nat.le_add_right _ _)) (Nat.le_add_right _ _)
  exact length_le_foldl_appendAt _ hplaced

end Arm

/-- Whether the file of an object has room for it, and a reader can tell where names end. -/
def ObjectFile.HasRoom (o : ObjectFile) : Prop :=
  o.toElf.length < UInt32.size ∧ o.symbols.length < 2 ^ 24 ∧
    ∀ s ∈ o.symbols, Char.ofNat 0 ∉ s.name.toList

instance (o : ObjectFile) : Decidable o.HasRoom := by
  unfold ObjectFile.HasRoom
  infer_instance

namespace Arm

/-! ## What a draft holds -/

namespace Draft

/-- The bytes, the symbols and the relocations of a draft. -/
def contents (d : Draft) : Contents where
  sections := fun kind => (d.sections.lookup kind).map (·.bytes)
  symbols := d.symbols
  relocations := fun kind => (d.get kind).relocations

variable (d : Draft) (kind : SectionKind)

theorem lookup_put (other : SectionKind) (s : DraftSection) :
    (d.put kind s).sections.lookup other =
      if other = kind then some s else d.sections.lookup other :=
  Keyed.lookup_put _ _ _ _

theorem bytes_get : (d.get kind).bytes = (d.contents.sections kind).getD [] := by
  show _ = ((d.sections.lookup kind).map (·.bytes)).getD []
  rw [get]
  cases d.sections.lookup kind <;> rfl

/-- What a draft holds when a section is changed. -/
theorem contents_put (s : DraftSection) :
    (d.put kind s).contents =
      { d.contents.setBytes kind s.bytes with
        relocations := fun k => if k = kind then s.relocations else d.contents.relocations k } := by
  have hsections : (fun k => ((d.put kind s).sections.lookup k).map (·.bytes)) =
      fun k => if k = kind then some s.bytes else (d.sections.lookup k).map (·.bytes) :=
    funext fun k => by
      rw [lookup_put]
      split <;> rfl
  have hrelocations : (fun k => ((d.put kind s).get k).relocations) =
      fun k => if k = kind then s.relocations else (d.get k).relocations :=
    funext fun k => by
      rw [get, lookup_put]
      split <;> rfl
  rw [contents, hsections, hrelocations]
  rfl

/-- What it holds when only the bytes of the section are changed. -/
theorem contents_put_of_relocations {s : DraftSection}
    (hs : s.relocations = (d.get kind).relocations) :
    (d.put kind s).contents = d.contents.setBytes kind s.bytes := by
  have hrelocations : (fun k => if k = kind then s.relocations else d.contents.relocations k) =
      d.contents.relocations :=
    funext fun k => by
      by_cases hk : k = kind
      · rw [if_pos hk, hs, hk]
        rfl
      · exact if_neg hk
  rw [contents_put, hrelocations]
  rfl

theorem contents_put_get : (d.put kind (d.get kind)).contents = d.contents.use kind := by
  rw [contents_put_of_relocations d kind rfl, bytes_get]
  rfl

/-- Appended bytes come at the next multiple of what was asked for. -/
theorem append_spec (bytes : List UInt8) {unit : Nat} (hunit : 0 < unit) {old : List UInt8}
    (hold : d.contents.sections kind = some old) :
    unit ∣ (d.append kind bytes unit).1 ∧ old.length ≤ (d.append kind bytes unit).1 ∧
      (d.append kind bytes unit).1 < old.length + unit ∧
      (d.append kind bytes unit).2.contents = d.contents.setBytes kind
        (old ++ List.replicate ((d.append kind bytes unit).1 - old.length) 0 ++ bytes) := by
  have hbytes : (d.get kind).bytes = old := by
    rw [bytes_get, hold]
    rfl
  have hmod := Nat.div_add_mod (old.length + (unit - 1)) unit
  have hlt := Nat.mod_lt (old.length + (unit - 1)) hunit
  rw [Nat.mul_comm] at hmod
  simp only [append, hbytes, ObjectFile.roundUp, contents_put_of_relocations]
  exact ⟨Nat.dvd_mul_left _ _, by omega, by omega, rfl⟩

/-- A relocation is added to a section that is there. -/
theorem contents_addRelocation (r : NewRelocation Nat)
    (hopen : (d.contents.sections kind).isSome = true) :
    (d.addRelocation kind r).contents = d.contents.addRelocation kind r := by
  have hsections : d.contents.setBytes kind (d.get kind).bytes = d.contents := by
    rw [bytes_get]
    exact Contents.use_eq_self hopen
  have hrelocations : (fun k => if k = kind then (d.get kind).relocations ++ [r]
      else d.contents.relocations k) = (d.contents.addRelocation kind r).relocations :=
    funext fun k => ite_congr rfl (fun hk => by rw [hk]; rfl) fun _ => rfl
  rw [addRelocation, contents_put, hsections, hrelocations]
  rfl

/-! ## Finished objects -/

variable {d kind}

/-- A section of a finished object. -/
theorem mem_sections_finish {sec : Section} (h : sec ∈ d.finish.sections) :
    ∃ s, d.sections.lookup sec.kind = some s ∧ sec.bytes = s.bytes ∧
      sec.relocations = s.relocations.map fun r =>
        ⟨UInt32.ofNat r.offset, tableIndex (d.symbols.map NewSymbol.entry) r.symbol⟩ := by
  obtain ⟨kind, -, hsec⟩ := List.mem_filterMap.1 h
  obtain ⟨s, hs, rfl⟩ := Option.map_eq_some_iff.1 hsec
  exact ⟨s, hs, rfl, rfl⟩

theorem exists_mem_sections_finish {s : DraftSection} (h : d.sections.lookup kind = some s) :
    ∃ sec ∈ d.finish.sections, sec.kind = kind ∧ sec.bytes = s.bytes :=
  ⟨_, List.mem_filterMap.2 ⟨kind, by cases kind <;> decide, by rw [h]; rfl⟩, rfl, rfl⟩

/-- No two sections are of one kind. -/
theorem nodup_kinds (d : Draft) : (d.finish.sections.map (·.kind)).Nodup := by
  have hkinds : d.finish.sections.map (·.kind) =
      SectionKind.all.filter fun kind => (d.sections.lookup kind).isSome := by
    rw [finish, List.map_filterMap, ← List.filterMap_eq_filter]
    refine List.filterMap_congr fun kind _ => ?_
    cases h : d.sections.lookup kind <;> simp [Option.guard, h]
  rw [hkinds]
  exact List.filter_sublist.nodup (by decide)

/-- **The places of symbols** in the table of a finished object. -/
theorem indexes_finish (d : Draft) :
    d.finish.Indexes d.symbols (tableIndex (d.symbols.map NewSymbol.entry)) where
  entry := fun i s hs => by
    have hentry : (d.symbols.map NewSymbol.entry)[i]? = some s.entry := by
      rw [List.getElem?_map, hs, Option.map_some]
    exact getElem?_tableIndex hentry
  distinct := fun i j hij hj => by
    have hj' : j < (d.symbols.map NewSymbol.entry).length := by rwa [List.length_map]
    exact tableIndex_ne (List.getElem?_eq_getElem (Nat.lt_trans hij hj'))
      (List.getElem?_eq_getElem hj') hij

/-- **A finished object shows what the draft held.** -/
theorem shows_finish (d : Draft) :
    d.finish.Reflects d.contents (tableIndex (d.symbols.map NewSymbol.entry)) where
  kinds := d.nodup_kinds
  used := fun kind => by
    rw [contents, Option.isSome_map, Option.isSome_iff_exists]
    constructor
    · rintro ⟨sec, hsec, rfl⟩
      obtain ⟨s, hs, -⟩ := mem_sections_finish hsec
      exact ⟨s, hs⟩
    · rintro ⟨s, hs⟩
      obtain ⟨sec, hsec, hkind, -⟩ := exists_mem_sections_finish hs
      exact ⟨sec, hsec, hkind⟩
  bytes := fun sec hsec => by
    obtain ⟨s, hs, hbytes, -⟩ := mem_sections_finish hsec
    show (d.sections.lookup sec.kind).map (·.bytes) = some sec.bytes
    rw [hs, hbytes]
    rfl
  symbols := List.filter_append_perm _ _
  places := d.indexes_finish
  relocations := fun sec hsec => by
    obtain ⟨s, hs, -, hrelocations⟩ := mem_sections_finish hsec
    show List.Forall₂ _ (d.get sec.kind).relocations _
    rw [get, hs, hrelocations, List.forall₂_map_right_iff]
    exact List.forall₂_same.2 fun r _ => ⟨rfl, rfl⟩

/-- An object that has room in its file has room for what the draft held. -/
theorem fits_of_hasRoom (h : d.finish.HasRoom) : d.contents.FitsFile d.finish.toElf := by
  have hperm : d.finish.symbols.Perm (d.symbols.map NewSymbol.entry) := d.shows_finish.symbols
  have hlength := hperm.length_eq
  rw [List.length_map] at hlength
  refine ⟨h.1, ?_, fun s hs => ?_⟩
  · exact hlength ▸ h.2.1
  · exact h.2.2 s.entry (hperm.mem_iff.2 (List.mem_map_of_mem hs))

end Draft

/-! ## The laws -/

/-- What the drafts of the writer hold. -/
def view : library.View where
  contents := Draft.contents
  kind := id
  position := id

theorem symbol_view (s : NewSymbol SectionKind) : view.symbol s = s := by
  obtain ⟨name, value, size, type, scope, home⟩ := s
  cases home <;> rfl

/-- **The writer is a lawful library.** -/
theorem lawful : view.Lawful where
  empty := rfl
  sectionOf := fun d kind => ⟨rfl, Draft.contents_put_get d kind⟩
  append := fun d home bytes k old hold =>
    Draft.append_spec d home bytes (Nat.two_pow_pos k) hold
  addSymbol := fun d s => ⟨rfl, congrArg (Draft.contents d).addSymbol (symbol_view s).symm⟩
  addRelocation := fun d home r hopen _ => ⟨_, rfl, Draft.contents_addRelocation d home r hopen⟩
  length_le := fun d file kind bytes hwrite hbytes => by
    obtain rfl := Except.ok.inj hwrite
    obtain ⟨s, hs, rfl⟩ := Option.map_eq_some_iff.1 hbytes
    obtain ⟨sec, hsec, -, hsame⟩ := Draft.exists_mem_sections_finish hs
    rw [← hsame]
    exact length_le_toElf hsec
  read := fun d file hwrite _ => by
    obtain rfl := Except.ok.inj hwrite
    exact ⟨_, _, rfl, Draft.shows_finish d⟩

end DataImage.Arm
