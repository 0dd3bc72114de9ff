import DataImage.Proofs.Catalog.Chain
import DataImage.Proofs.Catalog.Leaves
import DataImage.Proofs.Catalog.Conforming
import DataImage.Proofs.Text.Utf16

/-!
# Strings

What the value of a text becomes: the header, the number of code units, and the units themselves
behind the end of the class (`Catalog.Buildable.contents?_text`). Its blob can be read
(`Catalog.Buildable.blobOf_text`): the number of units stands after the header, and the bytes behind
it are decoded to the text. So different texts have different bytes (`Blob.HoldsText.unique`).
-/

namespace DataImage

/-! ## Texts in blobs -/

/-- Whether a blob is a read-only string with a text, for pointers of `p` bytes. -/
structure Blob.HoldsText (b : Blob) (p : Nat) (text : String) : Prop where
  readOnly : b.writable = false
  length : b.bytes.length = 4 + p + 4 + 2 * (Text.utf16 text).length
  header : b.bytes.take (4 + p) = 0x6 :: List.replicate (3 + p) 0
  count : Bits.ofLittleEndian ((b.bytes.drop (4 + p)).take 4) = (Text.utf16 text).length
  characters : b.bytes.drop (4 + p + 4) =
    (Text.utf16 text).flatMap fun u => Bits.littleEndian u.toUInt64 2
  decoded : Text.decode (Text.units (b.bytes.drop (4 + p + 4))) = some text

/-- **Different texts never have the same bytes.** -/
theorem Blob.HoldsText.unique {b b' : Blob} {p : Nat} {text text' : String}
    (h : b.HoldsText p text) (h' : b'.HoldsText p text') (hbytes : b.bytes = b'.bytes) :
    text = text' := by
  have hdecoded := h.decoded
  rw [hbytes, h'.decoded] at hdecoded
  exact (Option.some.inj hdecoded).symm

/-- The bytes of a string: the header, the number of units, the units. -/
def textBytes (p : Nat) (text : String) : List UInt8 :=
  0x6 :: List.replicate (3 + p) 0 ++
    (Bits.littleEndian (UInt64.ofNat (Text.utf16 text).length) 4 ++
      (Text.utf16 text).flatMap fun u => Bits.littleEndian u.toUInt64 2)

theorem length_textBytes (p : Nat) (text : String) :
    (textBytes p text).length = 4 + p + 4 + 2 * (Text.utf16 text).length := by
  simp only [textBytes, List.length_append, List.length_cons, List.length_replicate,
    List.length_flatMap, Bits.length_littleEndian, List.map_const', List.sum_replicate_nat]
  omega

/-- A blob with the bytes of a string holds the text. -/
theorem Blob.holdsText_of_bytes {b : Blob} {p : Nat} {text : String}
    (hwritable : b.writable = false) (hbytes : b.bytes = textBytes p text)
    (hlength : (Text.utf16 text).length < 2 ^ 32) : b.HoldsText p text := by
  have hheader : (0x6 :: List.replicate (3 + p) (0 : UInt8)).length = 4 + p := by
    rw [List.length_cons, List.length_replicate]
    omega
  have hbehind : b.bytes.drop (4 + p) =
      Bits.littleEndian (UInt64.ofNat (Text.utf16 text).length) 4 ++
        (Text.utf16 text).flatMap fun u => Bits.littleEndian u.toUInt64 2 := by
    rw [hbytes, textBytes, ← hheader, List.drop_left]
  have hcharacters : b.bytes.drop (4 + p + 4) =
      (Text.utf16 text).flatMap fun u => Bits.littleEndian u.toUInt64 2 := by
    rw [← List.drop_drop, hbehind]
    exact List.drop_left' (Bits.length_littleEndian _ _)
  refine ⟨hwritable, by rw [hbytes, length_textBytes], ?_, ?_, hcharacters, ?_⟩
  · rw [hbytes, textBytes, ← hheader, List.take_left]
  · rw [hbehind, List.take_left' (Bits.length_littleEndian _ _), Bits.ofLittleEndian_littleEndian,
      UInt64.toNat_ofNat_of_lt' (Nat.lt_trans hlength (by decide))]
    exact Nat.mod_eq_of_lt hlength
  · rw [hcharacters, Text.units_flatMap_littleEndian, Text.decode_utf16]

namespace Catalog

variable {c : Catalog} {kind : RelocationKind} {text : String}

/-- The value of a text. -/
def textValue (text : String) : ObjectValue where
  context := Core.string
  isMutable := false
  fields := [(Core.stringLength, .scalar (UInt64.ofNat (Text.utf16 text).length))]
  source := some text

theorem descriptor?_addString (c : Catalog) (text : String) :
    (c.addString text).2.descriptor? (c.addString text).1 = some (.object (textValue text)) :=
  List.getElem?_concat_length

/-! ## Integers one after the other -/

theorem valueSize_scalar {t : TypeId} (ht : (c.typeDef t).isScalar = true) {raw : UInt64}
    {v : Value} (hv : c.scalar? t raw = some v) : c.valueSize v = (c.typeDef t).size := by
  obtain ⟨hsize, hform⟩ := scalar?_eq_some_iff.1 hv
  have hwidth : c.FitsWidth t := fitsWidth_of_le (hsize ht).2 (by decide)
  obtain ⟨-, -, rfl⟩ | ⟨-, -, -, rfl⟩ := hform
  · rw [valueSize, shapeOf_of_isScalar ht, shapeSize_of_isScalar ht hwidth]
  · rw [valueSize, shapeSize_of_isScalar ht hwidth]

variable (kind) in
/-- Integers of one type have their bytes one after the other. -/
theorem valuesBytes_scalars {α : Type} {t : TypeId} (ht : (c.typeDef t).isScalar = true)
    {raw : α → UInt64} {l : List α} {vs : List Value}
    (hvs : l.mapM (fun a => c.scalar? t (raw a)) = some vs) (lo : Nat)
    (hroom : lo + l.length * (c.typeDef t).size < 2 ^ 63) :
    c.valuesBytes kind lo vs =
      .ok (l.flatMap fun a => Bits.littleEndian (raw a) (c.typeDef t).size, []) := by
  have hall := Partial.mapM_eq_some_iff.1 hvs
  clear hvs
  induction hall generalizing lo with
  | nil => rfl
  | cons hv _ ih =>
    rw [List.length_cons, Nat.succ_mul] at hroom
    have hbytes := valueBytes_scalar kind lo ht hv
    rw [Module.place_of_lt _ (by rw [Bits.length_littleEndian]; omega)] at hbytes
    refine valuesBytes_cons_eq_ok_iff.2 ⟨_, [], _, [], hbytes, ih _ ?_, List.flatMap_cons, rfl⟩
    rw [Bits.length_littleEndian]
    omega

/-! ## The contents of a string -/

namespace Rooted

variable (h : c.Rooted)

include h

theorem chain_string : c.Chain Core.string [Core.string] :=
  .derived h.kind_string (by decide) h.base_string .root

theorem isScalar_int32 : (c.typeDef Core.int32).isScalar = true := h.isScalar_core rfl rfl

theorem isScalar_char : (c.typeDef Core.char).isScalar = true := h.isScalar_core rfl rfl

/-- The type of a value whose global takes its type from the contents has a struct all the same. -/
theorem laid_of_takesTypeFromContents {d : DescriptorId} {v : Descriptor}
    (hv : c.descriptor? d = some v) {w : Value} (hw : c.contents? d = some w)
    (htakes : v.takesTypeFromContents = true) : c.Laid v.context := by
  rw [contents?_eq, hv, Option.bind_some] at hw
  cases v with
  | object o =>
    have hcontext : o.context = Core.string := of_decide_eq_true htakes
    obtain ⟨a, top, ha, htop, hbelow⟩ := object?_eq_some_iff.1 hw
    rw [show (Descriptor.object o).context = Core.string from hcontext] at ha ⊢
    obtain rfl := Except.ok.inj ((h.chain_string.ancestry_eq h).symm.trans ha)
    obtain ⟨-, hheader⟩ | ⟨hne, -⟩ := top?_eq_some_iff.1 htop
    · obtain ⟨-, -, -, -, -, hobject, -⟩ := header?_eq_some_iff.1 hheader
      simp only [List.foldlM_cons, List.foldlM_nil, bind_pure] at hbelow
      obtain ⟨own, hown, -⟩ := class?_eq_some_iff.1 hbelow
      -- the walk over a string did not end early, as the fields were built
      rw [ownStart, h.base_string] at hown
      dsimp only at hown
      rw [h.size_object, regionValues?, h.region_string] at hown
      split at hown
      · cases hown
      · rename_i hroom
        exact h.laid_of_body?_eq hobject (h.body?_string (Nat.not_le.1 hroom))
    · exact absurd rfl hne
  | array a =>
    obtain ⟨element, base, elements, hkind, hbase, -, hstored, -⟩ := array?_eq_some_iff.1 hw
    obtain ⟨-, -, -, -, harray, -⟩ := arrayBase?_eq_some_iff.1 hbase
    exact laid_of_array hkind harray hstored

/-! ## The size of a header -/

theorem layoutSize?_objectHeader (hroom : 4 + c.pointerSize < UInt32.size) :
    c.layoutSize? Core.objectHeader = some (4 + c.pointerSize) := by
  have hsize : (c.typeDef Core.uint32).size = 4 := by rw [h.size_core rfl]; rfl
  have hword : c.layoutSize? Core.uint32 = some 4 := by
    rw [layoutSize?_of_isScalar (h.isScalar_core rfl rfl)
      (fitsWidth_of_le (Nat.le_of_eq hsize) (by decide)), hsize]
  rw [layoutSize?_eq, h.body?_objectHeader hroom]
  simp only [Option.bind_some, Shape.sizes?, Shape.size?, hword]
  split
  · rename_i hp
    rw [hp]
    rfl
  · rfl

/-- The root class takes the bytes of the header. -/
theorem layoutSize?_object (hroom : 4 + c.pointerSize < UInt32.size) :
    c.layoutSize? Core.object = some (4 + c.pointerSize) := by
  rw [layoutSize?_eq, h.body?_object]
  simp only [Option.bind_some, Shape.sizes?, Shape.size?, h.layoutSize?_objectHeader hroom]
  rfl

end Rooted

namespace Buildable

variable (h : c.Buildable)

include h

/-- A virtual table has two words behind its header. -/
theorem layoutSize?_vtable : c.layoutSize? Core.vtable = some (4 + c.pointerSize + 8) := by
  have hroom := h.room
  have hsize : (c.typeDef Core.uint32).size = 4 := by rw [h.size_core rfl]; rfl
  have hword : c.layoutSize? Core.uint32 = some 4 := by
    rw [layoutSize?_of_isScalar (h.isScalar_core rfl rfl) (h.fitsWidth_core rfl rfl), hsize]
  rw [layoutSize?_eq, h.body?_vtable]
  simp only [Option.bind_some, Shape.sizes?, Shape.size?, hword,
    h.layoutSize?_object (by omega)]
  rfl

/-- **What the value of a text becomes.** -/
theorem contents?_text {d : DescriptorId} (hd : c.descriptor? d = some (.object (textValue text)))
    {v : Value} :
    c.contents? d = some v ↔ ∃ header length units, c.header? Core.string false = some header ∧
      c.scalar? Core.int32 (UInt64.ofNat (Text.utf16 text).length) = some length ∧
      (Text.utf16 text).mapM (fun u => c.scalar? Core.char u.toUInt64) = some units ∧
      v = .anon [header, length, .array (.layout Core.char) units] := by
  have hstored : c.Stored (c.field Core.firstChar).type := by
    rw [h.type_firstChar, Stored, shapeOf_of_isScalar h.isScalar_char]
    exact fun u hu => List.mem_singleton.1 hu ▸ h.laid_core_scalar rfl rfl
  have hroom := h.room
  have hregion : ∀ own, c.regionValues? c.contents? (textValue text) Core.string
      (c.ownStart Core.string) = some own ↔ ∃ length,
        c.scalar? Core.int32 (UInt64.ofNat (Text.utf16 text).length) = some length ∧
        own = [length] := by
    intro own
    have hheld : c.partValue? c.contents? (textValue text) (.field Core.stringLength) =
        c.scalar? Core.int32 (UInt64.ofNat (Text.utf16 text).length) := by
      rw [partValue?, textValue, List.lookup_cons_self, held?, payload?, h.type_stringLength,
        if_pos h.isScalar_int32]
    rw [regionValues?, ownStart, h.base_string]
    dsimp only
    rw [h.size_object, h.region_string, if_neg (by omega), List.mapM_cons, hheld]
    cases c.scalar? Core.int32 (UInt64.ofNat (Text.utf16 text).length) with
    | none => simp
    | some length => simp [eq_comm]
  rw [contents?_eq, hd, Option.bind_some]
  constructor
  · intro hv
    obtain ⟨a, top, ha, htop, hbelow⟩ := object?_eq_some_iff.1 hv
    obtain rfl := Except.ok.inj (ha.symm.trans (h.chain_string.ancestry_eq h.toRooted))
    obtain ⟨-, hheader⟩ | ⟨hne, -⟩ := top?_eq_some_iff.1 htop
    · simp only [List.foldlM_cons, List.foldlM_nil, bind_pure] at hbelow
      obtain ⟨own, hown, ⟨-, chars, hchars, rfl⟩ | ⟨hne, -⟩⟩ := class?_eq_some_iff.1 hbelow
      · obtain ⟨length, hlength, rfl⟩ := (hregion own).1 hown
        obtain ⟨-, units, hunits, rfl⟩ := characters?_eq_some_iff.1 hchars
        rw [h.type_firstChar] at hunits ⊢
        rw [shapeOf_of_isScalar h.isScalar_char]
        exact ⟨top, length, units, hheader, hlength, hunits, rfl⟩
      · exact absurd rfl hne
    · exact absurd rfl hne
  · rintro ⟨header, length, units, hheader, hlength, hunits, rfl⟩
    refine object?_eq_some_iff.2 ⟨_, header, h.chain_string.ancestry_eq h.toRooted,
      top?_eq_some_iff.2 (Or.inl ⟨rfl, hheader⟩), ?_⟩
    simp only [List.foldlM_cons, List.foldlM_nil, bind_pure]
    refine class?_eq_some_iff.2 ⟨[length], (hregion _).2 ⟨length, hlength, rfl⟩, Or.inl ⟨rfl,
      .array (c.shapeOf (c.field Core.firstChar).type) units,
      characters?_eq_some_iff.2 ⟨hstored, units, ?_, rfl⟩, ?_⟩⟩
    · rw [h.type_firstChar]
      exact hunits
    · rw [h.type_firstChar, shapeOf_of_isScalar h.isScalar_char]
      rfl

/-- **The value of a text has contents** if strings have a virtual table. -/
theorem text_conforms {values : DescriptorId → Prop} (hwidth : c.pointerSize ≠ 0)
    {d e : DescriptorId} (hd : c.descriptor? d = some (.object (textValue text)))
    (he : c.vtable? Core.string = some e) (hmem : values e) :
    ∃ v, c.contents? d = some v ∧ c.Conforms values v := by
  obtain ⟨header, hheader, hfills⟩ := h.header_fills hwidth he hmem false
  obtain ⟨length, hlength, hfills'⟩ :=
    h.length_fills values (UInt64.ofNat (Text.utf16 text).length)
  obtain ⟨chars, hchars, hconforms⟩ := h.characters_fill values (textValue text)
  obtain ⟨-, units, hunits, rfl⟩ := characters?_eq_some_iff.1 hchars
  rw [h.type_firstChar, shapeOf_of_isScalar h.isScalar_char] at hconforms
  rw [h.type_firstChar] at hunits
  refine ⟨_, (h.contents?_text hd).2 ⟨header, length, units, hheader, hlength, hunits, rfl⟩,
    .anon fun v hv => ?_⟩
  rcases List.mem_cons.1 hv with rfl | hv
  · exact hfills.2
  rcases List.mem_cons.1 hv with rfl | hv
  · exact hfills'.2
  · exact List.mem_singleton.1 hv ▸ hconforms

/-! ## The blob of a string -/

variable (kind) in
/-- The bytes of a header: flags, and an empty slot. -/
theorem valueBytes_header_readOnly {context : TypeId} {v : Value}
    (hv : c.header? context false = some v) : ∃ rs, c.valueBytes kind 0 v =
      .ok (0x6 :: List.replicate (3 + c.pointerSize) 0, rs) := by
  obtain ⟨vtable, word, -, rfl, hword⟩ := h.valueBytes_header kind hv
  have hroom := h.room
  have hslot : 4 + (List.replicate c.pointerSize (0 : UInt8)).length < 2 ^ 63 := by
    rw [List.length_replicate]
    simp only [UInt32.size] at hroom
    omega
  refine ⟨[{ offset := 4, symbol := c.nameOf vtable, kind }], ?_⟩
  rw [valueBytes, valuesBytes_singleton, valueBytes]
  refine valuesBytes_cons_eq_ok_iff.2
    ⟨_, _, _, _, (hword 0).trans (Module.place_of_lt _ (by decide)),
    (valuesBytes_singleton _).trans (Module.place_of_lt _ hslot), ?_, rfl⟩
  rw [List.replicate_add]
  rfl

variable (kind) in
/-- **A string has the bytes of its text.** -/
theorem valueBytes_text (hlen : (Text.utf16 text).length < 2 ^ 32) {d : DescriptorId}
    (hd : c.descriptor? d = some (.object (textValue text))) {v : Value}
    (hv : c.contents? d = some v) :
    ∃ rs, c.valueBytes kind 0 v = .ok (textBytes c.pointerSize text, rs) := by
  obtain ⟨header, length, units, hheader, hlength, hunits, rfl⟩ := (h.contents?_text hd).1 hv
  have hint32 : (c.typeDef Core.int32).size = 4 := by rw [h.size_core rfl]; rfl
  have hchar : (c.typeDef Core.char).size = 2 := by rw [h.size_core rfl]; rfl
  have hroom := h.room
  simp only [UInt32.size] at hroom
  obtain ⟨rs, hheaderBytes⟩ := h.valueBytes_header_readOnly kind hheader
  have hlengthBytes : ∀ lo, lo + 4 < 2 ^ 63 → c.valueBytes kind lo length =
      .ok (Bits.littleEndian (UInt64.ofNat (Text.utf16 text).length) 4, []) := by
    intro lo hlo
    have hbytes := valueBytes_scalar kind lo h.isScalar_int32 hlength
    rwa [hint32, Module.place_of_lt _ (by rwa [Bits.length_littleEndian])] at hbytes
  have hunitsBytes := valuesBytes_scalars kind h.isScalar_char hunits
  rw [hchar] at hunitsBytes
  refine ⟨rs, valuesBytes_cons_eq_ok_iff.2 ⟨_, rs, _, [], hheaderBytes,
    valuesBytes_cons_eq_ok_iff.2 ⟨_, [], _, [], hlengthBytes _ ?_, ?_, rfl, rfl⟩, rfl,
    (List.append_nil rs).symm⟩⟩
  · simp only [List.length_cons, List.length_replicate]
    omega
  · rw [valuesBytes_singleton]
    refine hunitsBytes _ ?_
    simp only [List.length_cons, List.length_replicate, Bits.length_littleEndian]
    omega

/-- The type of a string, which comes from its contents, takes the bytes of the text. -/
theorem globalSize_text {d : DescriptorId}
    (hd : c.descriptor? d = some (.object (textValue text))) {v : Value}
    (hv : c.contents? d = some v) :
    c.globalSize (.object (textValue text)) v = (textBytes c.pointerSize text).length := by
  obtain ⟨header, length, units, hheader, hlength, hunits, rfl⟩ := (h.contents?_text hd).1 hv
  have hint32 : (c.typeDef Core.int32).size = 4 := by rw [h.size_core rfl]; rfl
  have hchar : (c.typeDef Core.char).size = 2 := by rw [h.size_core rfl]; rfl
  have hroom := h.room
  have hheaderSize : c.valueSize header = 4 + c.pointerSize := by
    obtain ⟨vtable, word, -, -, -, -, rfl⟩ := header?_eq_some_iff.1 hheader
    rw [valueSize, shapeSize, Shape.size?, h.layoutSize?_object (by omega),
      Option.getD_some]
  have hlengthSize := (valueSize_scalar h.isScalar_int32 hlength).trans hint32
  have hunitSize :=
    (shapeSize_of_isScalar h.isScalar_char (h.fitsWidth_core rfl rfl)).trans hchar
  have hcount := (Partial.mapM_eq_some_iff.1 hunits).length_eq
  have helements := elementsSize_of_lt (show 2 < UInt64.size by decide) units.length
  have htakes : (Descriptor.object (textValue text)).takesTypeFromContents = true := rfl
  rw [globalSize, if_pos htakes, length_textBytes, hcount]
  simp only [valueSize, valuesSize, hheaderSize, hlengthSize, hunitSize, helements]
  omega

variable (kind) in
/-- **The blob of a text can be read.** -/
theorem blobOf_text (hlength : (Text.utf16 text).length < 2 ^ 32) {d : DescriptorId}
    (hd : c.descriptor? d = some (.object (textValue text))) {v : Value}
    (hv : c.contents? d = some v) :
    ∃ b, c.blobOf kind d (.object (textValue text)) v = .ok b ∧
      b.HoldsText c.pointerSize text := by
  obtain ⟨rs, hbytes⟩ := h.valueBytes_text kind hlength hd hv
  have hroom := h.room
  have hword : word? (textBytes c.pointerSize text).length =
      some (textBytes c.pointerSize text).length := by
    refine word?_of_lt ?_
    rw [length_textBytes]
    simp only [UInt32.size, UInt64.size] at hroom ⊢
    omega
  refine ⟨{ name := c.globalName d (.object (textValue text))
            bytes := textBytes c.pointerSize text
            relocations := rs
            writable := false }, ?_, Blob.holdsText_of_bytes rfl rfl hlength⟩
  rw [blobOf, hbytes]
  simp only [bind, Except.bind, h.globalSize_text hd hv, hword, Module.knownSize]
  rw [if_neg (not_not.2 rfl)]
  rfl

end Buildable

end Catalog

end DataImage
