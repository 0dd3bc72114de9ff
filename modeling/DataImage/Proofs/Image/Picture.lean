import DataImage.Proofs.Image.RegionPicture

/-!
# Values in a blob

A blob with the bytes of contents that were checked is the picture of the value
(`Image.pictures_of_valueBytes`). Parts of parts are shown by recursion on the contents
(`Image.part_shown`), an instance of a class along its chain of bases (`Image.chain_shown`), and the
elements of an array one after the other (`Image.elements_shown`).
-/

namespace DataImage

namespace Catalog

variable {c : Catalog}

/-- An instance of a value type is a struct of the parts of its region. -/
theorem Rooted.contents?_of_valueType (hc : c.Rooted) {d : DescriptorId} {o : ObjectValue}
    (hd : c.descriptor? d = some (.object o)) (hkind : (c.typeDef o.context).kind = .valueType)
    {v : Value} (hv : c.contents? d = some v) :
    ∃ fields, c.regionValues? c.contents? o o.context 0 = some fields ∧
      v = .named o.context fields := by
  rw [contents?_eq, hd, Option.bind_some] at hv
  obtain ⟨a, top, ha, htop, hbelow⟩ := object?_eq_some_iff.1 hv
  obtain rfl := Except.ok.inj (ha.symm.trans (ancestry_of_valueType hkind))
  obtain rfl := Option.some.inj hbelow
  obtain ⟨hobject, -⟩ | ⟨-, -, fields, hfields, rfl⟩ := top?_eq_some_iff.1 htop
  · exact absurd hobject (hc.ne_object_of_valueType hkind)
  · exact ⟨fields, hfields, rfl⟩

/-- The elements of an array become what their payloads become. -/
theorem forall₂_of_elements? {a : ArrayValue} {element : TypeId}
    {part : DescriptorId → Option Value} {vs : List Value}
    (h : c.elements? part a element = some vs) : ∃ ps : List Payload, ps.length = a.length ∧
      (∀ i, elementPayload a i = ps[i]?) ∧
      List.Forall₂ (fun p v => c.payload? part element p = some v) ps vs := by
  rcases elements?_eq_some_iff.1 h with ⟨values, hvalues, hlen, hvs⟩ | ⟨hvalues, hlen, hs, hvs⟩
  · exact ⟨values, hlen, fun i => by rw [elementPayload, hvalues], Partial.mapM_eq_some_iff.1 hvs⟩
  · refine ⟨(a.source.getD []).map .scalar, by rw [List.length_map, hlen], fun i => ?_, ?_⟩
    · rw [elementPayload, hvalues, List.getElem?_map]
    · rw [List.forall₂_map_left_iff]
      refine (Partial.forall₂_mem (Partial.mapM_eq_some_iff.1 hvs)).imp ?_
      rintro raw v ⟨hmem, -, hv⟩
      rw [payload?, if_pos (hs.resolve_left (List.ne_nil_of_mem hmem))]
      exact hv

end Catalog

namespace Image

variable {c : Catalog} {known : TypeId → Prop} {s : Image} {kind : RelocationKind} {b : Blob}
  (hs : s.Coherent c known) (hnames : c.DistinctNames known) (hsound : c.SoundGeometry)
  (hc : c.Rooted) (hp : c.pointerSize ≠ 0)

include hs hnames hsound hc hp

/-! ## Parts -/

/-- **Parts of values** show their fields, and so do parts of parts. -/
theorem part_shown (v : Value) : ShowsPart c s kind b v := by
  induction v using Value.induct with
  | named t fields ih =>
    intro d o lo bs rs hd hkind hv hfaultless hbytes hb
    obtain ⟨vs, hvs, heq⟩ := hc.contents?_of_valueType hd hkind hv
    obtain ⟨rfl, rfl⟩ := Value.named.inj heq
    obtain ⟨slots, hbody, haccepts, hinner⟩ := hfaultless.named hs.toLaidOut hnames
    rw [Catalog.body?, hkind] at hbody
    have hparts := forall₂_partBuilt (Partial.mapM_eq_some_iff.1 hvs)
      (Partial.mapM_eq_some_iff.1 hbody) haccepts hinner ih
    exact region_shown hs hnames hsound hc hp
      (hsound.fields _ (hc.ne_string_of_valueType hkind) (Or.inr hkind)) 0 (Nat.zero_le _) hparts
      hbytes hb
  | int | zeroed | anon | array | reference | function =>
    intro d o lo bs rs hd hkind hv
    obtain ⟨fields, -, heq⟩ := hc.contents?_of_valueType hd hkind hv
    cases heq

/-! ## Classes -/

omit hsound in
/-- The header of an instance. -/
theorem header_shown {context : TypeId} {isMutable : Bool} {v : Value}
    (hv : c.header? context isMutable = some v) (hfaultless : s.Faultless v) {bs : List UInt8}
    {rs : List Relocation} (hbytes : c.valueBytes kind 0 v = .ok (bs, rs)) (hb : b.Holds 0 bs rs) :
    bs.length = c.headerSize ∧ c.ShowsHeader s.Denotes kind b context isMutable := by
  obtain ⟨vtable, word, hvtable, rfl, hword⟩ := hc.valueBytes_header kind hv
  obtain ⟨-, -, -, hheader⟩ := hfaultless.named hs.toLaidOut hnames
  obtain ⟨-, -, -, hinner⟩ := (hheader _ List.mem_cons_self).named hs.toLaidOut hnames
  have hdenotes := (hinner (.reference vtable)
    (List.mem_cons_of_mem _ (List.mem_singleton.2 rfl))).denotes hs.toRegistered
  rw [Catalog.valueBytes, Catalog.valuesBytes_singleton] at hbytes
  obtain ⟨bs₁, rs₁, bs₂, rs₂, hbytes₁, hb₁, hbytes₂, hb₂, hlen⟩ := Catalog.holds_cons hp hbytes hb
  rw [hword] at hbytes₁
  obtain ⟨-, rfl, rfl⟩ := Module.place_eq_ok_iff.1 hbytes₁
  rw [Catalog.valuesBytes_singleton] at hbytes₂
  obtain ⟨-, rfl, rfl⟩ := Module.place_eq_ok_iff.1 hbytes₂
  refine ⟨?_, hb₁, vtable, _, hvtable, hdenotes, hb₂⟩
  rw [hlen, List.length_replicate]
  rfl

/-- **An instance of a class** shows its header, and along the chain of bases the fields of each
class in the region of the class. -/
theorem chain_shown {o : ObjectValue} {top : Value}
    (htop : c.header? o.context o.isMutable = some top) {t : TypeId} {ts : List TypeId}
    (hchain : c.Chain t ts) (hstring : t ≠ Core.string) {v : Value}
    (hv : ts.foldlM (c.class? c.contents? o) top = some v) (hfaultless : s.Faultless v)
    {bs : List UInt8} {rs : List Relocation} (hbytes : c.valueBytes kind 0 v = .ok (bs, rs))
    (hb : b.Holds 0 bs rs) :
    bs.length = (c.typeDef t).size ∧ c.ShowsHeader s.Denotes kind b o.context o.isMutable ∧
      (∀ u ∈ ts, ∀ f, c.DeclaresField u f →
        c.Shows s.Denotes kind b (c.field f).type (o.fields.lookup f) (c.field f).offset) ∧
      ∀ i, c.headerSize ≤ i → i < (c.typeDef t).size →
        (∀ u ∈ ts, ∀ f, c.DeclaresField u f → ¬ c.Covers f i) → b.Holds i [0xab] [] := by
  induction hchain generalizing v bs rs with
  | root =>
    obtain rfl := Option.some.inj hv
    obtain ⟨hlen, hheader⟩ := header_shown hs hnames hc hp htop hfaultless hbytes hb
    rw [hc.size_object]
    refine ⟨hlen, hheader, fun u hu => absurd hu List.not_mem_nil, fun i hle hlt => ?_⟩
    rw [Catalog.headerSize] at hle
    omega
  | @derived t base ts hkind hne hbase above ih =>
    rw [List.foldlM_append, Option.bind_eq_bind, Option.bind_eq_some_iff] at hv
    obtain ⟨w, hw, hlast⟩ := hv
    rw [List.foldlM_cons, Option.bind_eq_bind, Option.bind_eq_some_iff] at hlast
    obtain ⟨v', hv', hlast⟩ := hlast
    obtain rfl := Option.some.inj hlast
    obtain ⟨own, hown, ⟨heq, -⟩ | ⟨-, -, rfl⟩⟩ := Catalog.class?_eq_some_iff.1 hv'
    · exact absurd heq hstring
    obtain ⟨slots, hbody, haccepts, hinner⟩ := hfaultless.named hs.toLaidOut hnames
    obtain ⟨slots', rfl, hslots'⟩ := Catalog.body?_eq_of_base hkind hne hbase hbody
    obtain ⟨-, haccepts'⟩ := List.forall₂_cons.1 haccepts
    obtain ⟨bs₁, rs₁, bs₂, rs₂, hbytes₁, hb₁, hbytes₂, hb₂, hlen⟩ :=
      Catalog.holds_cons hp hbytes hb
    have hbase' : base ≠ Core.string := fun heq => hsound.notString t hkind (heq ▸ hbase)
    obtain ⟨hlen₁, hheader, hfields, hpadding⟩ :=
      ih hbase' hw (hinner w List.mem_cons_self) hbytes₁ hb₁
    rw [hlen₁] at hbytes₂ hb₂
    have hgrows := hsound.grows t base hkind hbase
    have hsoundFields := hsound.fields t hstring (Or.inl hkind)
    have hstarts := hsoundFields.starts
    rw [Catalog.regionStart_of_base hkind hbase] at hstarts
    rw [Catalog.ownStart, hbase] at hown
    have hparts : List.Forall₂ (PartBuilt c s kind b o) (c.region t (c.typeDef base).size) own :=
      forall₂_partBuilt (Partial.mapM_eq_some_iff.1 hown) (Partial.mapM_eq_some_iff.1 hslots')
        haccepts' (fun v hv => hinner v (List.mem_cons_of_mem _ hv))
        fun v _ => part_shown hs hnames hsound hc hp v
    obtain ⟨hlen₂, hregion⟩ :=
      region_shown hs hnames hsound hc hp hsoundFields _ hgrows hparts hbytes₂ hb₂
    refine ⟨by omega, hheader, fun u hu f hf => ?_, fun i hle hlt huncovered => ?_⟩
    · rcases List.mem_append.1 hu with hu | hu
      · exact hfields u hu f hf
      · obtain rfl := List.mem_singleton.1 hu
        have hshows := hregion.fields f hf (hstarts f hf)
        rwa [Nat.zero_add] at hshows
    · rcases Nat.lt_or_ge i (c.typeDef base).size with hlt' | hge
      · exact hpadding i hle hlt' fun u hu => huncovered u (List.mem_append_left _ hu)
      · have hholds := hregion.padding i hge hlt
          (huncovered t (List.mem_append_right _ (List.mem_singleton.2 rfl)))
        rwa [Nat.zero_add] at hholds

/-! ## Arrays -/

/-- **Elements** are shown one after the other, at the distance that an element takes. -/
theorem elements_shown {element : TypeId} {ps : List Payload} {vs : List Value}
    (hvs : List.Forall₂ (fun p v => c.payload? c.contents? element p = some v) ps vs)
    (hchecked : ∀ v ∈ vs, s.Accepts (c.shapeOf element) v ∧ s.Faultless v) {lo : Nat}
    {bs : List UInt8} {rs : List Relocation} (hbytes : c.valuesBytes kind lo vs = .ok (bs, rs))
    (hb : b.Holds lo bs rs) :
    bs.length = ps.length * c.holdingSize element ∧ ∀ i p, ps[i]? = some p →
      c.Shows s.Denotes kind b element (some p) (lo + i * c.holdingSize element) := by
  induction hvs generalizing lo bs rs with
  | nil =>
    obtain ⟨rfl, rfl⟩ := Catalog.valuesBytes_nil_eq_ok_iff.1 hbytes
    refine ⟨(Nat.zero_mul _).symm, fun i p hi => ?_⟩
    cases hi
  | @cons p v ps vs hv _ ih =>
    obtain ⟨bs₁, rs₁, bs₂, rs₂, hbytes₁, hb₁, hbytes₂, hb₂, hlen⟩ :=
      Catalog.holds_cons hp hbytes hb
    obtain ⟨haccepts, hfaultless⟩ := hchecked v List.mem_cons_self
    obtain ⟨hlen₁, hshows⟩ := payload_shown hs hnames hsound hc hv haccepts hfaultless
      (part_shown hs hnames hsound hc hp v) hbytes₁ hb₁
    obtain ⟨hlen₂, hrest⟩ := ih (fun v hv => hchecked v (List.mem_cons_of_mem _ hv)) hbytes₂ hb₂
    refine ⟨?_, fun i q hi => ?_⟩
    · rw [hlen, hlen₁, hlen₂, List.length_cons, Nat.succ_mul, Nat.add_comm]
    · cases i with
      | zero =>
        obtain rfl := Option.some.inj hi
        rwa [Nat.zero_mul, Nat.add_zero]
      | succ i =>
        have hshows' := hrest i q hi
        rwa [hlen₁, Nat.add_assoc, Nat.add_comm (c.holdingSize element), ← Nat.succ_mul] at hshows'

/-- An array shows its header, its length and its elements. -/
theorem array_shown {a : ArrayValue} {v : Value} (hv : c.array? c.contents? a = some v)
    (hfaultless : s.Faultless v)
    (hbytes : c.valueBytes kind 0 v = .ok (b.bytes, b.relocations))
    (hb : b.Holds 0 b.bytes b.relocations) : c.Pictures s.Denotes kind b (.array a) := by
  obtain ⟨element, base, elements, hkind, hbase, helements, -, rfl⟩ :=
    Catalog.array?_eq_some_iff.1 hv
  obtain ⟨header, length, hheader, hlength, -, rfl⟩ := Catalog.arrayBase?_eq_some_iff.1 hbase
  obtain ⟨ps, hlen, hpayload, hps⟩ := Catalog.forall₂_of_elements? helements
  have hinner := hfaultless.anon
  obtain ⟨-, -, -, hfaultless'⟩ := (hinner _ List.mem_cons_self).named hs.toLaidOut hnames
  obtain ⟨bs₁, rs₁, bs₂, rs₂, hbytes₁, hb₁, hbytes₂, hb₂, hlen'⟩ :=
    Catalog.holds_cons hp hbytes hb
  obtain ⟨bs₃, rs₃, bs₄, rs₄, hbytes₃, hb₃, hbytes₄, hb₄, hlen₁⟩ :=
    Catalog.holds_cons hp hbytes₁ hb₁
  obtain ⟨hlen₃, hshows⟩ := header_shown hs hnames hc hp hheader
    (hfaultless' header List.mem_cons_self) hbytes₃ hb₃
  have hscalar : (c.typeDef Core.int32).isScalar = true := hc.isScalar_core rfl rfl
  have hsize : (c.typeDef Core.int32).size = 4 := by rw [hc.size_core rfl]; rfl
  rw [hc.type_arrayLength] at hlength
  rw [Catalog.valuesBytes_singleton, Catalog.valueBytes_scalar _ _ hscalar hlength, hsize]
    at hbytes₄
  obtain ⟨-, rfl, rfl⟩ := Module.place_eq_ok_iff.1 hbytes₄
  rw [Bits.length_littleEndian, hlen₃] at hlen₁
  rw [hlen₃, Nat.zero_add] at hb₄
  rw [Catalog.valuesBytes_singleton, hlen₁, Nat.zero_add] at hbytes₂
  rw [hlen₁, Nat.zero_add] at hb₂
  obtain ⟨hlen₂, helements'⟩ := elements_shown hs hnames hsound hc hp hps
    (hinner _ (List.mem_cons_of_mem _ (List.mem_singleton.2 rfl))).array hbytes₂ hb₂
  refine .array hkind (by rw [hlen', hlen₁, hlen₂, hlen]) hshows hb₄ fun i hi => ?_
  rw [← hlen] at hi
  exact ⟨ps[i], by rw [hpayload, List.getElem?_eq_getElem hi],
    helements' i _ (List.getElem?_eq_getElem hi)⟩

/-! ## Values -/

/-- **A blob with the bytes of contents that were checked is the picture of the value.** -/
theorem pictures_of_valueBytes {d : DescriptorId} {w : Descriptor} (hw : c.descriptor? d = some w)
    (hstring : w.context ≠ Core.string) {v : Value} (hv : c.contents? d = some v)
    (hfaultless : s.Faultless v) (hbytes : c.valueBytes kind 0 v = .ok (b.bytes, b.relocations)) :
    c.Pictures s.Denotes kind b w := by
  have hb := Blob.holds_self (Catalog.within_valueBytes hp hbytes)
  have hvalue := hv
  rw [Catalog.contents?_eq, hw, Option.bind_some] at hvalue
  cases w with
  | array a => exact array_shown hs hnames hsound hc hp hvalue hfaultless hbytes hb
  | object o =>
    obtain ⟨a, top, ha, htop, hbelow⟩ := Catalog.object?_eq_some_iff.1 hvalue
    rcases Catalog.kind_of_ancestry ha with hkind | hkind
    · obtain ⟨ts, hchain⟩ := hsound.rooted _ hkind
      obtain rfl := Except.ok.inj (ha.symm.trans (hchain.ancestry_eq hc))
      obtain ⟨-, hheader⟩ | ⟨hne, -⟩ := Catalog.top?_eq_some_iff.1 htop
      · obtain ⟨hlen, hshows, hfields, hpadding⟩ := chain_shown hs hnames hsound hc hp hheader
          hchain hstring hbelow hfaultless hbytes hb
        exact .instanceOfClass hchain hlen hshows hfields hpadding
      · exact absurd rfl hne
    · obtain ⟨hlen, hregion⟩ := part_shown hs hnames hsound hc hp v d o 0 b.bytes b.relocations hw
        hkind hv hfaultless hbytes hb
      refine .instanceOfValueType hkind hlen (fun f hf => ?_) fun i hi huncovered => ?_
      · have hshows := hregion.fields f hf (Nat.zero_le _)
        rwa [Nat.zero_add] at hshows
      · have hholds := hregion.padding i (Nat.zero_le _) hi huncovered
        rwa [Nat.zero_add] at hholds

end Image

end DataImage
