import DataImage.Proofs.Catalog.Leaves
import DataImage.Proofs.Image.Checked

/-!
# Fields in a blob

Contents that were checked by a verification, lowered to bytes and held by a blob, show there what
the fields and elements of a value hold (`Image.payload_shown`, `Image.held_shown`). The walk over
the region of a type meets each declared field at its offset, and each byte that no field covers as
padding (`Image.region_shown`).
-/

namespace DataImage

namespace Image

/-- Whether a symbol names the global of a value. -/
def Denotes (s : Image) (d : DescriptorId) (symbol : String) : Prop :=
  ∃ g, s.global? d = some g ∧ s.module.globalName g = symbol

/-- Whether a blob shows what the fields of a type's region hold from an offset on. -/
structure ShowsRegion (c : Catalog) (s : Image) (kind : RelocationKind) (b : Blob) (o : ObjectValue)
    (t : TypeId) (lo offset : Nat) : Prop where
  fields : ∀ f, c.DeclaresField t f → offset ≤ (c.field f).offset →
    c.Shows s.Denotes kind b (c.field f).type (o.fields.lookup f) (lo + (c.field f).offset)
  padding : ∀ i, offset ≤ i → i < (c.typeDef t).size →
    (∀ f, c.DeclaresField t f → ¬ c.Covers f i) → b.Holds (lo + i) [0xab] []

/-- Whether a blob that holds the contents of an instance of a value type shows its fields. -/
def ShowsPart (c : Catalog) (s : Image) (kind : RelocationKind) (b : Blob) (v : Value) : Prop :=
  ∀ d o lo bs rs, c.descriptor? d = some (.object o) →
    (c.typeDef o.context).kind = .valueType → c.contents? d = some v → s.Faultless v →
    c.valueBytes kind lo v = .ok (bs, rs) → b.Holds lo bs rs →
    bs.length = (c.typeDef o.context).size ∧ ShowsRegion c s kind b o o.context lo 0

variable {c : Catalog} {known : TypeId → Prop} {s : Image} {kind : RelocationKind} {b : Blob}

/-- An address that was checked is that of a global with the name of the value. -/
theorem Faultless.denotes (hs : s.Registered c) {d : DescriptorId}
    (h : s.Faultless (.reference d)) : s.Denotes d (c.nameOf d) := by
  obtain ⟨g, hg⟩ := h.reference
  have hname := hs.globalName_eq hg
  rw [hs.resolve (Partial.mem_of_lookup_eq_some hg)] at hname
  exact ⟨g, hg, hname⟩

variable (hs : s.Coherent c known) (hnames : c.DistinctNames known) (hsound : c.SoundGeometry)
  (hc : c.Rooted)

include hs hnames hsound hc

/-! ## Fields and elements -/

/-- What a payload becomes shows the payload. -/
theorem payload_shown {t : TypeId} {p : Payload} {v : Value}
    (hv : c.payload? c.contents? t p = some v) (haccepts : s.Accepts (c.shapeOf t) v)
    (hfaultless : s.Faultless v) (ih : ShowsPart c s kind b v) {lo : Nat} {bs : List UInt8}
    {rs : List Relocation} (hbytes : c.valueBytes kind lo v = .ok (bs, rs))
    (hb : b.Holds lo bs rs) :
    bs.length = c.holdingSize t ∧ c.Shows s.Denotes kind b t (some p) lo := by
  cases p with
  | null =>
    rw [hsound.valueBytes_null hc hv] at hbytes
    obtain ⟨-, rfl, rfl⟩ := Module.place_eq_ok_iff.1 hbytes
    exact ⟨List.length_replicate, .null hb⟩
  | scalar raw =>
    rw [Catalog.payload?] at hv
    split at hv
    · rename_i hscalar
      rw [Catalog.valueBytes_scalar _ _ hscalar hv] at hbytes
      obtain ⟨-, rfl, rfl⟩ := Module.place_eq_ok_iff.1 hbytes
      refine ⟨?_, .scalar hscalar hb⟩
      rw [Bits.length_littleEndian,
        Catalog.holdingSize_of_inPlace (Catalog.inPlace_of_isScalar hscalar)]
    · cases hv
  | code p => cases hv
  | descriptor d =>
    obtain ⟨w, hw, hpart⟩ := Option.bind_eq_some_iff.1 hv
    split at hpart
    · rename_i hnested
      obtain ⟨o, rfl, hcontext, hkind⟩ :=
        haccepts.object_of_contents hs.toLaidOut hnames hsound hc hw hpart
      subst hcontext
      obtain ⟨hlen, hregion⟩ := ih d o lo bs rs hw hkind hpart hfaultless hbytes hb
      refine ⟨?_, .part hw hnested rfl hkind
        (fun f hf => hregion.fields f hf (Nat.zero_le _))
        fun i hi huncovered => hregion.padding i (Nat.zero_le _) hi huncovered⟩
      rw [hlen, Catalog.holdingSize_of_inPlace (Catalog.inPlace_of_valueType hkind)]
    · rename_i hnested
      obtain rfl := Option.some.inj hpart
      have hheld := haccepts.held rfl
      obtain ⟨-, rfl, rfl⟩ := Module.place_eq_ok_iff.1 hbytes
      refine ⟨?_, .reference hw (Bool.eq_false_iff.2 hnested) hheld
        (hfaultless.denotes hs.toRegistered) hb⟩
      rw [List.length_replicate, Catalog.holdingSize_of_held hheld]
      rfl

/-- What a field becomes shows what the field holds. -/
theorem held_shown {o : ObjectValue} {f : FieldId} {v : Value}
    (hv : c.held? c.contents? f (o.fields.lookup f) = some v)
    (haccepts : s.Accepts (c.shapeOf (c.field f).type) v) (hfaultless : s.Faultless v)
    (ih : ShowsPart c s kind b v) {lo : Nat} {bs : List UInt8} {rs : List Relocation}
    (hbytes : c.valueBytes kind lo v = .ok (bs, rs)) (hb : b.Holds lo bs rs) :
    bs.length = c.holdingSize (c.field f).type ∧
      c.Shows s.Denotes kind b (c.field f).type (o.fields.lookup f) lo := by
  cases hp : o.fields.lookup f with
  | none =>
    rw [hp, Catalog.held?] at hv
    rw [hsound.valueBytes_zero hc hv] at hbytes
    obtain ⟨-, rfl, rfl⟩ := Module.place_eq_ok_iff.1 hbytes
    exact ⟨List.length_replicate, .absent hb⟩
  | some p =>
    rw [hp] at hv
    cases p with
    | code p =>
      obtain ⟨m, hm, hsize, hcode⟩ := hc.valueBytes_codeField kind lo hv
      rw [hcode] at hbytes
      obtain ⟨-, rfl, rfl⟩ := Module.place_eq_ok_iff.1 hbytes
      refine ⟨?_, .code hm hsize hb⟩
      rw [List.length_replicate, hsize]
      rfl
    | null | scalar | descriptor =>
      rw [Catalog.held?] at hv
      exact payload_shown hs hnames hsound hc hv haccepts hfaultless ih hbytes hb

/-! ## Regions -/

omit hs hnames hsound hc

/-- What was built for a part of a region, and checked. -/
structure PartBuilt (c : Catalog) (s : Image) (kind : RelocationKind) (b : Blob) (o : ObjectValue)
    (part : Part) (v : Value) : Prop where
  value : c.partValue? c.contents? o part = some v
  accepts : ∃ slot, c.partShape? part = some slot ∧ s.Accepts slot v
  faultless : s.Faultless v
  shows : ShowsPart c s kind b v

theorem forall₂_partBuilt {o : ObjectValue} {parts : List Part} {vs : List Value}
    {slots : List Shape}
    (hvs : List.Forall₂ (fun p v => c.partValue? c.contents? o p = some v) parts vs)
    (hslots : List.Forall₂ (fun p slot => c.partShape? p = some slot) parts slots)
    (haccepts : List.Forall₂ s.Accepts slots vs) (hfaultless : ∀ v ∈ vs, s.Faultless v)
    (hshows : ∀ v ∈ vs, ShowsPart c s kind b v) :
    List.Forall₂ (PartBuilt c s kind b o) parts vs := by
  induction hvs generalizing slots with
  | nil => exact .nil
  | cons hv _ ih =>
    obtain ⟨slot, slots', hslot, hslots', rfl⟩ := List.forall₂_cons_left_iff.1 hslots
    obtain ⟨haccept, haccepts'⟩ := List.forall₂_cons.1 haccepts
    refine .cons ⟨hv, ⟨slot, hslot, haccept⟩, hfaultless _ List.mem_cons_self,
      hshows _ List.mem_cons_self⟩ (ih hslots' haccepts' ?_ ?_)
    · exact fun v hv => hfaultless v (List.mem_cons_of_mem _ hv)
    · exact fun v hv => hshows v (List.mem_cons_of_mem _ hv)

section

variable {o : ObjectValue} {t : TypeId} {lo offset : Nat}

/-- Behind the end of a type nothing is left to be shown. -/
theorem showsRegion_done (hfields : c.SoundFields t) (hdone : (c.typeDef t).size ≤ offset) :
    ShowsRegion c s kind b o t lo offset where
  fields := fun f hf hle => by
    have hend := hfields.ends f hf
    have hsize := hfields.nonempty f hf
    omega
  padding := fun i hle hlt => by omega

/-- A byte of padding, and what follows it. -/
theorem ShowsRegion.of_padding (hnone : c.fieldAt? t offset = none)
    (hb : b.Holds (lo + offset) [0xab] [])
    (hrest : ShowsRegion c s kind b o t lo (offset + 1)) :
    ShowsRegion c s kind b o t lo offset where
  fields := fun f hf hle => by
    have hne := Catalog.fieldAt?_eq_none hnone hf
    exact hrest.fields f hf (by omega)
  padding := fun i hle hlt huncovered => by
    rcases Nat.eq_or_lt_of_le hle with rfl | hlt'
    · exact hb
    · exact hrest.padding i hlt' hlt huncovered

/-- A field, and what follows it. No other field starts inside the field. -/
theorem ShowsRegion.of_field (hfields : c.SoundFields t) {f : FieldId}
    (hf : c.fieldAt? t offset = some f)
    (hshows : c.Shows s.Denotes kind b (c.field f).type (o.fields.lookup f) (lo + offset))
    (hrest : ShowsRegion c s kind b o t lo (offset + c.holdingSize (c.field f).type)) :
    ShowsRegion c s kind b o t lo offset := by
  obtain ⟨hdeclared, hstart⟩ := Catalog.fieldAt?_eq_some hf
  refine ⟨fun g hg hle => ?_, fun i hle hlt huncovered => ?_⟩
  · by_cases hgf : g = f
    · rw [hgf, hstart]
      exact hshows
    · have hdisjoint := hfields.disjoint f g hdeclared hg (Ne.symm hgf)
      have hsize := hfields.nonempty g hg
      exact hrest.fields g hg (by omega)
  · refine hrest.padding i ?_ hlt huncovered
    by_contra hcovered
    exact huncovered f hdeclared ⟨by omega, by omega⟩

end

include hs hnames hsound hc

/-- **The walk over a region** meets each declared field at its offset, and padding elsewhere. -/
theorem region_shown (hp : c.pointerSize ≠ 0) {o : ObjectValue} {t : TypeId} {lo : Nat}
    (hfields : c.SoundFields t) (offset : Nat) (hoffset : offset ≤ (c.typeDef t).size)
    {vs : List Value} (hparts : List.Forall₂ (PartBuilt c s kind b o) (c.region t offset) vs)
    {bs : List UInt8} {rs : List Relocation}
    (hbytes : c.valuesBytes kind (lo + offset) vs = .ok (bs, rs))
    (hb : b.Holds (lo + offset) bs rs) :
    bs.length = (c.typeDef t).size - offset ∧ ShowsRegion c s kind b o t lo offset := by
  revert hoffset vs bs rs
  refine Catalog.region_induction (P := fun offset parts => offset ≤ (c.typeDef t).size →
    ∀ {vs : List Value}, List.Forall₂ (PartBuilt c s kind b o) parts vs →
    ∀ {bs : List UInt8} {rs : List Relocation},
    c.valuesBytes kind (lo + offset) vs = .ok (bs, rs) → b.Holds (lo + offset) bs rs →
    bs.length = (c.typeDef t).size - offset ∧ ShowsRegion c s kind b o t lo offset)
    ?done ?padding ?field ?zeroSized ?overflow offset
  case done =>
    intro offset hdone _ vs hparts bs rs hbytes _
    obtain rfl := List.forall₂_nil_left_iff.1 hparts
    obtain ⟨rfl, rfl⟩ := Catalog.valuesBytes_nil_eq_ok_iff.1 hbytes
    exact ⟨(Nat.sub_eq_zero_of_le hdone).symm, showsRegion_done hfields hdone⟩
  case padding =>
    intro offset hlt hnone ih _ vs hparts bs rs hbytes hb
    obtain ⟨v, vs', hpart, hparts', rfl⟩ := List.forall₂_cons_left_iff.1 hparts
    obtain ⟨bs₁, rs₁, bs₂, rs₂, hbytes₁, hb₁, hbytes₂, hb₂, hlen⟩ :=
      Catalog.holds_cons hp hbytes hb
    have hscalar : (c.typeDef Core.byte).isScalar = true := hc.isScalar_core rfl rfl
    have hsize : (c.typeDef Core.byte).size = 1 := by rw [hc.size_core rfl]; rfl
    rw [Catalog.valueBytes_scalar _ _ hscalar hpart.value, hsize] at hbytes₁
    obtain ⟨-, rfl, rfl⟩ := Module.place_eq_ok_iff.1 hbytes₁
    rw [Bits.length_littleEndian] at hbytes₂ hb₂ hlen
    obtain ⟨hlen', hrest⟩ := ih (by omega) hparts' hbytes₂ hb₂
    exact ⟨by omega, hrest.of_padding hnone hb₁⟩
  case field =>
    intro offset f hlt hf _ _ ih _ vs hparts bs rs hbytes hb
    obtain ⟨hdeclared, hstart⟩ := Catalog.fieldAt?_eq_some hf
    have hend := hfields.ends f hdeclared
    obtain ⟨v, vs', hpart, hparts', rfl⟩ := List.forall₂_cons_left_iff.1 hparts
    obtain ⟨slot, hslot, haccepts⟩ := hpart.accepts
    obtain rfl := Option.some.inj hslot
    obtain ⟨bs₁, rs₁, bs₂, rs₂, hbytes₁, hb₁, hbytes₂, hb₂, hlen⟩ :=
      Catalog.holds_cons hp hbytes hb
    obtain ⟨hlen₁, hshows⟩ := held_shown hs hnames hsound hc hpart.value haccepts hpart.faultless
      hpart.shows hbytes₁ hb₁
    rw [hlen₁, Nat.add_assoc] at hbytes₂ hb₂
    obtain ⟨hlen', hrest⟩ := ih (by omega) hparts' hbytes₂ hb₂
    exact ⟨by omega, .of_field hfields hf hshows hrest⟩
  case zeroSized =>
    intro offset f _ _ _ _ vs hparts
    obtain ⟨v, vs', hpart, -, rfl⟩ := List.forall₂_cons_left_iff.1 hparts
    obtain ⟨slot, hslot, -⟩ := hpart.accepts
    cases hslot
  case overflow =>
    intro offset f _ _ _ _ vs hparts
    obtain ⟨v, vs', hpart, -, rfl⟩ := List.forall₂_cons_left_iff.1 hparts
    obtain ⟨slot, hslot, -⟩ := hpart.accepts
    cases hslot

end Image

end DataImage
