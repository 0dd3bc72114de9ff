import DataImage.Proofs.Build.Declaring
import DataImage.Proofs.Build.Failures
import DataImage.Proofs.Build.Order
import DataImage.Proofs.Catalog.Acyclic
import DataImage.Proofs.Catalog.WellTypedContents
import DataImage.Proofs.Image.Verified
import DataImage.Proofs.Module.Lowering

/-!
# Images of well-typed values

Well-typed values that can be referred to are available (`Catalog.Encodable.available`), so the
build of an image from such roots succeeds, and a verification finds nothing in its module
(`Build.verified_of_wellTyped`).
-/

namespace DataImage

variable {c : Catalog} {known : TypeId → Prop} {values : DescriptorId → Prop} {s : Image}

/-- Values that can be referred to, with contents that conform to their types and refer to such
values only. -/
structure Catalog.Conforming (c : Catalog) (values : DescriptorId → Prop) : Prop where
  contents : ∀ d, values d → ∃ v w, c.descriptor? d = some v ∧ v.isNested = false ∧
    c.Laid v.context ∧ c.contents? d = some w ∧ c.Conforms values w ∧
    (v.takesTypeFromContents = false → w.shape? = some (.layout v.context))

/-- Values whose contents conform are available. -/
theorem Catalog.Conforming.available (h : c.Conforming values) : c.Available values := by
  refine ⟨fun d hd => ?_⟩
  obtain ⟨v, w, hv, hnested, hlaid, hw, hconforms, -⟩ := h.contents d hd
  exact ⟨v, w, hv, hnested, hlaid, hw, hconforms.references⟩

/-- Well-typed values that can be referred to have contents that conform. -/
theorem Catalog.Encodable.conforming (h : c.Encodable values) (hc : c.WellDeclared)
    (hs : c.Scoped) : c.Conforming (c.Referable values) := by
  refine ⟨fun d hmem => ?_⟩
  obtain ⟨hd, v, hv, hnested⟩ := hmem
  obtain ⟨w, hw, hconforms, hlaid, hshape⟩ := h.contents hc hs hd hv
  exact ⟨v, w, hv, hnested, hlaid, hw, hconforms, hshape⟩

/-- Well-typed values can be built, and refer only to such values. -/
theorem Catalog.Encodable.available (h : c.Encodable values) (hc : c.WellDeclared)
    (hs : c.Scoped) : c.Available (c.Referable values) :=
  (h.conforming hc hs).available

/-- The global of a value whose contents conform has no faults. -/
theorem Image.initializerFaults_eq_nil (hs : s.Coherent c known) (hnames : c.DistinctNames known)
    (hwidth : s.module.nativeBits = c.pointerSize * 8) {d : DescriptorId} {v : Descriptor}
    {x : Global} (hstands : s.Stands c d v x) (hfilled : x.initializer.isSome = true) {w : Value}
    (hw : c.contents? d = some w) (hconforms : c.Conforms values w)
    (hshape : v.takesTypeFromContents = false → w.shape? = some (.layout v.context)) :
    s.module.initializerFaults x = [] := by
  obtain ⟨k, hk⟩ := Option.isSome_iff_exists.1 hfilled
  obtain ⟨w', hw', hwk, htype⟩ := hstands.filled k hk
  obtain rfl := Option.some.inj (hw.symm.trans hw')
  refine Module.initializerFaults_eq_nil_iff.2
    ⟨k, hk, ?_, constantFaults_eq_nil hwidth hs hnames hconforms hwk⟩
  have hsame : x.type = k.type := by
    cases htakes : v.takesTypeFromContents with
    | true => exact htype htakes
    | false =>
      obtain ⟨id, hid, htyped⟩ := hstands.typed htakes
      have hstorage := storage?_of_shape? hwk (hshape htakes)
      rw [storage?, hid, Option.map_some] at hstorage
      rw [htyped]
      exact Option.some.inj hstorage
  rw [hsame]
  exact Module.compatible_self _

/-- **A complete image of values whose contents conform passes the verification.** -/
theorem Image.Complete.isOk_verify_of_conforming (h : c.Conforming values)
    (hc : c.WellDeclared) (hwidth : c.pointerSize ≠ 0) {roots : List DescriptorId}
    (hroots : ∀ r ∈ roots, values r)
    (himage : s.Complete c (fun t => t.index < c.types.length) roots) :
    s.module.verify.isOk = true := by
  refine Module.isOk_verify_iff.2 ⟨fun entry hlive => ?_, fun a ha => ?_, ?_⟩
  · obtain ⟨g, x⟩ := entry
    obtain ⟨hx, hlive⟩ := mem_live_iff.1 hlive
    obtain ⟨d, hd⟩ := himage.live _ x hx hlive
    obtain ⟨v, y, hv, hy, hstands⟩ := himage.stands d g hd
    obtain rfl := Option.some.inj (hx.symm.trans hy)
    obtain ⟨z, hz, hfilled⟩ := himage.filled d g hd
    obtain rfl := Option.some.inj (hx.symm.trans hz)
    obtain ⟨r, hr, hreach⟩ := (himage.reached d).1 (List.mem_map.2 ⟨_, hd, rfl⟩)
    obtain ⟨v', w, hv', -, -, hw, hconforms, hshape⟩ :=
      h.contents d (h.available.reaches (hroots r hr) hreach)
    obtain rfl := Option.some.inj (hv.symm.trans hv')
    exact initializerFaults_eq_nil himage.toCoherent hc.distinctNames himage.width hstands hfilled
      hw hconforms hshape
  · rw [himage.aliases] at ha
    exact absurd ha List.not_mem_nil
  · refine Module.widthFaults_eq_nil_iff.2 ?_
    rw [himage.width]
    omega

/-- **A complete image of well-typed values passes the verification.** -/
theorem Image.Complete.isOk_verify (h : c.Encodable values) (hc : c.WellDeclared) (hs : c.Scoped)
    {roots : List DescriptorId} (hroots : ∀ r ∈ roots, c.Referable values r)
    (himage : s.Complete c (fun t => t.index < c.types.length) roots) :
    s.module.verify.isOk = true :=
  himage.isOk_verify_of_conforming (h.conforming hc hs) hc (h.pointerSize_le hc.toRooted).1
    hroots

/-- The layout of data of a module is that of its catalog. -/
theorem Image.ofModule_eq (hwidth : s.module.nativeBits = c.pointerSize * 8) :
    DataLayout.ofModule s.module = c.dataLayout := by
  rw [DataLayout.ofModule, hwidth, Nat.mul_div_cancel _ (by decide), Catalog.dataLayout]

/-- There is room for the globals of a complete image if there is for the values reached. -/
theorem Image.Complete.fitsMemory (hc : c.WellDeclared) {roots : List DescriptorId}
    (himage : s.Complete c (fun t => t.index < c.types.length) roots)
    (hroom : ∀ d v w, c.ReachedFrom roots d → c.descriptor? d = some v → c.contents? d = some w →
      c.globalSize v w < 2 ^ 63) :
    ∀ e ∈ s.module.live, s.module.FitsMemory (.ofModule s.module) e.2 := by
  rintro ⟨g, x⟩ hlive
  obtain ⟨hx, hlive⟩ := mem_live_iff.1 hlive
  obtain ⟨d, hd⟩ := himage.live _ x hx hlive
  have hfilled := himage.filled d g hd
  obtain ⟨v, w, hv, hw, -⟩ :=
    globalBlob_eq hc.distinctNames himage.toCoherent hd hfilled .abs32
  have hsize := sizeOf_global hc.distinctNames himage.toCoherent hd hfilled hv hw
  rw [Module.global_eq_of_getElem? hx] at hsize
  rw [Module.fitsMemory_iff, ofModule_eq himage.width, hsize]
  exact hroom d v w ((himage.reached d).1 (List.mem_map.2 ⟨_, hd, rfl⟩)) hv hw

/-- **Values whose contents conform have blobs.** With pointers of four or eight bytes an image of
such values is complete, passes the verification and can be lowered, if there is room for them. -/
theorem Build.exists_lower_of_conforming (h : c.Conforming values) (hc : c.WellDeclared)
    (hs : c.Scoped) (hwidth : c.pointerSize = 4 ∨ c.pointerSize = 8) (name : String)
    (hroom : ∀ d v w, values d → c.descriptor? d = some v → c.contents? d = some w →
      c.globalSize v w < 2 ^ 63)
    {roots : List DescriptorId} (hroots : ∀ r ∈ roots, values r) :
    ∃ s bs, fromRoots c roots (Image.new c name) = .ok () s ∧ s.module.verify.isOk = true ∧
      s.module.lower (.ofModule s.module) = .ok bs := by
  have havailable : c.Available (c.ReachedFrom roots) := by
    refine ⟨fun d hd => ?_⟩
    obtain ⟨r, hr, hreach⟩ := hd
    obtain ⟨v, w, hv, hnested, hlaid, hw, -⟩ :=
      h.available.built d (h.available.reaches (hroots r hr) hreach)
    exact ⟨v, w, hv, hnested, hlaid, hw, fun e he => ⟨r, hr, hreach.tail ⟨w, hw, he⟩⟩⟩
  obtain ⟨s, hrun⟩ := fromRoots_succeeds (hc.closed hs) name havailable
  have himage := fromRoots_complete (hc.closed hs) hrun
  have hverify := himage.isOk_verify_of_conforming h hc (by omega) hroots
  have hbits := himage.width
  have hfits := himage.fitsMemory hc fun d v w ⟨r, hr, hreach⟩ =>
    hroom d v w (h.available.reaches (hroots r hr) hreach)
  obtain ⟨-, bs, -, hlower, -⟩ :=
    himage.toLaidOut.ordered.exists_lower (by omega) hverify hfits
  exact ⟨s, bs, hrun, hverify, hlower⟩

/-- **Images of well-typed values are verified.** Whatever the geometry of the types, as long as
words of 32 bits suffice for the offsets, each of the roots can be asked for with its contents,
everything that they refer to can be filled, and a verification finds no fault in the module. -/
theorem Build.verified_of_wellTyped (hc : c.Declared) (hs : c.Scoped) (h : c.WellTyped values)
    (hrange : c.InRange) (name : String) {roots : List DescriptorId}
    (hroots : ∀ r ∈ roots, c.Referable values r) :
    ∃ s, fromRoots c roots (Image.new c name) = .ok () s ∧ s.module.verify.isOk = true := by
  have hwell := hc.wellDeclared
  have hencodable : c.Encodable values := ⟨h, hrange⟩
  have havailable : c.Available (c.ReachedFrom roots) := by
    refine ⟨fun d hd => ?_⟩
    obtain ⟨r, hr, hreach⟩ := hd
    obtain ⟨v, w, hv, hnested, hlaid, hw, -⟩ := (hencodable.available hwell hs).built d
      ((hencodable.available hwell hs).reaches (hroots r hr) hreach)
    exact ⟨v, w, hv, hnested, hlaid, hw, fun e he => ⟨r, hr, hreach.tail ⟨w, hw, he⟩⟩⟩
  obtain ⟨s, hrun⟩ := fromRoots_succeeds (hwell.closed hs) name havailable
  exact ⟨s, hrun, (fromRoots_complete (hwell.closed hs) hrun).isOk_verify hencodable hwell hs
    hroots⟩

/-- Two nodes that refer to each other. -/
theorem Build.verified_of_wellTyped_pair : ∃ s,
    fromRoots Catalog.pair [⟨5⟩, ⟨6⟩] (Image.new Catalog.pair "Pair") = .ok () s ∧
      s.module.verify.isOk = true := by
  refine verified_of_wellTyped Catalog.pair_declared Catalog.pair_scoped Catalog.pair_wellTyped
    Catalog.pair_inRange "Pair" fun r hr => ?_
  rcases List.mem_cons.1 hr with rfl | hr
  · exact ⟨by decide +kernel, _, rfl, rfl⟩
  · obtain rfl := List.mem_singleton.1 hr
    exact ⟨by decide +kernel, _, rfl, rfl⟩

/-- **A well-typed value that cannot be built**: it has a field that ends where no word can point
to. -/
theorem Build.not_verified_wide : ¬ ∀ (c : Catalog) (values : DescriptorId → Prop), c.Declared →
    c.Scoped → c.pointerSize = 4 ∨ c.pointerSize = 8 → c.WellTyped values →
    ∀ (name : String) (roots : List DescriptorId), (∀ r ∈ roots, c.Referable values r) →
      ∃ s, fromRoots c roots (Image.new c name) = .ok () s := by
  intro hall
  have hfails : (fromRoots Catalog.wide [⟨4⟩]).failsWith (Image.new Catalog.wide "Wide")
      (fun _ => true) = true := by decide +kernel
  obtain ⟨f, s, hrun, -⟩ := exists_of_failsWith hfails
  obtain ⟨s', hrun'⟩ := hall Catalog.wide _ Catalog.wide_declared Catalog.wide_scoped (Or.inl rfl)
    Catalog.wide_wellTyped "Wide" [⟨4⟩] fun r hr => by
      obtain rfl := List.mem_singleton.1 hr
      exact ⟨by decide +kernel, _, rfl, rfl⟩
  rw [hrun] at hrun'
  cases hrun'

end DataImage
