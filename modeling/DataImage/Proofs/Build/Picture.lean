import DataImage.Proofs.Build.Calls
import DataImage.Proofs.Build.Order
import DataImage.Proofs.Image.Picture

/-!
# Images byte by byte

After any calls, also such as failed, and a successful filling of all that has a global, a module
that passes the verification is lowered to the pictures of its values (`Build.blob_pictures`): each
value with a global has one blob, under the name of the global, and the blob shows the value.
-/

namespace DataImage

variable {c : Catalog} {known : TypeId → Prop} {s : Image}

/-! ## Filled images -/

/-- What filling all values with a global leaves, after any calls. -/
theorem Call.resolved_of_resolveAll (hc : c.Closed known) {name : String} {calls : List Call}
    (hcalls : ∀ call ∈ calls, ∀ t ∈ call.types, known t) {n : Nat}
    (h : Build.resolveAll c (run c calls (Image.new c name)) = .ok n s) : s.Resolved c known := by
  obtain ⟨hsettles, hs⟩ := run_coherent hc (Image.coherent_new c known name) calls hcalls
  obtain ⟨hsettles', hs', hfilled, -⟩ := (Build.resolveAll_advances hc hs).of_ok h
  exact ⟨hs', hsettles'.width.trans hsettles.width, hsettles'.aliases.trans hsettles.aliases,
    hfilled⟩

namespace Image

/-- A verification that finds nothing has checked the contents of every value with a global. -/
theorem Resolved.faultless (h : s.Resolved c known) (hverify : s.module.verify.isOk = true)
    {d : DescriptorId} {g : GlobalId} (hd : (d, g) ∈ s.entries) {w : Value}
    (hw : c.contents? d = some w) : s.Faultless w := by
  obtain ⟨v, x, -, hx, hstands⟩ := h.stands d g hd
  have hlive := mem_live_iff.2 ⟨hx, hstands.live⟩
  obtain ⟨k, hk, -, hfaults⟩ :=
    Module.initializerFaults_eq_nil_iff.1 ((Module.isOk_verify_iff.1 hverify).1 _ hlive)
  obtain ⟨w', hw', hwk, -⟩ := hstands.filled k hk
  obtain rfl := Option.some.inj (hw.symm.trans hw')
  exact ⟨k, hwk, hfaults⟩

end Image

/-! ## Blobs of values -/

namespace Catalog

/-- What is in the blob of a value. -/
theorem blob_eq_ok {kind : RelocationKind} {d : DescriptorId} {b : Blob}
    (h : c.blob kind d = .ok b) : ∃ v w, c.descriptor? d = some v ∧ c.contents? d = some w ∧
      c.valueBytes kind 0 w = .ok (b.bytes, b.relocations) ∧ b.name = c.globalName d v ∧
      b.writable = v.isMutable := by
  unfold blob at h
  split at h
  · rename_i v w hv hw
    refine ⟨v, w, hv, hw, ?_⟩
    unfold blobOf at h
    cases hbytes : c.valueBytes kind 0 w with
    | error e => rw [hbytes] at h; cases h
    | ok p =>
      obtain ⟨bytes, relocations⟩ := p
      rw [hbytes] at h
      simp only [bind, Except.bind, pure, Except.pure] at h
      cases hsize : Module.knownSize (word? (c.globalSize v w)) with
      | error e => rw [hsize] at h; cases h
      | ok size =>
        simp only [hsize] at h
        split at h
        · cases h
        · obtain rfl := Except.ok.inj h
          exact ⟨rfl, rfl, rfl⟩
  · cases h

/-- Blobs of different values have different names. -/
theorem eq_of_blob_name {kind : RelocationKind} {d e : DescriptorId} {b b' : Blob}
    (hb : c.blob kind d = .ok b) (hb' : c.blob kind e = .ok b') (hname : b'.name = b.name) :
    b' = b := by
  obtain ⟨v, -, -, -, -, hv, -⟩ := blob_eq_ok hb
  obtain ⟨v', -, -, -, -, hv', -⟩ := blob_eq_ok hb'
  obtain rfl := c.globalName_injective (hv'.symm.trans (hname.trans hv))
  exact (Except.ok.inj (hb.symm.trans hb')).symm

end Catalog

namespace Build

/-- **Every blob is the picture of its value.** Take a catalog with sound geometry, any calls that
name types of the catalog, whether they fail or not, and a successful filling of all that has a
global. If a verification finds nothing in the module and the module has blobs, then each value with
a global, other than a string, has exactly one blob of the name of the global. It can be written to
if the value can, its relocations lie on its bytes, and it is the picture of the value, where
addresses are by the names of globals. -/
theorem blob_pictures (hc : c.Declared) (hscoped : c.Scoped) (hsound : c.SoundGeometry)
    {calls : List Call} (hcalls : ∀ call ∈ calls, ∀ t ∈ call.types, t.index < c.types.length)
    {name : String} {n : Nat} (hrun : resolveAll c (Call.run c calls (Image.new c name)) = .ok n s)
    (hverify : s.module.verify.isOk = true) {blobs : List Blob}
    (hlower : s.module.lower (.ofModule s.module) = .ok blobs) {d : DescriptorId} {g : GlobalId}
    (hd : s.global? d = some g) (hstring : c.contextOf d ≠ Core.string) :
    ∃ v kind b, c.descriptor? d = some v ∧
      RelocationKind.ofPointerBytes? c.pointerSize = some kind ∧
      (b ∈ blobs ∧ b.name = s.module.globalName g ∧
        ∀ b' ∈ blobs, b'.name = s.module.globalName g → b' = b) ∧
      b.writable = v.isMutable ∧ (∀ r ∈ b.relocations, r.offset < b.bytes.length) ∧
      c.Pictures s.Denotes kind b v := by
  have hrooted := hc.wellDeclared.toRooted
  have himage := Call.resolved_of_resolveAll (hrooted.closed hscoped) hcalls hrun
  have hmem := Partial.mem_of_lookup_eq_some hd
  obtain ⟨ds, hperm, hds⟩ := himage.lower_eq hrooted.distinctNames
  rw [hlower, Catalog.blobs] at hds
  cases hkind : RelocationKind.ofPointerBytes? c.pointerSize with
  | none => rw [hkind] at hds; cases hds
  | some kind =>
    rw [hkind] at hds
    have hall := Partial.mapM_eq_ok_iff.1 hds.symm
    have hd' : d ∈ ds := hperm.mem_iff.2 (List.mem_map.2 ⟨_, hmem, rfl⟩)
    obtain ⟨b, hb, hblob⟩ := Partial.exists_of_forall₂_right hall.flip hd'
    obtain ⟨v, w, hv, hw, hbytes, hname, hwritable⟩ := Catalog.blob_eq_ok hblob
    have hp : c.pointerSize ≠ 0 := by
      intro hzero
      rw [hzero] at hkind
      cases hkind
    have hglobal : s.module.globalName g = c.globalName d v := by
      have hnameOf := himage.globalName_eq hd
      rwa [himage.resolve hmem, Catalog.nameOf, hv] at hnameOf
    have hcontext : v.context ≠ Core.string := by
      rwa [Catalog.contextOf, List.getD_eq_getElem?_getD,
        show c.descriptors[d.index]? = some v from hv, Option.getD_some] at hstring
    refine ⟨v, kind, b, hv, rfl, ⟨hb, hname.trans hglobal.symm, fun b' hb' hname' => ?_⟩,
      hwritable, fun r hr => ?_, Image.pictures_of_valueBytes himage.toCoherent
        hrooted.distinctNames hsound hrooted hp hv hcontext hw (himage.faultless hverify hmem hw)
        hbytes⟩
    · obtain ⟨e, -, he⟩ := Partial.exists_of_forall₂_right hall hb'
      exact Catalog.eq_of_blob_name hblob he (hname'.trans (hglobal.trans hname.symm))
    · have hwithin := Relocation.within_iff.1 (Catalog.within_valueBytes hp hbytes r hr)
      rw [Nat.zero_add] at hwithin
      exact hwithin.2

/-- Of two nodes that refer to each other one is asked for. The image has both, and the blob of the
second shows where the first lies. -/
theorem blob_pictures_pair : ∃ (s : Image) (n : Nat) (v : Descriptor) (b : Blob),
    resolveAll Catalog.pair (Call.run Catalog.pair [.materialize ⟨5⟩]
      (Image.new Catalog.pair "Pair")) = .ok n s ∧
      Catalog.pair.descriptor? ⟨6⟩ = some v ∧ Catalog.pair.Pictures s.Denotes .abs32 b v := by
  have hrun : (match resolveAll Catalog.pair (Call.run Catalog.pair [.materialize ⟨5⟩]
      (Image.new Catalog.pair "Pair")) with
      | .ok _ s => s.module.verify.isOk && (s.global? ⟨6⟩).isSome &&
        (s.module.lower (.ofModule s.module)).isOk
      | .error _ _ => false) = true := by decide +kernel
  have hcalls : ∀ call ∈ [Call.materialize ⟨5⟩], ∀ t ∈ call.types,
      t.index < Catalog.pair.types.length := by decide
  cases h : resolveAll Catalog.pair (Call.run Catalog.pair [.materialize ⟨5⟩]
      (Image.new Catalog.pair "Pair")) with
  | error f s =>
    rw [h] at hrun
    cases hrun
  | ok n s =>
    rw [h] at hrun
    simp only [Bool.and_eq_true] at hrun
    obtain ⟨⟨hverify, hglobal⟩, hblobs⟩ := hrun
    obtain ⟨g, hg⟩ := Option.isSome_iff_exists.1 hglobal
    cases hlower : s.module.lower (.ofModule s.module) with
    | error e =>
      rw [hlower] at hblobs
      cases hblobs
    | ok blobs =>
      obtain ⟨v, kind, b, hv, hkind, -, -, -, hpictures⟩ := blob_pictures Catalog.pair_declared
        Catalog.pair_scoped Catalog.pair_soundGeometry hcalls h hverify hlower hg
        (by decide +kernel)
      obtain rfl : RelocationKind.abs32 = kind := Option.some.inj hkind
      exact ⟨s, n, v, b, rfl, hv, hpictures⟩

end Build

end DataImage
