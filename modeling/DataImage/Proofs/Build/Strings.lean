import DataImage.Proofs.Build.Verified
import DataImage.Proofs.Catalog.Strings
import DataImage.Proofs.Catalog.Tables
import DataImage.Proofs.Module.Addresses

/-!
# Strings in an image

A text that is added to a catalog can be read from the image. Once its value was asked for with its
contents, after whatever calls and before whatever further ones, its global has a blob that holds
the text, and the blob is among those of the module (`Call.exists_globalBlob_text`). With the
virtual tables that strings start with, a string can always be built, and the image of it is
verified and lowered (`Build.exists_lower_of_conforming`). `Call.text_of_run` puts this together.
-/

namespace DataImage

variable {c : Catalog} {known : TypeId → Prop} {s s' : Image} {text : String}

/-! ## Globals that have their contents -/

namespace Image

/-- The blob of a global is among those of its module. -/
theorem Registered.mem_of_lower (hs : s.Registered c) {d : DescriptorId} {g : GlobalId}
    (hd : (d, g) ∈ s.entries) {layout : DataLayout} {kind : RelocationKind}
    (hkind : RelocationKind.ofPointerBytes? layout.pointerBytes = some kind) {b : Blob}
    (hb : s.module.globalBlob layout kind (s.module.global g) = .ok b) {blobs : List Blob}
    (hlower : s.module.lower layout = .ok blobs) : b ∈ blobs := by
  obtain ⟨v, x, -, hx, hstands⟩ := hs.stands d g hd
  rw [Module.global_eq_of_getElem? hx] at hb
  rw [Module.lower, hkind] at hlower
  obtain ⟨b', hb', hblob⟩ := Partial.exists_of_forall₂_right (Partial.mapM_eq_ok_iff.1 hlower).flip
    (mem_live_iff.2 ⟨hx, hstands.live⟩)
  obtain rfl := Except.ok.inj (hb.symm.trans hblob)
  exact hb'

end Image

namespace Call

/-- A value that was asked for with its contents keeps its global and the contents. -/
theorem filled_of_materialize (hc : c.Closed known) {name : String} {calls more : List Call}
    (hcalls : ∀ call ∈ calls, ∀ t ∈ call.types, known t)
    (hmore : ∀ call ∈ more, ∀ t ∈ call.types, known t) {d : DescriptorId} {g : GlobalId}
    (h : Build.materialize c d (run c calls (Image.new c name)) = .ok g s) :
    (run c more s).Coherent c known ∧
      (run c more s).module.nativeBits = c.pointerSize * 8 ∧
      (d, g) ∈ (run c more s).entries ∧ (run c more s).IsFilled g := by
  obtain ⟨hsettles, hs⟩ := run_coherent hc (Image.coherent_new c known name) calls hcalls
  obtain ⟨hsettles', hs', hg, hfilled, -⟩ := (Build.materialize_advances hc hs d).of_ok h
  obtain ⟨hsettles'', hs''⟩ := run_coherent hc hs' more hmore
  exact ⟨hs'', hsettles''.width.trans (hsettles'.width.trans hsettles.width),
    Partial.mem_of_lookup_eq_some (hsettles''.global? hg), hsettles''.isFilled hfilled⟩

/-- **The global of a string holds its text.** -/
theorem exists_globalBlob_text (hc : c.WellDeclared) (hs : c.Scoped) (hbuild : c.Buildable)
    (hlength : (Text.utf16 text).length < 2 ^ 32) {d : DescriptorId}
    (hd : c.descriptor? d = some (.object (Catalog.textValue text))) {name : String}
    {calls more : List Call}
    (hcalls : ∀ call ∈ calls, ∀ t ∈ call.types, t.index < c.types.length)
    (hmore : ∀ call ∈ more, ∀ t ∈ call.types, t.index < c.types.length) {g : GlobalId}
    (h : Build.materialize c d (run c calls (Image.new c name)) = .ok g s)
    {kind : RelocationKind} (hkind : RelocationKind.ofPointerBytes? c.pointerSize = some kind) :
    ∃ b, (run c more s).module.globalBlob (.ofModule (run c more s).module) kind
        ((run c more s).module.global g) = .ok b ∧
      b.name = (run c more s).module.globalName g ∧ b.HoldsText c.pointerSize text ∧
      ∀ blobs, (run c more s).module.lower (.ofModule (run c more s).module) = .ok blobs →
        b ∈ blobs := by
  obtain ⟨hs', hwidth, hmem, hfilled⟩ := filled_of_materialize (hc.closed hs) hcalls hmore h
  obtain ⟨v, w, hv, hw, hblob⟩ := Image.globalBlob_eq hc.distinctNames hs' hmem hfilled kind
  obtain rfl := Option.some.inj (hv.symm.trans hd)
  obtain ⟨b, hb, hholds⟩ := hbuild.blobOf_text kind hlength hd hw
  rw [Image.ofModule_eq hwidth]
  rw [hb] at hblob
  obtain ⟨-, -, hname, -⟩ := Module.globalBlob_eq hblob
  exact ⟨b, hblob, hname, hholds, fun blobs hlower => hs'.mem_of_lower hmem hkind hblob hlower⟩

end Call

/-! ## Strings can be built -/

namespace Catalog

/-- A string, and the virtual tables that it refers to. -/
def TextValues (c : Catalog) (d e : DescriptorId) : Prop :=
  e = d ∨ c.vtable? Core.string = some e ∨ c.vtable? Core.vtable = some e

/-- **A string and its virtual tables have contents that conform.** -/
theorem Buildable.conforming_text (hc : c.Buildable) (hwidth : c.pointerSize ≠ 0) {d : DescriptorId}
    (hd : c.descriptor? d = some (.object (textValue text))) (hstring : c.TableAsMade Core.string)
    (hvtable : c.TableAsMade Core.vtable) : c.Conforming (c.TextValues d) := by
  obtain ⟨e, he, hev⟩ := hstring
  obtain ⟨e', he', hev'⟩ := hvtable
  have hmem : c.TextValues d e := Or.inr (Or.inl he)
  have hmem' : c.TextValues d e' := Or.inr (Or.inr he')
  have table : ∀ f t, c.descriptor? f = some (.object (c.table t)) → ∃ v w,
      c.descriptor? f = some v ∧ v.isNested = false ∧ c.Laid v.context ∧
      c.contents? f = some w ∧ c.Conforms (c.TextValues d) w ∧
      (v.takesTypeFromContents = false → w.shape? = some (.layout v.context)) := by
    intro f t hf
    obtain ⟨w, hw, hfills⟩ := hc.table_fills hwidth hf he' hmem'
    exact ⟨_, w, hf, rfl, hc.laid_vtable, hw, hfills.2, fun _ => hfills.1⟩
  refine ⟨fun f hf => ?_⟩
  rcases hf with rfl | hf | hf
  · obtain ⟨w, hw, hconforms⟩ := hc.text_conforms hwidth hd he hmem
    exact ⟨_, w, hd, rfl, hc.laid_string, hw, hconforms, fun htakes => by cases htakes⟩
  · obtain rfl := Option.some.inj (he.symm.trans hf)
    exact table _ _ hev
  · obtain rfl := Option.some.inj (he'.symm.trans hf)
    exact table _ _ hev'

/-- There is room for a string and its virtual tables. -/
theorem Buildable.globalSize_textValues (hc : c.Buildable)
    (hlength : (Text.utf16 text).length < 2 ^ 32) {d : DescriptorId}
    (hd : c.descriptor? d = some (.object (textValue text))) (hstring : c.TableAsMade Core.string)
    (hvtable : c.TableAsMade Core.vtable) (e : DescriptorId) (v : Descriptor) (w : Value)
    (he : c.TextValues d e) (hv : c.descriptor? e = some v) (hw : c.contents? e = some w) :
    c.globalSize v w < 2 ^ 63 := by
  have hroom := hc.room
  simp only [UInt32.size] at hroom
  have table : ∀ t, v = .object (c.table t) → c.globalSize v w < 2 ^ 63 := by
    rintro t rfl
    have htakes : (Descriptor.object (c.table t)).takesTypeFromContents = false := rfl
    rw [globalSize, htakes, if_neg Bool.false_ne_true, shapeSize, Shape.size?,
      show (Descriptor.object (c.table t)).context = Core.vtable from rfl, hc.layoutSize?_vtable,
      Option.getD_some]
    omega
  obtain ⟨f, hf, hfv⟩ := hstring
  obtain ⟨f', hf', hfv'⟩ := hvtable
  rcases he with rfl | he | he
  · obtain rfl := Option.some.inj (hd.symm.trans hv)
    rw [hc.globalSize_text hd hw, length_textBytes]
    omega
  · obtain rfl := Option.some.inj (hf.symm.trans he)
    exact table _ (Option.some.inj (hv.symm.trans hfv))
  · obtain rfl := Option.some.inj (hf'.symm.trans he)
    exact table _ (Option.some.inj (hv.symm.trans hfv'))

end Catalog

namespace Build

/-- A build from one root asks for the value and then fills what is left. -/
theorem exists_materialize_of_fromRoots {d : DescriptorId}
    (h : fromRoots c [d] s = .ok () s') :
    ∃ g s₁ n, materialize c d s = .ok g s₁ ∧ resolveAll c s₁ = .ok n s' := by
  unfold fromRoots at h
  simp only [materializeAll, bind_assoc, pure_bind] at h
  cases hm : materialize c d s with
  | error f s₁ =>
    rw [run_bind_error hm] at h
    cases h
  | ok g s₁ =>
    rw [run_bind hm] at h
    cases hr : resolveAll c s₁ with
    | error f s₂ =>
      rw [run_bind_error hr] at h
      cases h
    | ok n s₂ =>
      rw [run_bind hr] at h
      obtain ⟨-, rfl⟩ := EStateM.Result.ok.inj h
      exact ⟨g, s₁, n, rfl, hr⟩

end Build

namespace Call

/-- **Texts survive the trip into an image.** Take the value of a text of fewer than `2 ^ 32` code
units in a catalog with pointers of four or eight bytes.

* When it was asked for with its contents, after whatever calls, then after whatever further ones
  its global has a blob that holds the text: the blob is read-only, has four bytes, a pointer, four
  bytes with the number of code units, and the units in little endian, which are decoded to the
  text. The blob is among those of the module, if all of these can be made.
* If the virtual tables of strings and of virtual tables are those that were made for them, as they
  are when no declaration touches them, the value can always be asked for. Then the image of it
  alone can be filled, verified and lowered, and the blob is there.
* Blobs that hold different texts have different bytes. -/
theorem text_of_run (hc : c.Declared) (hs : c.Scoped)
    (hwidth : c.pointerSize = 4 ∨ c.pointerSize = 8) (hlength : (Text.utf16 text).length < 2 ^ 32)
    {c₀ : Catalog} {d : DescriptorId}
    (hd : c.descriptor? d = (c₀.addString text).2.descriptor? (c₀.addString text).1)
    (name : String) :
    (∀ calls more : List Call, (∀ call ∈ calls, ∀ t ∈ call.types, t.index < c.types.length) →
      (∀ call ∈ more, ∀ t ∈ call.types, t.index < c.types.length) → ∀ g s,
      Build.materialize c d (run c calls (Image.new c name)) = .ok g s → ∃ kind b,
        RelocationKind.ofPointerBytes? c.pointerSize = some kind ∧
        (run c more s).module.globalBlob (.ofModule (run c more s).module) kind
          ((run c more s).module.global g) = .ok b ∧
        b.name = (run c more s).module.globalName g ∧ b.HoldsText c.pointerSize text ∧
        ∀ blobs, (run c more s).module.lower (.ofModule (run c more s).module) = .ok blobs →
          b ∈ blobs) ∧
    (c.TableAsMade Core.string → c.TableAsMade Core.vtable →
      (∀ calls : List Call, (∀ call ∈ calls, ∀ t ∈ call.types, t.index < c.types.length) →
        ∃ g s, Build.materialize c d (run c calls (Image.new c name)) = .ok g s) ∧
      ∃ g s n s' blobs b, Build.materialize c d (Image.new c name) = .ok g s ∧
        Build.resolveAll c s = .ok n s' ∧ s'.module.verify.isOk = true ∧
        s'.module.lower (.ofModule s'.module) = .ok blobs ∧ b ∈ blobs ∧
        b.name = s'.module.globalName g ∧ b.HoldsText c.pointerSize text) ∧
    ∀ b b' : Blob, ∀ text', b.HoldsText c.pointerSize text → b'.HoldsText c.pointerSize text' →
      text ≠ text' → b.bytes ≠ b'.bytes := by
  have hwell := hc.wellDeclared
  have hvalue := hd.trans (c₀.descriptor?_addString text)
  have hbuild : c.Buildable := ⟨hwell.toRooted, by simp only [UInt32.size]; omega⟩
  obtain ⟨kind, hkind⟩ : ∃ kind, RelocationKind.ofPointerBytes? c.pointerSize = some kind := by
    rcases hwidth with hp | hp
    · exact ⟨.abs32, by rw [hp]; rfl⟩
    · exact ⟨.abs64, by rw [hp]; rfl⟩
  refine ⟨fun calls more hcalls hmore g s h => ?_, fun hstring hvtable => ?_,
    fun b b' text' h h' hne hbytes => hne (h.unique h' hbytes)⟩
  · obtain ⟨b, hb⟩ := exists_globalBlob_text hwell hs hbuild hlength hvalue hcalls hmore h hkind
    exact ⟨kind, b, hkind, hb⟩
  · have hconforming := hbuild.conforming_text (by omega) hvalue hstring hvtable
    have hroom := hbuild.globalSize_textValues hlength hvalue hstring hvtable
    have hmem : c.TextValues d d := Or.inl rfl
    refine ⟨fun calls hcalls => ?_, ?_⟩
    · obtain ⟨hsettles, -⟩ :=
        run_coherent (hwell.closed hs) (Image.coherent_new c _ name) calls hcalls
      obtain ⟨g, s, h, -⟩ :=
        Build.materialize_succeeds hconforming.available hmem _ hsettles.building
      exact ⟨g, s, h⟩
    · have hroots : ∀ r ∈ [d], c.TextValues d r := fun r hr => List.mem_singleton.1 hr ▸ hmem
      obtain ⟨s', blobs, hrun, hverify, hlower⟩ :=
        Build.exists_lower_of_conforming hconforming hwell hs hwidth name hroom hroots
      obtain ⟨g, s, n, hmaterialize, hresolve⟩ := Build.exists_materialize_of_fromRoots hrun
      have hafter : run c [.resolveAll] s = s' := by
        simp only [run, List.foldl_cons, List.foldl_nil, after, Build.left, hresolve]
      have hmore : ∀ call ∈ [Call.resolveAll], ∀ t ∈ call.types, t.index < c.types.length := by
        simp [types]
      obtain ⟨b, -, hname, hholds, hblobs⟩ := exists_globalBlob_text hwell hs hbuild hlength hvalue
        (List.forall_mem_nil _) hmore hmaterialize hkind
      rw [hafter] at hname hblobs
      exact ⟨g, s, n, s', blobs, b, hmaterialize, hresolve, hverify, hlower, hblobs blobs hlower,
        hname, hholds⟩

end Call

/-- A catalog with one text. It has a character outside the first plane and one that is zero. -/
def Catalog.oneText : Catalog := ((Catalog.new 8).addString "a😀\x00").2

theorem Catalog.oneText_tabled : Catalog.oneText.Tabled := (Tabled.new 8).addDescriptor _

theorem Call.text_of_run_oneText : ∃ g s n s' blobs b,
    Build.materialize Catalog.oneText ⟨4⟩ (Image.new Catalog.oneText "Text") = .ok g s ∧
    Build.resolveAll Catalog.oneText s = .ok n s' ∧
    s'.module.lower (.ofModule s'.module) = .ok blobs ∧ b ∈ blobs ∧
    b.name = s'.module.globalName g ∧ b.writable = false ∧ b.bytes.length = 24 ∧
    Text.decode (Text.units (b.bytes.drop 16)) = some "a😀\x00" := by
  have hscoped : Catalog.oneText.Scoped := by decide +kernel
  have hlength : (Text.utf16 "a😀\x00").length = 4 := by decide +kernel
  have hlt : (Text.utf16 "a😀\x00").length < 2 ^ 32 := by rw [hlength]; decide
  have hvalue : Catalog.oneText.descriptor? ⟨4⟩ =
      ((Catalog.new 8).addString "a😀\x00").2.descriptor?
        ((Catalog.new 8).addString "a😀\x00").1 := rfl
  obtain ⟨-, hbuilt, -⟩ :=
    text_of_run Catalog.oneText_tabled.declared hscoped (Or.inr rfl) hlt hvalue "Text"
  obtain ⟨-, g, s, n, s', blobs, b, hmaterialize, hresolve, -, hlower, hmem, hname, hholds⟩ :=
    hbuilt (Catalog.oneText_tabled.tableAsMade (by decide +kernel))
      (Catalog.oneText_tabled.tableAsMade (by decide +kernel))
  have hbytes := hholds.length
  rw [hlength] at hbytes
  exact ⟨g, s, n, s', blobs, b, hmaterialize, hresolve, hlower, hmem, hname, hholds.readOnly,
    hbytes, hholds.decoded⟩

end DataImage
