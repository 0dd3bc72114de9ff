import DataImage.Proofs.Arm.Emission
import DataImage.Proofs.Assembly.Compile
import DataImage.Proofs.Module.Lowering
import DataImage.Proofs.Module.Relocations
import Mathlib.Algebra.Order.BigOperators.Group.List

/-!
# Verified images have objects

Between an accepted verification and the object nothing goes wrong, if there is room. A verified
module with pointers of 32 bits has its blobs, or there is no room for one of its globals; and all
their relocations are of 32 bits and lie on them (`Module.Ordered.exists_blobs`). The entry is the
only alias, so as soon as the function that it stands for has a body, there is an object, or the
globals together take more than `2 ^ 63` bytes and their sizes or places overflow
(`Assembly.Sound.object_outcome`).
-/

namespace DataImage

namespace Module

/-- How many bytes the live globals of a module take, with three for the padding that may have to
come before each of them. -/
def paddedSize (m : Module) : Nat :=
  (m.live.map fun e => (DataLayout.ofModule m).sizeOf m e.2.type + 3).sum

theorem fitsMemory_of_paddedSize {m : Module} (h : m.paddedSize < 2 ^ 63) {e : GlobalId × Global}
    (he : e ∈ m.live) : m.FitsMemory (.ofModule m) e.2 := by
  have hle : (DataLayout.ofModule m).sizeOf m e.2.type + 3 ≤ m.paddedSize :=
    List.single_le_sum (fun n _ => Nat.zero_le n) _ (List.mem_map.2 ⟨e, he, rfl⟩)
  exact fitsMemory_iff.2 (by omega)

/-- **A verified module for pointers of 32 bits has blobs** if there is room for its globals. Their
relocations are of 32 bits and start within them, and they take the bytes of the globals. -/
theorem Ordered.exists_blobs {m : Module} (hm : m.Ordered) (hbits : m.nativeBits = 32)
    (hverify : m.verify.isOk = true) (hroom : ∀ e ∈ m.live, m.FitsMemory (.ofModule m) e.2) :
    ∃ blobs, m.lower (.ofModule m) = .ok blobs ∧
      (∀ b ∈ blobs, ∀ r ∈ b.relocations, r.kind = .abs32 ∧ r.offset < b.bytes.length) ∧
      (blobs.map fun b => b.bytes.length + 3).sum = m.paddedSize := by
  obtain ⟨kind, blobs, hkind, hlower, hblobs⟩ := hm.exists_lower (Or.inl hbits) hverify hroom
  have hbytes : (DataLayout.ofModule m).pointerBytes = 4 := by
    rw [DataLayout.ofModule, hbits]
  rw [hbytes] at hkind
  obtain rfl : RelocationKind.abs32 = kind := Option.some.inj hkind
  refine ⟨blobs, hlower, fun b hb r hr => ?_, ?_⟩
  · obtain ⟨e, -, hblob, -⟩ := Partial.exists_of_forall₂_right hblobs hb
    obtain ⟨k, -, -, hlength, hrelocations, -⟩ := globalBlob_eq hblob
    rw [hrelocations] at hr
    obtain ⟨address, haddress, rfl⟩ := List.mem_map.1 hr
    have hend := (addresses_within 0 k address haddress).2
    refine ⟨rfl, show address.1 < b.bytes.length from ?_⟩
    omega
  · have hsizes : (m.live.map fun e => (DataLayout.ofModule m).sizeOf m e.2.type + 3) =
        blobs.map fun b => b.bytes.length + 3 := by
      rw [← List.forall₂_eq_eq_eq, List.forall₂_map_left_iff, List.forall₂_map_right_iff]
      exact hblobs.imp fun e b hb => by rw [(DataLayout.sizeOf?_eq_some_iff.1 hb.2.2.2).1]
    rw [paddedSize, hsizes]

end Module

namespace Arm

section

variable {functions : List FunctionBody} {blobs : List Blob} {placed : List Placed}

theorem Places.paddedLength_eq (h : Places functions blobs placed) :
    paddedLength placed = (functions.map fun f => f.code.length + 3).sum +
      (blobs.map fun b => b.bytes.length + 3).sum := by
  have hmap : paddedLength placed =
      ((placed.map Placed.toPiece).map fun p => p.bytes.length + 3).sum := by
    rw [List.map_map]
    rfl
  rw [hmap, h.placed_eq, List.map_append, List.map_map, List.map_map, List.sum_append]
  rfl

/-- If no function has relocations, all relocations are those of blobs. -/
theorem Places.exists_blob_of_mem_usesOf (h : Places functions blobs placed)
    (hfunctions : ∀ f ∈ functions, f.relocations = []) {u : Placed × Relocation}
    (hu : u ∈ usesOf placed) :
    ∃ b ∈ blobs, u.1.bytes = b.bytes ∧ u.2 ∈ b.relocations := by
  obtain ⟨hp, hr⟩ := mem_usesOf.1 hu
  have hpiece : u.1.toPiece ∈ functions.map bodyPiece ++ blobs.map blobPiece :=
    h.placed_eq ▸ List.mem_map_of_mem hp
  rcases List.mem_append.1 hpiece with hpiece | hpiece
  · obtain ⟨f, hf, hpiece⟩ := List.mem_map.1 hpiece
    have hnil : u.1.relocations = [] :=
      (congrArg Piece.relocations hpiece).symm.trans (hfunctions f hf)
    rw [hnil] at hr
    cases hr
  · obtain ⟨b, hb, hpiece⟩ := List.mem_map.1 hpiece
    have hrelocations : u.1.relocations = b.relocations :=
      (congrArg Piece.relocations hpiece).symm
    exact ⟨b, hb, (congrArg Piece.bytes hpiece).symm, hrelocations ▸ hr⟩

end

/-- **Relocations of 32 bits that start within their pieces** can be added, unless the pieces take
more bytes than there are words. -/
theorem draft_of_room {lib : Library} {v : lib.View} (hv : v.Lawful)
    {functions : List FunctionBody} {blobs : List Blob} {aliases : List SymbolAlias}
    (haliases : ∀ a ∈ aliases, ∃ f ∈ functions, f.name = a.target)
    (hfunctions : ∀ f ∈ functions, f.relocations = [])
    (hblobs : ∀ b ∈ blobs, ∀ r ∈ b.relocations, r.kind = .abs32 ∧ r.offset < b.bytes.length) :
    (∃ d, draft lib functions blobs aliases = .ok d) ∨
      draft lib functions blobs aliases = .error .overflow ∧
        UInt64.size ≤ (functions.map fun f => f.code.length + 3).sum +
          (blobs.map fun b => b.bytes.length + 3).sum := by
  have houtcome := draft_outcome hv functions blobs aliases
  have hnone : aliases.find? (fun a => functions.all (·.name ≠ a.target)) = none := by
    refine List.find?_eq_none.2 fun a ha hall => ?_
    obtain ⟨f, hf, hname⟩ := haliases a ha
    exact of_decide_eq_true (List.all_eq_true.1 hall f hf) hname
  rw [hnone] at houtcome
  obtain ⟨placed, hplaces, houtcome⟩ := houtcome
  split at houtcome
  · rename_i e herror
    obtain ⟨u, hu, herror⟩ := List.exists_of_findSome?_eq_some herror
    obtain ⟨b, hb, hbytes, hr⟩ := hplaces.exists_blob_of_mem_usesOf hfunctions hu
    obtain ⟨hkind, hlt⟩ := hblobs b hb u.2 hr
    have hend := hplaces.end_le u.1 (mem_usesOf.1 hu).1
    rw [hplaces.paddedLength_eq, hbytes] at hend
    unfold useError? at herror
    rw [hkind] at herror
    split at herror
    · rename_i hover
      obtain rfl := Option.some.inj herror
      exact .inr ⟨houtcome, by omega⟩
    · cases herror
  · obtain ⟨d, -, -, hdraft, -⟩ := houtcome
    exact .inl ⟨d, hdraft⟩

end Arm

namespace Assembly

variable {catalog : Catalog} {settings : Settings} {lib : Library} {v : lib.View}
  {a : Assembly lib.File}

/-- **A verified assembly for ARM has an object** if what its aliases stand for has bodies and no
body has relocations; or making it stops, as the globals are too large. -/
theorem emit_of_room (hv : v.Lawful) (hwrites : lib.AlwaysWrites)
    (htarget : a.target = Arm.target lib) (hm : a.module.Ordered) (hbits : a.module.nativeBits = 32)
    (hverify : a.module.verify.isOk = true)
    (haliases : ∀ x ∈ symbolAliases a.module, ∃ f ∈ a.functions, f.name = x.target)
    (hrelocations : ∀ f ∈ a.functions, f.relocations = [])
    (hcode : (a.functions.map fun f => f.code.length + 3).sum ≤ 2 ^ 63) :
    (∃ object, a.emit = .ok object) ∨
      a.emit = .error { cause := .overflow } ∧ 2 ^ 63 ≤ a.module.paddedSize := by
  unfold emit
  by_cases hroom : ∃ e ∈ a.module.live, ¬ a.module.FitsMemory (.ofModule a.module) e.2
  case pos =>
    rw [hm.lower_overflow (Or.inl hbits) hverify hroom]
    obtain ⟨e, he, hlarge⟩ := hroom
    exact .inr ⟨rfl, Nat.not_lt.1 fun hlt => hlarge (Module.fitsMemory_of_paddedSize hlt he)⟩
  case neg =>
    have hfits : ∀ e ∈ a.module.live, a.module.FitsMemory (.ofModule a.module) e.2 :=
      fun e he => by_contra fun hlarge => hroom ⟨e, he, hlarge⟩
    obtain ⟨blobs, hlower, hkinds, hsizes⟩ := hm.exists_blobs hbits hverify hfits
    have hemit : a.target.emit a.functions blobs (symbolAliases a.module) =
        Arm.emit lib a.functions blobs (symbolAliases a.module) := by
      rw [htarget]
      rfl
    rw [hlower]
    dsimp only
    rw [hemit, Arm.emit_eq]
    rcases Arm.draft_of_room hv haliases hrelocations hkinds with ⟨d, hdraft⟩ | ⟨hdraft, hlarge⟩
    · obtain ⟨file, hwrite⟩ := hwrites d
      rw [hdraft]
      dsimp only
      rw [hwrite]
      exact .inl ⟨file, rfl⟩
    · rw [hdraft]
      refine .inr ⟨rfl, ?_⟩
      rw [hsizes] at hlarge
      have hsize : UInt64.size = 2 ^ 63 + 2 ^ 63 := by decide
      omega

/-- The same of an image whose entry is declared and given after the verification. -/
theorem Sound.object_outcome (hv : v.Lawful) (hwrites : lib.AlwaysWrites)
    (h : Sound catalog settings (Arm.target lib) a)
    (hbits : a.module.nativeBits = 32) (hverify : a.module.verify.isOk = true) {m : MethodId}
    {id : FunctionId} {s : Image} (hdeclare : Build.declarationOf catalog m a.image = .ok id s)
    (hbody : ∃ f ∈ a.functions, f.name = catalog.methodSymbol m)
    (hrelocations : ∀ f ∈ a.functions, f.relocations = [])
    (hcode : (a.functions.map fun f => f.code.length + 3).sum ≤ 2 ^ 63) :
    (∃ object, ((a.withImage s).setEntry id).emit = .ok object) ∨
      ((a.withImage s).setEntry id).emit = .error { cause := .overflow } ∧
        2 ^ 63 ≤ ((a.withImage s).setEntry id).module.paddedSize := by
  obtain ⟨hsound, hverified, -, -, -, -, haliases⟩ := h.entered hverify hdeclare
  refine emit_of_room hv hwrites hsound.target_eq hsound.coherent.toLaidOut.ordered
    (hsound.width.trans (h.width.symm.trans hbits)) hverified ?_ hrelocations hcode
  rw [haliases]
  exact List.forall_mem_singleton.2 hbody

end Assembly

end DataImage
