import DataImage.Proofs.Build.Order
import DataImage.Proofs.Catalog.Citations
import Mathlib.Order.Bounds.Defs

/-!
# The closure of the roots

The values in a finished image are no more and no fewer than needed: they are the least set that has
the roots and, with each value, the standalone values that it cites (`Build.closure_of_fromRoots`).
-/

namespace DataImage

/-- Whether a set has the roots and, with each value, all standalone values that it cites. -/
def Catalog.Encloses (c : Catalog) (roots : List DescriptorId) (S : Set DescriptorId) : Prop :=
  (∀ r ∈ roots, r ∈ S) ∧ ∀ d ∈ S, ∀ e, c.Standalone e → c.Cites d e → e ∈ S

namespace Image

variable {c : Catalog} {known : TypeId → Prop} {roots : List DescriptorId} {s : Image}

theorem Registered.standalone (h : s.Registered c) {d : DescriptorId}
    (hd : d ∈ s.entries.map (·.1)) : c.Standalone d := by
  obtain ⟨⟨d, g⟩, hmem, rfl⟩ := List.mem_map.1 hd
  obtain ⟨v, x, hv, -, hstands⟩ := h.stands d g hmem
  exact ⟨v, hv, hstands.notNested⟩

namespace Complete

variable (h : s.Complete c known roots)

include h

/-- The contents of every value in the image exist. -/
theorem exists_contents? {d : DescriptorId} (hd : d ∈ s.entries.map (·.1)) :
    ∃ w, c.contents? d = some w := by
  obtain ⟨⟨d, g⟩, hmem, rfl⟩ := List.mem_map.1 hd
  obtain ⟨v, x, -, hx, hstands⟩ := h.stands d g hmem
  obtain ⟨y, hy, hk⟩ := h.filled d g hmem
  obtain rfl := Option.some.inj (hx.symm.trans hy)
  obtain ⟨k, hk⟩ := Option.isSome_iff_exists.1 hk
  obtain ⟨w, hw, -⟩ := hstands.filled k hk
  exact ⟨w, hw⟩

theorem encloses : c.Encloses roots {d | d ∈ s.entries.map (·.1)} := by
  refine ⟨fun r hr => (h.reached r).2 ⟨r, hr, .refl⟩, fun d hd e he hcites => ?_⟩
  obtain ⟨w, hw⟩ := h.exists_contents? hd
  have hrefers : c.Refers d e := ⟨w, hw, (Catalog.mem_references_iff_cites he hw).2 hcites⟩
  exact h.toRegistered.mem_of_reaches h.filled hd (.single hrefers)

/-- What is reached from the roots lies in every set that has the roots and what they cite. -/
theorem mem_of_encloses {S : Set DescriptorId} (hS : c.Encloses roots S) {d : DescriptorId}
    (hd : d ∈ s.entries.map (·.1)) : d ∈ S := by
  obtain ⟨r, hr, hreach⟩ := (h.reached d).1 hd
  clear hd
  induction hreach with
  | refl => exact hS.1 r hr
  | @tail b e hb hrefers ih =>
    have he : e ∈ s.entries.map (·.1) := (h.reached e).2 ⟨r, hr, hb.tail hrefers⟩
    obtain ⟨w, hw, hmem⟩ := hrefers
    have hstandalone := h.standalone he
    exact hS.2 b ih e hstandalone ((Catalog.mem_references_iff_cites hstandalone hw).1 hmem)

/-- **The values with a global are the closure of the roots.** -/
theorem isLeast : IsLeast {S | c.Encloses roots S} {d | d ∈ s.entries.map (·.1)} :=
  ⟨h.encloses, fun _ hS _ hd => h.mem_of_encloses hS hd⟩

end Complete

end Image

/-- **An image holds the closure of its roots.** If some values can be asked for with their contents
and all that they refer to can be filled, then the values with a global are the least set that has
the roots and, with each value, every standalone value that it cites. The live globals are the
globals of these values, one for each, and all of them have their contents. -/
theorem Build.closure_of_fromRoots {c : Catalog} {name : String} {roots : List DescriptorId}
    {s : Image} (h : fromRoots c roots (Image.new c name) = .ok () s) :
    IsLeast {S | c.Encloses roots S} {d | d ∈ s.entries.map (·.1)} ∧
      (s.entries.map (·.1)).Nodup ∧ (s.entries.map (·.2)).Nodup ∧
      (s.module.live.map (·.1)).Perm (s.entries.map (·.2)) ∧
      ∀ x ∈ s.module.live, x.2.initializer.isSome = true := by
  have hcomplete := fromRoots_complete c.closed_true h
  exact ⟨hcomplete.isLeast, hcomplete.distinct, hcomplete.nodup_globals, hcomplete.live_perm,
    fun _ hx => hcomplete.isSome_of_mem_live hcomplete.filled hx⟩

/-- Of two nodes that refer to each other one is asked for. The image has the other one too. -/
theorem Build.closure_of_fromRoots_pair : ∃ s,
    fromRoots Catalog.pair [⟨5⟩] (Image.new Catalog.pair "Pair") = .ok () s ∧
      IsLeast {S | Catalog.pair.Encloses [⟨5⟩] S} {d | d ∈ s.entries.map (·.1)} ∧
      ⟨6⟩ ∈ s.entries.map (·.1) := by
  have hrun : (fromRoots Catalog.pair [⟨5⟩]).succeedsWith (Image.new Catalog.pair "Pair")
      (fun _ s => decide (⟨6⟩ ∈ s.entries.map (·.1))) = true := by decide +kernel
  obtain ⟨u, s, h, hmem⟩ := exists_of_succeedsWith hrun
  exact ⟨s, h, (closure_of_fromRoots h).1, of_decide_eq_true hmem⟩

end DataImage
