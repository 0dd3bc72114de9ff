import DataImage.Proofs.Build.Success

/-!
# Images of roots

A whole build: some values are asked for with their contents, and then everything that they refer to
is filled. If it succeeds, the values with a global are those that are reached from the roots, and
all of them have their contents (`Build.fromRoots_complete`). It succeeds when all that is reached
is available (`Build.fromRoots_succeeds`).
-/

namespace DataImage

/-- Ask for values with their contents, one after the other. -/
def Build.materializeAll (c : Catalog) : List DescriptorId → Build Unit
  | [] => pure ()
  | d :: ds => do
    let _ ← Build.materialize c d
    Build.materializeAll c ds

/-- Ask for values with their contents, and fill all that they refer to. -/
def Build.fromRoots (c : Catalog) (roots : List DescriptorId) : Build Unit := do
  Build.materializeAll c roots
  let _ ← Build.resolveAll c
  return ()

/-- Whether a value is reached from one of some roots. -/
def Catalog.ReachedFrom (c : Catalog) (roots : List DescriptorId) (d : DescriptorId) : Prop :=
  ∃ r ∈ roots, c.Reaches r d

/-- A coherent image in which every value with a global has its contents. -/
structure Image.Resolved (c : Catalog) (known : TypeId → Prop) (s : Image) : Prop
    extends Image.Coherent c known s where
  width : s.module.nativeBits = c.pointerSize * 8
  aliases : s.module.aliases = []
  filled : ∀ d g, (d, g) ∈ s.entries → s.IsFilled g

/-- A resolved image of all that is reached from some roots. -/
structure Image.Complete (c : Catalog) (known : TypeId → Prop) (roots : List DescriptorId)
    (s : Image) : Prop extends Image.Resolved c known s where
  reached : ∀ d, d ∈ s.entries.map (·.1) ↔ c.ReachedFrom roots d

variable {c : Catalog} {known : TypeId → Prop} {s : Image}

namespace Image

/-- What is reached from a value in an image without placeholders has a global. -/
theorem Registered.mem_of_reaches (h : s.Registered c)
    (hfilled : ∀ d g, (d, g) ∈ s.entries → s.IsFilled g) {d e : DescriptorId}
    (hd : d ∈ s.entries.map (·.1)) (hde : c.Reaches d e) : e ∈ s.entries.map (·.1) := by
  induction hde with
  | refl => exact hd
  | tail _ hrefers ih =>
    obtain ⟨⟨d', g⟩, hmem, rfl⟩ := List.mem_map.1 ih
    obtain ⟨w, hw, hew⟩ := hrefers
    obtain ⟨v, x, -, hx, hstands⟩ := h.stands d' g hmem
    obtain ⟨y, hy, hk⟩ := hfilled d' g hmem
    obtain rfl := Option.some.inj (hx.symm.trans hy)
    obtain ⟨k, hk⟩ := Option.isSome_iff_exists.1 hk
    obtain ⟨w', hw', hwk, -⟩ := hstands.filled k hk
    obtain rfl := Option.some.inj (hw.symm.trans hw')
    obtain ⟨g', -, hg'⟩ := exists_global?_of_mem_references hwk hew
    exact List.mem_map.2 ⟨_, Partial.mem_of_lookup_eq_some hg', rfl⟩

end Image

namespace Build

theorem materializeAll_advances (hc : c.Closed known) (roots : List DescriptorId)
    (hs : s.Coherent c known) :
    Advances c known s (materializeAll c roots) fun _ s' =>
      (∀ r ∈ roots, r ∈ s'.entries.map (·.1)) ∧ s.Adds c s' roots := by
  induction roots generalizing s with
  | nil => exact Keeps.pure hs ⟨List.forall_mem_nil _, Image.Adds.of_entries_eq rfl _⟩
  | cons r roots ih =>
    rw [materializeAll]
    refine (materialize_advances hc hs r).bind fun g s₁ _ hs₁ hpost => ?_
    obtain ⟨hg, _, hadds⟩ := hpost
    refine (ih hs₁).imp fun _ s₂ hsettles _ hpost => ?_
    obtain ⟨hroots, hadds'⟩ := hpost
    refine ⟨List.forall_mem_cons.2 ⟨?_, hroots⟩, hadds.trans hadds'⟩
    exact List.mem_map.2 ⟨_, hsettles.entries.subset (Partial.mem_of_lookup_eq_some hg), rfl⟩

theorem materializeAll_succeeds {values : DescriptorId → Prop} (h : c.Available values)
    {roots : List DescriptorId} (hroots : ∀ r ∈ roots, values r) :
    Succeeds [] (materializeAll c roots) := by
  induction roots with
  | nil => exact Succeeds.pure _
  | cons r roots ih =>
    rw [materializeAll]
    exact (materialize_succeeds h (hroots r List.mem_cons_self)).bind fun _ =>
      ih fun e he => hroots e (List.mem_cons_of_mem _ he)

/-- A whole build settles globals, and if it succeeds it leaves a complete image. -/
theorem fromRoots_advances (hc : c.Closed known) (name : String) (roots : List DescriptorId) :
    Advances c known (Image.new c name) (fromRoots c roots) fun _ s' =>
      s'.Complete c known roots := by
  refine (materializeAll_advances hc roots (Image.coherent_new c known name)).bind
    fun _ s₁ hsettles hs₁ hpost => ?_
  obtain ⟨hregistered, hadds⟩ := hpost
  refine (resolveAll_advances hc hs₁).bind
    fun _ s₂ hsettles' hs₂ hpost => Keeps.pure hs₂ ?_
  obtain ⟨hfilled, hadds'⟩ := hpost
  have hall := hadds.absorb hadds' fun e he => absurd he List.not_mem_nil
  refine ⟨⟨hs₂, hsettles'.width.trans hsettles.width,
    hsettles'.aliases.trans hsettles.aliases, hfilled⟩, fun d => ⟨fun hd => ?_, ?_⟩⟩
  · obtain ⟨e, he, rfl⟩ := List.mem_map.1 hd
    exact (hall e he).resolve_left List.not_mem_nil
  · rintro ⟨r, hr, hreach⟩
    refine hs₂.toRegistered.mem_of_reaches hfilled ?_ hreach
    obtain ⟨e, he, hre⟩ := List.mem_map.1 (hregistered r hr)
    exact List.mem_map.2 ⟨e, hsettles'.entries.subset he, hre⟩

/-- **What a whole build leaves.** -/
theorem fromRoots_complete (hc : c.Closed known) {name : String} {roots : List DescriptorId}
    (h : fromRoots c roots (Image.new c name) = .ok () s) : s.Complete c known roots :=
  ((fromRoots_advances hc name roots).of_ok h).2.2

/-- **When a whole build succeeds.** -/
theorem fromRoots_succeeds (hc : c.Closed known) (name : String) {roots : List DescriptorId}
    (h : c.Available (c.ReachedFrom roots)) :
    ∃ s, fromRoots c roots (Image.new c name) = .ok () s := by
  have hall : Succeeds [] (materializeAll c roots) :=
    materializeAll_succeeds h fun d hd => ⟨d, hd, .refl⟩
  obtain ⟨u, s₁, hrun, hmarks⟩ := hall (Image.new c name) rfl
  obtain ⟨-, hs₁, -, hadds⟩ :=
    (materializeAll_advances hc roots (Image.coherent_new c known name)).of_ok hrun
  obtain ⟨n, s₂, hrun'⟩ := resolveFrom_succeeds h hc hs₁ hmarks
    (fun e he => (hadds e he).resolve_left List.not_mem_nil) (c.descriptors.length + 1) 0 0
  refine ⟨s₂, ?_⟩
  rw [fromRoots, run_bind hrun]
  exact run_bind hrun' _

end Build

end DataImage
