import DataImage.Proofs.Build.Roots
import DataImage.Proofs.Catalog.Strings
import DataImage.Proofs.Image.Lowering

/-!
# The order of the roots

A whole build, from the roots to the blobs, does not depend on the order in which the roots are
asked for. If it succeeds, its blobs are those of the values that are reached from the roots
(`Image.Resolved.lower_eq`), and whether it succeeds depends on these values alone
(`Image.Complete.available`, `Build.fromRoots_succeeds`).
-/

namespace DataImage

namespace Catalog

/-- Declared types have different names. -/
theorem Rooted.distinctNames {c : Catalog} (h : c.Rooted) :
    c.DistinctNames fun t => t.index < c.types.length := by
  intro t u ht hu hname
  rw [typeName, typeName, h.typeDef_eq, h.typeDef_eq, declaredType, declaredType,
    List.getD_eq_getElem?_getD, List.getD_eq_getElem?_getD, List.getElem?_eq_getElem ht,
    List.getElem?_eq_getElem hu, Option.getD_some, Option.getD_some] at hname
  have hindex : t.index = u.index := by
    refine (List.getElem?_inj (by rwa [List.length_map]) h.names).1 ?_
    rw [List.getElem?_map, List.getElem?_map, List.getElem?_eq_getElem ht,
      List.getElem?_eq_getElem hu, Option.map_some, Option.map_some, hname]
  cases t
  cases u
  exact congrArg _ hindex

/-- The blob of a value. A value without contents has none. -/
def blob (c : Catalog) (kind : RelocationKind) (d : DescriptorId) : Except LoweringError Blob :=
  match c.descriptor? d, c.contents? d with
  | some v, some w => c.blobOf kind d v w
  | _, _ => .error (.uninitialized (c.nameOf d))

/-- The blobs of values, or the first error. -/
def blobs (c : Catalog) (ds : List DescriptorId) : Except LoweringError (List Blob) :=
  match RelocationKind.ofPointerBytes? c.pointerSize with
  | none => .error (.pointerWidth c.pointerSize)
  | some kind => ds.mapM (c.blob kind)

end Catalog

/-- The blobs of all that some roots refer to, built in a fresh image. -/
def Build.blobsFrom (c : Catalog) (name : String) (roots : List DescriptorId) :
    Option (List Blob) :=
  match Build.fromRoots c roots (Image.new c name) with
  | .error _ _ => none
  | .ok _ s => (s.module.lower (.ofModule s.module)).toOption

/-! ## Blobs of an image -/

namespace Image

variable {c : Catalog} {known : TypeId → Prop} {s : Image}

theorem mem_live_iff {m : Module} {g : GlobalId} {x : Global} :
    (g, x) ∈ m.live ↔ m.globals[g.index]? = some x ∧ x.mergedInto = none := by
  rw [Module.live, List.mem_filter, Module.numbered, List.mem_map]
  constructor
  · rintro ⟨⟨⟨y, i⟩, hmem, heq⟩, hlive⟩
    obtain ⟨rfl, rfl⟩ := Prod.mk.inj heq
    rw [Bool.not_eq_true', Global.isRemoved, Option.isSome_eq_false_iff,
      Option.isNone_iff_eq_none] at hlive
    exact ⟨List.mem_zipIdx_iff_getElem?.1 hmem, hlive⟩
  · rintro ⟨hx, hlive⟩
    exact ⟨⟨(x, g.index), List.mem_zipIdx_iff_getElem?.2 hx, rfl⟩,
      by simp [Global.isRemoved, hlive]⟩

theorem nodup_live (m : Module) : (m.live.map (·.1)).Nodup := by
  have hnumbered : (m.numbered.map (·.1)).Nodup := by
    have heq : m.numbered.map (·.1) = (List.range m.globals.length).map GlobalId.mk := by
      rw [Module.numbered, List.map_map, List.range_eq_range', ← List.zipIdx_map_snd,
        List.map_map]
      rfl
    rw [heq]
    exact List.nodup_range.map fun a b h => GlobalId.mk.inj h
  exact hnumbered.sublist (List.filter_sublist.map _)

/-- Live globals are those of the registered values. -/
theorem Registered.live_perm (h : s.Registered c) :
    (s.module.live.map (·.1)).Perm (s.entries.map (·.2)) := by
  rw [List.perm_ext_iff_of_nodup (nodup_live _) h.nodup_globals]
  intro g
  constructor
  · intro hg
    obtain ⟨⟨g, x⟩, hmem, rfl⟩ := List.mem_map.1 hg
    obtain ⟨hx, hlive⟩ := mem_live_iff.1 hmem
    obtain ⟨d, hd⟩ := h.live _ x hx hlive
    exact List.mem_map.2 ⟨_, hd, rfl⟩
  · intro hg
    obtain ⟨⟨d, g⟩, hmem, rfl⟩ := List.mem_map.1 hg
    obtain ⟨v, x, -, hx, hstands⟩ := h.stands d g hmem
    exact List.mem_map.2 ⟨(g, x), mem_live_iff.2 ⟨hx, hstands.live⟩, rfl⟩

/-- A live global has its contents if every registered value has them. -/
theorem Registered.isSome_of_mem_live (h : s.Registered c)
    (hfilled : ∀ d g, (d, g) ∈ s.entries → s.IsFilled g) {g : GlobalId} {x : Global}
    (hlive : (g, x) ∈ s.module.live) : x.initializer.isSome = true := by
  obtain ⟨hx, hnone⟩ := mem_live_iff.1 hlive
  obtain ⟨d, hd⟩ := h.live g.index x hx hnone
  obtain ⟨y, hy, hk⟩ := hfilled d ⟨g.index⟩ hd
  obtain rfl := Option.some.inj (hx.symm.trans hy)
  exact hk

/-- Globals one by one belong to values one by one. -/
theorem forall₂_entries {l : List (DescriptorId × GlobalId)} (hl : l ⊆ s.entries) :
    List.Forall₂ (fun g d => (d, g) ∈ s.entries) (l.map (·.2)) (l.map (·.1)) := by
  induction l with
  | nil => exact .nil
  | cons e l ih =>
    exact .cons (hl List.mem_cons_self) (ih fun x hx => hl (List.mem_cons_of_mem _ hx))

variable {roots : List DescriptorId}

/-- **The blobs of a resolved image** are those of the values that have a global, in some order. -/
theorem Resolved.lower_eq (h : s.Resolved c known) (hnames : c.DistinctNames known) :
    ∃ ds, ds.Perm (s.entries.map (·.1)) ∧
      s.module.lower (.ofModule s.module) = c.blobs ds := by
  obtain ⟨ds, hds, hperm⟩ :=
    List.perm_comp_forall₂ h.live_perm (forall₂_entries (List.Subset.refl s.entries))
  refine ⟨ds, hperm, ?_⟩
  have hlayout : DataLayout.ofModule s.module = c.dataLayout := by
    rw [DataLayout.ofModule, h.width, Nat.mul_div_cancel _ (by decide)]
    rfl
  have hwidth : c.dataLayout.pointerBytes = c.pointerSize := rfl
  rw [Module.lower, hlayout, Catalog.blobs, hwidth]
  cases RelocationKind.ofPointerBytes? c.pointerSize with
  | none => rfl
  | some kind =>
    refine Partial.mapM_congr_of_forall₂ ?_
    rw [List.forall₂_map_left_iff] at hds
    refine (Partial.forall₂_mem hds).imp ?_
    rintro ⟨g, x⟩ d ⟨hmem, -, hd⟩
    obtain ⟨v, w, hv, hw, hblob⟩ := globalBlob_eq hnames h.toCoherent hd (h.filled d g hd) kind
    rw [Module.global_eq_of_getElem? (mem_live_iff.1 hmem).1] at hblob
    rw [Catalog.blob, hv, hw]
    exact hblob

/-- Whatever has its contents in an image is available. -/
theorem Coherent.available (hs : s.Coherent c known) (hc : c.Rooted)
    (hfilled : ∀ d g, (d, g) ∈ s.entries → s.IsFilled g) :
    c.Available fun d => d ∈ s.entries.map (·.1) := by
  refine ⟨fun d hd => ?_⟩
  obtain ⟨⟨d, g⟩, hmem, rfl⟩ := List.mem_map.1 hd
  obtain ⟨v, x, hv, hx, hstands⟩ := hs.stands d g hmem
  obtain ⟨y, hy, hk⟩ := hfilled d g hmem
  obtain rfl := Option.some.inj (hx.symm.trans hy)
  obtain ⟨k, hk⟩ := Option.isSome_iff_exists.1 hk
  obtain ⟨w, hw, -, -⟩ := hstands.filled k hk
  refine ⟨v, w, hv, hstands.notNested, ?_, hw, fun e he => ?_⟩
  · cases htakes : v.takesTypeFromContents with
    | false =>
      obtain ⟨id, hid, -⟩ := hstands.typed htakes
      exact (hs.layouts _ _ hid).2.1
    | true => exact hc.laid_of_takesTypeFromContents hv hw htakes
  · exact hs.toRegistered.mem_of_reaches hfilled hd (.tail .refl ⟨w, hw, he⟩)

/-- All that is in a complete image is available. -/
theorem Complete.available (h : s.Complete c known roots) (hc : c.Rooted) :
    c.Available (c.ReachedFrom roots) := by
  have hreached : c.ReachedFrom roots = fun d => d ∈ s.entries.map (·.1) :=
    funext fun d => propext (h.reached d).symm
  rw [hreached]
  exact h.toCoherent.available hc h.filled

end Image

namespace Build

variable {c : Catalog}

/-- **Where the blobs of a build come from**: from the values that are reached from the roots, one
for each of them. -/
theorem available_of_blobsFrom (hc : c.Rooted) (hs : c.Scoped) {name : String}
    {roots : List DescriptorId} {bs : List Blob} (h : blobsFrom c name roots = some bs) :
    c.Available (c.ReachedFrom roots) ∧ ∃ ds, ds.Nodup ∧
      (∀ d, d ∈ ds ↔ c.ReachedFrom roots d) ∧ c.blobs ds = .ok bs := by
  unfold blobsFrom at h
  split at h
  · cases h
  · rename_i s hrun
    have hcomplete := fromRoots_complete (hc.closed hs) hrun
    obtain ⟨ds, hperm, hlower⟩ := hcomplete.lower_eq hc.distinctNames
    refine ⟨hcomplete.available hc, ds, hperm.nodup_iff.2 hcomplete.distinct, fun d => ?_, ?_⟩
    · rw [hperm.mem_iff, hcomplete.reached]
    · rw [hlower] at h
      cases hblobs : c.blobs ds with
      | error e =>
        rw [hblobs] at h
        cases h
      | ok bs' =>
        rw [hblobs] at h
        exact congrArg _ (Option.some.inj h)

/-- **When a build has blobs**: when all that is reached from the roots is available and has a blob.
-/
theorem exists_blobsFrom (hc : c.Rooted) (hs : c.Scoped) (name : String)
    {roots : List DescriptorId} (h : c.Available (c.ReachedFrom roots)) {ds : List DescriptorId}
    (hnodup : ds.Nodup) (hds : ∀ d, d ∈ ds ↔ c.ReachedFrom roots d) {bs : List Blob}
    (hbs : c.blobs ds = .ok bs) : ∃ bs', blobsFrom c name roots = some bs' ∧ bs.Perm bs' := by
  obtain ⟨s, hrun⟩ := fromRoots_succeeds (hc.closed hs) name h
  have hcomplete := fromRoots_complete (hc.closed hs) hrun
  obtain ⟨ds', hperm, hlower⟩ := hcomplete.lower_eq hc.distinctNames
  have hsame : ds.Perm ds' := by
    rw [List.perm_ext_iff_of_nodup hnodup (hperm.nodup_iff.2 hcomplete.distinct)]
    intro d
    rw [hds, hperm.mem_iff, hcomplete.reached]
  unfold Catalog.blobs at hbs hlower
  cases hkind : RelocationKind.ofPointerBytes? c.pointerSize with
  | none =>
    rw [hkind] at hbs
    cases hbs
  | some kind =>
    rw [hkind] at hbs hlower
    obtain ⟨bs', hbs', hp⟩ := Partial.mapM_perm hsame hbs
    refine ⟨bs', ?_, hp⟩
    simp only [blobsFrom, hrun, hlower, hbs', Except.toOption]

/-- One direction of the independence of the order. -/
theorem exists_blobsFrom_of_perm (hc : c.Rooted) (hs : c.Scoped) (name : String)
    {roots roots' : List DescriptorId} (h : roots.Perm roots') {bs : List Blob}
    (hbs : blobsFrom c name roots = some bs) :
    ∃ bs', blobsFrom c name roots' = some bs' ∧ bs.Perm bs' := by
  obtain ⟨havailable, ds, hnodup, hds, hblobs⟩ := available_of_blobsFrom hc hs hbs
  have hreached : c.ReachedFrom roots = c.ReachedFrom roots' := by
    funext d
    exact propext (exists_congr fun r => and_congr_left fun _ => h.mem_iff)
  rw [hreached] at havailable hds
  exact exists_blobsFrom hc hs name havailable hnodup hds hblobs

/-- **The blobs of a build do not depend on the order of its roots.** One order gives blobs if and
only if another one does, and then they are the same blobs up to order. -/
theorem blobsFrom_perm (hc : c.Declared) (hs : c.Scoped) (name : String)
    {roots roots' : List DescriptorId} (h : roots.Perm roots') :
    ((blobsFrom c name roots).isSome = true ↔ (blobsFrom c name roots').isSome = true) ∧
      ∀ bs bs', blobsFrom c name roots = some bs → blobsFrom c name roots' = some bs' →
        bs.Perm bs' := by
  have hrooted := hc.wellDeclared.toRooted
  refine ⟨?_, fun bs bs' hbs hbs' => ?_⟩
  · rw [Option.isSome_iff_exists, Option.isSome_iff_exists]
    constructor
    · rintro ⟨bs, hbs⟩
      obtain ⟨bs', hbs', -⟩ := exists_blobsFrom_of_perm hrooted hs name h hbs
      exact ⟨bs', hbs'⟩
    · rintro ⟨bs, hbs⟩
      obtain ⟨bs', hbs', -⟩ := exists_blobsFrom_of_perm hrooted hs name h.symm hbs
      exact ⟨bs', hbs'⟩
  · obtain ⟨bs'', hbs'', hperm⟩ := exists_blobsFrom_of_perm hrooted hs name h hbs
    obtain rfl := Option.some.inj (hbs'.symm.trans hbs'')
    exact hperm

/-- Two nodes that refer to each other, asked for in both orders. -/
theorem blobsFrom_perm_pair : ∃ bs bs',
    blobsFrom Catalog.pair "Pair" [⟨5⟩, ⟨6⟩] = some bs ∧
      blobsFrom Catalog.pair "Pair" [⟨6⟩, ⟨5⟩] = some bs' ∧ bs.Perm bs' := by
  have hswap : [DescriptorId.mk 5, ⟨6⟩].Perm [⟨6⟩, ⟨5⟩] := .swap _ _ _
  obtain ⟨hiff, hperm⟩ :=
    blobsFrom_perm Catalog.pair_declared Catalog.pair_scoped "Pair" hswap
  have hsome : (blobsFrom Catalog.pair "Pair" [⟨5⟩, ⟨6⟩]).isSome = true := by decide +kernel
  obtain ⟨bs, hbs⟩ := Option.isSome_iff_exists.1 hsome
  obtain ⟨bs', hbs'⟩ := Option.isSome_iff_exists.1 (hiff.1 hsome)
  exact ⟨bs, bs', hbs, hbs', hperm bs bs' hbs hbs'⟩

end Build

end DataImage
