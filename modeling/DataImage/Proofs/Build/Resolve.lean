import DataImage.Image.Resolve
import DataImage.Proofs.Build.Content

/-!
# Filling placeholders

Filling a placeholder settles a global and leaves the settled ones alone (`Build.fill_advances`).
Going through the registered values fills every one of them, with those that are registered on the
way (`Build.resolveAll_advances`): a position that was passed stays filled, and there are no more
positions than values.
-/

namespace DataImage

namespace Image

variable {c : Catalog} {known : TypeId → Prop} {s s' : Image}

/-- Whether a global has its contents. -/
def IsFilled (s : Image) (g : GlobalId) : Prop :=
  ∃ x, s.module.globals[g.index]? = some x ∧ x.initializer.isSome = true

/-- Whether the values registered before a position have their contents. -/
def FilledBelow (s : Image) (start : Nat) : Prop :=
  ∀ j d g, j < start → s.entries[j]? = some (d, g) → s.IsFilled g

theorem FilledBelow.zero (s : Image) : s.FilledBelow 0 :=
  fun _ _ _ h => absurd h (Nat.not_lt_zero _)

theorem FilledBelow.mono {m n : Nat} (h : s.FilledBelow n) (hmn : m ≤ n) : s.FilledBelow m :=
  fun j d g hj => h j d g (Nat.lt_of_lt_of_le hj hmn)

theorem Settles.isFilled (h : s.Settles s') {g : GlobalId} (hg : s.IsFilled g) :
    s'.IsFilled g := by
  obtain ⟨x, hx, hk⟩ := hg
  exact ⟨x, h.initialized _ x hx hk, hk⟩

/-- A registered global stands for itself. -/
theorem Registered.resolve (h : s.Registered c) {d : DescriptorId} {g : GlobalId}
    (hd : (d, g) ∈ s.entries) : s.module.resolve g = g := by
  obtain ⟨v, x, -, hx, hstands⟩ := h.stands d g hd
  refine Module.resolve_of_live ?_
  rw [Module.global_eq_of_getElem? hx, hstands.live]

theorem Registered.isFilled_iff (h : s.Registered c) {d : DescriptorId} {g : GlobalId}
    (hd : (d, g) ∈ s.entries) : s.IsFilled g ↔ s.module.isPlaceholder g = false := by
  obtain ⟨v, x, -, hx, -⟩ := h.stands d g hd
  rw [Module.isPlaceholder, Module.global_eq_of_getElem? hx, Global.isPlaceholder, IsFilled, hx]
  simp

/-- There are no more entries than values. -/
theorem Registered.length_entries_le (h : s.Registered c) :
    s.entries.length ≤ c.descriptors.length := by
  have hsub : s.entries.map (·.1) ⊆ (List.range c.descriptors.length).map DescriptorId.mk := by
    intro d hd
    obtain ⟨⟨d, g⟩, hmem, rfl⟩ := List.mem_map.1 hd
    obtain ⟨v, -, hv, -⟩ := h.stands d g hmem
    exact List.mem_map.2 ⟨d.index, List.mem_range.2 (List.getElem?_eq_some_iff.1 hv).1, rfl⟩
  simpa using h.distinct.length_le_of_subset hsub

end Image

namespace Build

variable {α β : Type} {c : Catalog} {known : TypeId → Prop} {s : Image}

/-! ## Steps that fill -/

/-- A step that changes no settled global. -/
abbrev Advances (c : Catalog) (known : TypeId → Prop) (s : Image) (x : Build α)
    (post : α → Image → Prop) : Prop :=
  Keeps Image.Settles c known s x post

instance : Std.Refl Image.Settles := ⟨Image.Settles.refl⟩

instance : IsTrans Image Image.Settles := ⟨fun _ _ _ => Image.Settles.trans⟩

namespace Advances

variable {x : Build α} {post : α → Image → Prop}

theorem of_runs (h : Runs c known s x post) : Advances c known s x post :=
  h.mono (fun _ => Image.Grows.settles) fun _ _ _ _ hp => hp

/-- A step that only adds, and what follows it. -/
theorem after_runs {f : α → Build β} {post' : β → Image → Prop} (hx : Runs c known s x post)
    (hf : ∀ a s', s.Grows s' → s'.Coherent c known → post a s' →
      Advances c known s' (f a) post') :
    Advances c known s (x >>= f) post' :=
  (of_runs (hx.imp fun _ _ hg _ hp => ⟨hg, hp⟩)).bind
    fun a s' _ hs' (h : s.Grows s' ∧ post a s') => hf a s' h.1 hs' h.2

end Advances

variable (hc : c.Closed known)

include hc

/-- **Filling the placeholder of a value.** -/
theorem fill_advances (hs : s.Coherent c known) {d : DescriptorId} {g : GlobalId}
    (hd : (d, g) ∈ s.entries) (hempty : s.module.isPlaceholder g = true) :
    Advances c known s (fill c d g) fun _ s' => s'.IsFilled g ∧ s.Adds c s' [d] := by
  unfold fill
  refine Advances.after_runs (contentsOf_runs hc d hs) fun k s₁ hgrows hs₁ hpost => ?_
  obtain ⟨w, hw, hk, hadds⟩ := hpost
  have hd₁ := hgrows.entries.subset hd
  have hadds' : s.Adds c s₁ [d] := hadds.of_refers hw
  obtain ⟨v, x, hv, hx, hstands⟩ := hs.stands d g hd
  have hx₁ := Partial.getElem?_of_prefix hgrows.globals hx
  have hnone : x.initializer = none := by
    rw [Module.isPlaceholder, Module.global_eq_of_getElem? hx, Global.isPlaceholder,
      Option.isNone_iff_eq_none] at hempty
    exact hempty
  rw [Build.descriptor, hv]
  simp only [pure_bind]
  unfold Advances Keeps
  cases htakes : v.takesTypeFromContents with
  | true =>
    obtain ⟨m, t, y, hadd, -, htable, hy, hmerge, hcoherent⟩ := hs₁.absorb hd₁ hv htakes hw hk
    rw [if_pos rfl, run_bind (run_onModule _ _), hadd, run_modifyModule, hmerge]
    refine ⟨Image.settles_absorb htable g y, hcoherent, ⟨_, ?_,
      Image.isSome_initializer_adopt x (y := y) (by rw [hy, Option.isSome_some])⟩,
      hadds'⟩
    refine Partial.getElem?_of_prefix (Image.grows_bury (s := s₁.change g (Global.adopt · y)) htable
      _).globals ?_
    rw [Image.getElem?_change_of_eq_some hx₁, if_pos rfl]
  | false =>
    have hset : { s₁ with module := s₁.module.setInitializer g k } =
        s₁.change g fun x => { x with initializer := some k } := rfl
    rw [if_neg Bool.false_ne_true, run_modifyModule, hset]
    refine ⟨⟨Image.extends_change _ _ _, fun i y hy hfilled => ?_, rfl⟩, ?_, ⟨_,
      Image.getElem?_change_of_eq_some hx₁ _, ?_⟩, hadds'⟩
    · rw [Image.getElem?_change_of_eq_some hy, if_neg]
      rintro rfl
      obtain rfl := Option.some.inj (hx₁.symm.trans hy)
      rw [hnone] at hfilled
      cases hfilled
    · refine hs₁.change hd₁ hv (fun _ => rfl) fun y _ hy => ?_
      exact
        { notNested := hy.notNested
          live := hy.live
          constant := hy.constant
          name := hy.name
          typed := hy.typed
          filled := fun k' hk' => by
            obtain rfl := Option.some.inj hk'
            exact ⟨w, hw, hk, fun h => absurd (htakes.symm.trans h) (by decide)⟩ }
    · rw [if_pos rfl, Option.isSome_some]

/-- **The global of a value, with its contents.** -/
theorem materialize_advances (hs : s.Coherent c known) (d : DescriptorId) :
    Advances c known s (materialize c d) fun g s' =>
      s'.global? d = some g ∧ s'.IsFilled g ∧ s.Adds c s' [d] := by
  unfold materialize
  refine Advances.after_runs (request_runs hc d hs) fun g s₁ _ hs₁ hpost => ?_
  obtain ⟨hg, hadds⟩ := hpost
  have hmem := Partial.mem_of_lookup_eq_some hg
  refine Keeps.get_bind ?_
  cases hempty : s₁.module.isPlaceholder g with
  | false => exact Keeps.pure hs₁ ⟨hg, (hs₁.isFilled_iff hmem).2 hempty, hadds⟩
  | true =>
    refine (fill_advances hc hs₁ hmem hempty).bind fun _ s₂ hsettles hs₂ hpost => ?_
    obtain ⟨hfilled, hadds'⟩ := hpost
    refine Keeps.pure hs₂ ⟨hsettles.global? hg, hfilled, (hadds.trans hadds').mono ?_⟩
    simp

/-! ## Filling all -/

omit hc in
/-- What the search for a placeholder sees at a position. -/
theorem getElem?_drop_zipIdx {α : Type} {l : List α} {start q : Nat} {a : α} {i : Nat}
    (h : (l.zipIdx.drop start)[q]? = some (a, i)) : i = start + q ∧ l[i]? = some a := by
  rw [List.getElem?_drop, List.getElem?_zipIdx, Option.map_eq_some_iff] at h
  obtain ⟨b, hb, heq⟩ := h
  obtain ⟨rfl, rfl⟩ := Prod.mk.inj heq
  rw [Nat.zero_add]
  exact ⟨rfl, hb⟩

omit hc in
/-- What the search for a placeholder passes over has contents. -/
theorem isFilled_of_passed (hs : s.Coherent c known) {j : Nat} {d : DescriptorId}
    {g : GlobalId} (hj : s.entries[j]? = some (d, g))
    (h : (fun (x : (DescriptorId × GlobalId) × Nat) =>
      if s.module.isPlaceholder (s.module.resolve x.1.2) then
        some (x.2, x.1.1, s.module.resolve x.1.2) else none) ((d, g), j) = none) :
    s.IsFilled g := by
  have hmem := List.mem_of_getElem? hj
  dsimp only at h
  rw [hs.resolve hmem] at h
  rw [hs.isFilled_iff hmem]
  by_contra hempty
  rw [if_pos ((Bool.not_eq_false _).mp hempty)] at h
  cases h

omit hc in
theorem isFilled_of_nextPlaceholder?_eq_none (hs : s.Coherent c known) {start : Nat}
    (h : s.nextPlaceholder? start = none) {j : Nat} (hle : start ≤ j) {d : DescriptorId}
    {g : GlobalId} (hj : s.entries[j]? = some (d, g)) : s.IsFilled g := by
  rw [Image.nextPlaceholder?, List.findSome?_eq_none_iff] at h
  refine isFilled_of_passed hs hj (h ((d, g), j) ?_)
  refine List.mem_of_getElem? (i := j - start) ?_
  rw [List.getElem?_drop, Nat.add_sub_cancel' hle, List.getElem?_zipIdx, hj]
  simp

omit hc in
theorem nextPlaceholder?_eq_some (hs : s.Coherent c known) {start i : Nat} {d : DescriptorId}
    {g : GlobalId} (h : s.nextPlaceholder? start = some (i, d, g)) :
    start ≤ i ∧ s.entries[i]? = some (d, g) ∧ s.module.isPlaceholder g = true ∧
      ∀ j e g', start ≤ j → j < i → s.entries[j]? = some (e, g') → s.IsFilled g' := by
  rw [Image.nextPlaceholder?, List.findSome?_eq_some_iff] at h
  obtain ⟨l₁, ⟨⟨d', g'⟩, i'⟩, l₂, hsplit, hfound, hpassed⟩ := h
  obtain ⟨hi, hentry⟩ := getElem?_drop_zipIdx (q := l₁.length) (by
    rw [hsplit, List.getElem?_append_right (Nat.le_refl _), Nat.sub_self]
    rfl)
  have hmem := List.mem_of_getElem? hentry
  dsimp only at hfound
  rw [hs.resolve hmem] at hfound
  split at hfound
  · rename_i hempty
    obtain ⟨rfl, hdg⟩ := Prod.mk.inj (Option.some.inj hfound)
    obtain ⟨rfl, rfl⟩ := Prod.mk.inj hdg
    refine ⟨by omega, hentry, hempty, fun j e g' hle hlt hj => ?_⟩
    refine isFilled_of_passed hs hj (hpassed ((e, g'), j) ?_)
    refine List.mem_of_getElem? (i := j - start) ?_
    have hbefore := congrArg (·[j - start]?) hsplit
    rw [List.getElem?_append_left (by omega), List.getElem?_drop, Nat.add_sub_cancel' hle,
      List.getElem?_zipIdx, hj] at hbefore
    simpa using hbefore.symm
  · cases hfound

omit hc in
/-- Where the search finds no placeholder everything has its contents. -/
theorem isFilled_of_filledBelow (hs : s.Coherent c known) {start : Nat} (h : s.FilledBelow start)
    (hnext : s.nextPlaceholder? start = none) {d : DescriptorId} {g : GlobalId}
    (hd : (d, g) ∈ s.entries) : s.IsFilled g := by
  obtain ⟨j, hj⟩ := List.mem_iff_getElem?.1 hd
  rcases Nat.lt_or_ge j start with hlt | hle
  · exact h j d g hlt hj
  · exact isFilled_of_nextPlaceholder?_eq_none hs hnext hle hj

omit hc in
/-- Once the placeholder that the search finds is filled, everything up to it has its contents. -/
theorem filledBelow_succ (hs : s.Coherent c known) {start i : Nat} {d : DescriptorId}
    {g : GlobalId} (h : s.FilledBelow start) (hnext : s.nextPlaceholder? start = some (i, d, g))
    {s' : Image} (hsettles : s.Settles s') (hfilled : s'.IsFilled g) : s'.FilledBelow (i + 1) := by
  obtain ⟨-, hentry, -, hskipped⟩ := nextPlaceholder?_eq_some hs hnext
  intro j e g' hlt hj
  have hlen := (List.getElem?_eq_some_iff.1 hentry).1
  have hold : s.entries[j]? = some (e, g') := by
    obtain ⟨r, hr⟩ := hsettles.entries
    rw [← hr, List.getElem?_append_left (by omega)] at hj
    exact hj
  rcases Nat.lt_or_ge j start with hj' | hj'
  · exact hsettles.isFilled (h j e g' hj' hold)
  · rcases Nat.lt_succ_iff_lt_or_eq.1 hlt with hj'' | rfl
    · exact hsettles.isFilled (hskipped j e g' hj' hj'' hold)
    · obtain ⟨-, rfl⟩ := Prod.mk.inj (Option.some.inj (hentry.symm.trans hold))
      exact hfilled

theorem resolveFrom_advances (hs : s.Coherent c known) {steps start : Nat} (filled : Nat)
    (hsteps : c.descriptors.length + 1 ≤ steps + start) (hpassed : s.FilledBelow start) :
    Advances c known s (resolveFrom c steps start filled) fun _ s' =>
      (∀ d g, (d, g) ∈ s'.entries → s'.IsFilled g) ∧ s.Adds c s' (s.entries.map (·.1)) := by
  induction steps generalizing s start filled with
  | zero =>
    refine Keeps.pure hs ⟨fun d g hd => ?_, Image.Adds.of_entries_eq rfl _⟩
    obtain ⟨j, hj⟩ := List.mem_iff_getElem?.1 hd
    have hlen := hs.length_entries_le
    have hlt := (List.getElem?_eq_some_iff.1 hj).1
    exact hpassed j d g (by omega) hj
  | succ steps ih =>
    rw [resolveFrom]
    refine Keeps.get_bind ?_
    cases hnext : s.nextPlaceholder? start with
    | none =>
      exact Keeps.pure hs ⟨fun d g => isFilled_of_filledBelow hs hpassed hnext,
        Image.Adds.of_entries_eq rfl _⟩
    | some found =>
      obtain ⟨i, d, g⟩ := found
      obtain ⟨hle, hentry, hempty, -⟩ := nextPlaceholder?_eq_some hs hnext
      have hmem := List.mem_of_getElem? hentry
      refine (fill_advances hc hs hmem hempty).bind fun _ s₁ hsettles hs₁ hpost => ?_
      obtain ⟨hfilled, hadds⟩ := hpost
      have hpassed₁ := filledBelow_succ hs hpassed hnext hsettles hfilled
      refine (ih hs₁ (filled + 1) (by omega) hpassed₁).imp fun _ _ _ _ hpost => ?_
      obtain ⟨hall, hadds'⟩ := hpost
      have hd : ∀ r ∈ [d], r ∈ s.entries.map (·.1) := fun r hr =>
        List.mem_map.2 ⟨(d, g), hmem, (List.mem_singleton.1 hr).symm⟩
      exact ⟨hall, (hadds.mono hd).absorb hadds' fun e he => List.mem_map_of_mem he⟩

/-- **Filling every registered value.** -/
theorem resolveAll_advances (hs : s.Coherent c known) :
    Advances c known s (resolveAll c) fun _ s' =>
      (∀ d g, (d, g) ∈ s'.entries → s'.IsFilled g) ∧ s.Adds c s' (s.entries.map (·.1)) :=
  resolveFrom_advances hc hs 0 (Nat.le_refl _) (.zero s)

end Build

end DataImage
