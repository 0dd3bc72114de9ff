import DataImage.Proofs.Build.Layout

/-!
# References to values

A request gives the global that is registered for the value, and it registers one if there is none
(`Build.requestWith_runs`). Building the contents of an array or a string can register the value on
the way; the global that is made afterwards is then merged into the registered one
(`Image.Coherent.absorb`).
-/

namespace DataImage

namespace Image

variable {c : Catalog} {known : TypeId → Prop} {s s' : Image}

/-! ## Merging into a registered global -/

/-- The image with a new global merged into a registered one. -/
def absorb (s : Image) (t : SymbolTable) (g : GlobalId) (x : Global) : Image :=
  (s.change g (Global.adopt · x)).bury t { x with initializer := none, mergedInto := some g }

theorem name_adopt (into merged : Global) : (into.adopt merged).name = into.name := by
  unfold Global.adopt
  split <;> rfl

/-- What absorbed contents has contents. -/
theorem isSome_initializer_adopt (x : Global) {y : Global} (h : y.initializer.isSome = true) :
    (x.adopt y).initializer.isSome = true := by
  obtain ⟨k, hk⟩ := Option.isSome_iff_exists.1 h
  unfold Global.adopt
  cases hx : x.initializer with
  | none => simp [hk]
  | some k' => simp [hx]

/-- What has contents absorbs nothing. -/
theorem adopt_of_isSome {into : Global} (h : into.initializer.isSome = true) (merged : Global) :
    into.adopt merged = into := by
  obtain ⟨k, hk⟩ := Option.isSome_iff_exists.1 h
  unfold Global.adopt
  rw [hk]

theorem extends_absorb {t : SymbolTable} (ht : s.module.symbols.names <+: t.names) (g : GlobalId)
    (x : Global) : s.Extends (s.absorb t g x) :=
  (extends_change s g _).trans (grows_bury (s := s.change g (Global.adopt · x)) ht _).toExtends

theorem settles_absorb {t : SymbolTable} (ht : s.module.symbols.names <+: t.names) (g : GlobalId)
    (x : Global) : s.Settles (s.absorb t g x) where
  toExtends := extends_absorb ht g x
  initialized := fun i y hy hk => by
    refine Partial.getElem?_of_prefix
      (grows_bury (s := s.change g (Global.adopt · x)) ht _).globals ?_
    rw [getElem?_change_of_eq_some hy]
    split
    · rw [adopt_of_isSome hk]
    · rfl
  building := rfl

/-- Absorbing into a global that came up since `s` does not change what `s` has. -/
theorem Grows.absorb (h : s.Grows s') {t : SymbolTable}
    (ht : s'.module.symbols.names <+: t.names) {g : GlobalId}
    (hg : s.module.globals.length ≤ g.index) (x : Global) : s.Grows (s'.absorb t g x) where
  toExtends := h.toExtends.trans (extends_absorb ht g x)
  globals := by
    obtain ⟨r, hr⟩ := h.globals
    refine List.IsPrefix.trans ?_ (grows_bury (s := s'.change g (Global.adopt · x)) ht _).globals
    refine ⟨r.modify (g.index - s.module.globals.length) (Global.adopt · x), ?_⟩
    rw [change, Module.updateGlobal, ← hr, Module.modify_append_of_le _ hg]
  building := h.building

/-- A global that came up since `s` for a value without one in `s` is none of those of `s`. -/
theorem Registered.length_le_of_new (hs : s.Registered c) (hs' : s'.Registered c)
    (h : s.Grows s') {d : DescriptorId} (hd : s.global? d = none) {g : GlobalId}
    (hg : (d, g) ∈ s'.entries) : s.module.globals.length ≤ g.index := by
  by_contra hlt
  rw [Nat.not_le] at hlt
  have hx := List.getElem?_eq_getElem hlt
  obtain ⟨v, y, -, hy, hstands⟩ := hs'.stands d g hg
  obtain rfl := Option.some.inj ((Partial.getElem?_of_prefix h.globals hx).symm.trans hy)
  obtain ⟨e, he⟩ := hs.live g.index _ hx hstands.live
  obtain rfl := hs'.eq_of_mem (h.entries.subset he) hg
  exact Partial.notMem_of_lookup_eq_none hd g he

/-- **Merging a global with the contents of a value into the one that is registered.** -/
theorem Coherent.absorb (hs : s.Coherent c known) {d : DescriptorId} {g : GlobalId}
    (hd : (d, g) ∈ s.entries) {v : Descriptor} (hv : c.descriptor? d = some v)
    (htakes : v.takesTypeFromContents = true) {w : Value} (hw : c.contents? d = some w)
    {k : Constant} (hk : s.constant? w = some k) :
    ∃ m t x, s.module.addInitialized (c.globalName d v) k = (⟨s.module.globals.length⟩, m) ∧
      m.global g = s.module.global g ∧ s.module.symbols.names <+: t.names ∧
      x.initializer = some k ∧
      { s with module := m.merge ⟨s.module.globals.length⟩ g } = s.absorb t g x ∧
      (s.absorb t g x).Coherent c known := by
  obtain ⟨n, t, heq, htable, -, -, hfree⟩ :=
    Module.addGlobal_spec (fun e he => hs.key_lt he) (c.globalName d v) k.type (some k)
  have hg := hs.lt_of_mem hd
  refine ⟨_, t, ⟨n, k.type, some k, false, none⟩, heq, ?_, htable, rfl, ?_, ?_⟩
  · rw [Module.global_eq_getElem hg]
    refine Module.global_eq_of_getElem? ?_
    rw [List.getElem?_append_left hg, List.getElem?_eq_getElem hg]
  · have hmerge := Module.merge_fresh (t := t) (x := ⟨n, k.type, some k, false, none⟩) hg
      (hfree (hs.exists_free d v)) rfl ?_
    · simp only [hmerge]
      rfl
    · intro y hy k' hk' hmem
      have hentry : ∃ e, (e, ⟨s.module.globals.length⟩) ∈ s.entries := by
        rcases List.mem_cons.1 hy with rfl | hy
        · obtain rfl := Option.some.inj hk'
          obtain ⟨e, -, he⟩ := exists_reference_of_mem_globals hk hmem
          exact ⟨e, Partial.mem_of_lookup_eq_some he⟩
        · obtain ⟨i, hi⟩ := List.mem_iff_getElem?.1 hy
          exact hs.exists_entry_of_mention hi hk' hmem
      obtain ⟨e, he⟩ := hentry
      exact Nat.lt_irrefl _ (hs.lt_of_mem he)
  · refine (hs.change hd hv (fun x => name_adopt x _) fun x _ hx => ?_).bury htable
      (Option.some_ne_none _) rfl
    cases hinit : x.initializer with
    | some k' => rwa [adopt_of_isSome (by rw [hinit, Option.isSome_some])]
    | none =>
      rw [Global.adopt, hinit]
      exact
        { notNested := hx.notNested
          live := hx.live
          constant := hx.constant
          name := hx.name
          typed := fun hv' => absurd (htakes.symm.trans hv') (by decide)
          filled := fun k' hk' => by
            obtain rfl := Option.some.inj hk'
            exact ⟨w, hw, hk, fun _ => rfl⟩ }

/-! ## Marks -/

theorem extends_mark (s : Image) (marks : List DescriptorId) :
    s.Extends { s with building := marks } :=
  ⟨rfl, rfl, List.prefix_refl _, fun _ _ h => h, fun _ _ h => h, List.prefix_refl _⟩

theorem Coherent.mark (hs : s.Coherent c known) (marks : List DescriptorId) :
    Coherent c known { s with building := marks } where
  toLaidOut := hs.toLaidOut.extends (extends_mark s marks) rfl rfl rfl rfl
  toRegistered := hs.toRegistered.extends (extends_mark s marks) rfl rfl rfl

end Image

namespace Build

variable {c : Catalog} {known : TypeId → Prop} {s : Image}

/-- Running a step with a value marked, which was not marked before. -/
theorem whileBuilding_runs {α : Type} {x : Build α} {post post' : α → Image → Prop}
    {d : DescriptorId} (hd : d ∉ s.building)
    (h : Runs c known { s with building := d :: s.building } x post)
    (hpost : ∀ a s' marks, post a s' → post' a { s' with building := marks }) :
    Runs c known s (whileBuilding d x) post' := by
  have unmarked : ∀ s', Image.Grows { s with building := d :: s.building } s' →
      s.Grows { s' with building := s'.building.filter (· ≠ d) } := by
    intro s' hgrows
    refine ⟨⟨hgrows.width, hgrows.aliases, hgrows.symbols, hgrows.layouts, hgrows.declarations,
      hgrows.entries⟩, hgrows.globals, ?_⟩
    rw [hgrows.building, List.filter_cons_of_neg (by simp), List.filter_eq_self]
    intro e he
    rw [decide_eq_true_iff]
    rintro rfl
    exact hd he
  unfold Runs Keeps whileBuilding
  cases hx : x { s with building := d :: s.building } with
  | ok a s' =>
    obtain ⟨hgrows, hs', hp⟩ := h.of_ok hx
    exact ⟨unmarked s' hgrows, hs'.mark _, hpost a s' _ hp⟩
  | error f s' =>
    obtain ⟨hgrows, hs'⟩ := h.of_error hx
    exact ⟨unmarked s' hgrows, hs'.mark _⟩

/-! ## Registering -/

/-- A new global for a value without one. -/
theorem register_new (hs : s.Coherent c known) {d : DescriptorId} (hd : s.global? d = none)
    {v : Descriptor} (hv : c.descriptor? d = some v) (type : Storage)
    (contents : Option Constant) :
    ∃ m t n, s.module.addGlobal (c.globalName d v) type contents =
        (⟨s.module.globals.length⟩, m) ∧
      s.module.symbols.names <+: t.names ∧ t.names[n.index]? = some (c.globalName d v) ∧
      register c d ⟨s.module.globals.length⟩ { s with module := m } =
        .ok ⟨s.module.globals.length⟩
          (s.enter t d { name := n, type, initializer := contents, constant := !v.isMutable }) := by
  obtain ⟨n, t, heq, htable, -, hname, -⟩ :=
    Module.addGlobal_spec (fun e he => hs.key_lt he) (c.globalName d v) type contents
  refine ⟨_, t, n, heq, htable, hname (hs.not_taken hd v), ?_⟩
  have hd' : ∀ m, Image.global? { s with module := m } d = none := fun _ => hd
  unfold register
  rw [run_bind (run_get _), hd']
  cases hm : v.isMutable <;>
    simp [hv, hm, run_bind (run_modify _ _), run_bind (run_modifyModule _ _), pure, EStateM.pure,
      Image.enter, Module.flagConstant, Module.updateGlobal, Module.modify_append_last]

/-- A value that has a global keeps it when another one is made for it. -/
theorem register_again (hs : s.Coherent c known) {d : DescriptorId} {g : GlobalId}
    (hd : s.global? d = some g) {m : Module} (hm : m.global g = s.module.global g)
    (fresh : GlobalId) :
    register c d fresh { s with module := m } = .ok g { s with module := m.merge fresh g } := by
  have hd' : Image.global? { s with module := m } d = some g := hd
  have hlive : m.resolve g = g := by
    obtain ⟨v, x, -, hx, hstands⟩ := hs.stands d g (Partial.mem_of_lookup_eq_some hd)
    refine Module.resolve_of_live ?_
    rw [hm, Module.global_eq_of_getElem? hx, hstands.live]
  unfold register
  rw [run_bind (run_get _), hd']
  dsimp only
  rw [hlive, run_bind (run_modifyModule _ _)]
  rfl

/-! ## Requesting -/

/-- A step that wrote down a value. -/
def Writes (c : Catalog) (s : Image) (v? : Option Value) (k : Constant) (s' : Image) : Prop :=
  ∃ v, v? = some v ∧ s'.constant? v = some k ∧ s.Adds c s' v.references

/-- A step that gave a value its global. -/
def NamesGlobal (c : Catalog) (s : Image) (d : DescriptorId) (g : GlobalId) (s' : Image) : Prop :=
  s'.global? d = some g ∧ s.Adds c s' [d]

theorem adds_enter {t : SymbolTable} {d : DescriptorId} {x : Global} {s₀ : Image}
    (h : s₀.entries = s.entries) : s₀.Adds c (s.enter t d x) [d] := by
  intro e he
  rcases List.mem_append.1 he with he | he
  · exact Or.inl (h ▸ he)
  · obtain rfl := List.mem_singleton.1 he
    exact Or.inr ⟨d, List.mem_singleton.2 rfl, .refl⟩

theorem global?_enter {t : SymbolTable} {d : DescriptorId} {x : Global}
    (hd : s.global? d = none) :
    (s.enter t d x).global? d = some ⟨s.module.globals.length⟩ := by
  have hd' : s.entries.lookup d = none := hd
  simp [Image.enter, Image.global?, List.lookup_append, hd']

theorem placeholder_runs (hc : c.Closed known) (hs : s.Coherent c known) {d : DescriptorId}
    (hd : s.global? d = none) {v : Descriptor} (hv : c.descriptor? d = some v)
    (hnested : v.isNested = false) : Runs c known s (placeholder c d v) (NamesGlobal c s d) := by
  refine (layoutOf_runs hc (hc.contexts d v hv) hs).bind fun id s₁ hgrows hs₁ hpost => ?_
  obtain ⟨hid, huses⟩ := hpost
  have hd₁ : s₁.global? d = none := by
    rw [Image.global?, huses.entries]
    exact hd
  obtain ⟨m, t, n, hadd, htable, hname, hregister⟩ :=
    register_new hs₁ hd₁ hv (.struct id) none
  unfold Keeps
  rw [run_bind (run_onModule _ _), Module.addPlaceholder, hadd, hregister]
  refine ⟨Image.grows_enter htable d _, hs₁.enter htable hd₁ hv ?_, global?_enter hd₁,
    adds_enter huses.entries.symm⟩
  exact
    { notNested := hnested
      live := rfl
      constant := rfl
      name := hname
      typed := fun _ => ⟨id, hid, rfl⟩
      filled := fun k hk => by cases hk }

section

variable {contents : DescriptorId → Build Constant}
  (hcontents : ∀ d s, Image.Coherent c known s →
    Runs c known s (contents d) (Writes c s (c.contents? d)))

include hcontents

theorem eager_runs (hs : s.Coherent c known) {d : DescriptorId} (hd : s.global? d = none)
    (hmark : d ∉ s.building) {v : Descriptor} (hv : c.descriptor? d = some v)
    (hnested : v.isNested = false) (htakes : v.takesTypeFromContents = true) :
    Runs c known s (eager c contents d v) (NamesGlobal c s d) := by
  have hbuilt : Runs c known s (whileBuilding d (contents d)) (Writes c s (c.contents? d)) := by
    refine whileBuilding_runs hmark (hcontents d _ (hs.mark _)) ?_
    rintro k s' marks ⟨w, hw, hk, hadds⟩
    exact ⟨w, hw, (Image.extends_mark s' marks).constant? hk, hadds⟩
  -- merging changes globals that came up while the contents were built, so the two steps are
  -- looked at together
  unfold Runs Keeps
  unfold eager
  cases hrun : whileBuilding d (contents d) s with
  | error f s₁ =>
    rw [run_bind_error hrun]
    exact hbuilt.of_error hrun
  | ok k s₁ =>
  rw [run_bind hrun]
  obtain ⟨hgrows, hs₁, w, hw, hk, hadds⟩ := hbuilt.of_ok hrun
  have hadds' : s.Adds c s₁ [d] := hadds.of_refers hw
  cases hd₁ : s₁.global? d with
  | none =>
    obtain ⟨m, t, n, hadd, htable, hname, hregister⟩ :=
      register_new hs₁ hd₁ hv k.type (some k)
    rw [run_bind (run_onModule _ _), Module.addInitialized, hadd, hregister]
    refine ⟨hgrows.trans (Image.grows_enter htable d _), hs₁.enter htable hd₁ hv ?_,
      global?_enter hd₁, ?_⟩
    · exact
        { notNested := hnested
          live := rfl
          constant := rfl
          name := hname
          typed := fun h => absurd (htakes.symm.trans h) (by decide)
          filled := fun k' hk' => by
            obtain rfl := Option.some.inj hk'
            exact ⟨w, hw, (Image.grows_enter htable d _).constant? hk, fun _ => rfl⟩ }
    · exact (hadds'.trans (adds_enter rfl)).mono (by simp)
  | some g =>
    have hmem := Partial.mem_of_lookup_eq_some hd₁
    obtain ⟨m, t, x, hadd, hm, htable, -, hmerge, hcoherent⟩ := hs₁.absorb hmem hv htakes hw hk
    rw [run_bind (run_onModule _ _), hadd, register_again hs₁ hd₁ hm, hmerge]
    exact ⟨hgrows.absorb htable (hs.length_le_of_new hs₁.toRegistered hgrows hd hmem) x, hcoherent,
      hd₁, hadds'⟩

theorem requestWith_runs (hc : c.Closed known) (hs : s.Coherent c known) (d : DescriptorId) :
    Runs c known s (requestWith c contents d) (NamesGlobal c s d) := by
  unfold requestWith
  refine Keeps.get_bind ?_
  cases hd : s.global? d with
  | some g =>
    obtain ⟨v, x, -, hx, hstands⟩ := hs.stands d g (Partial.mem_of_lookup_eq_some hd)
    have hlive : (s.module.global g).mergedInto = none := by
      rw [Module.global_eq_of_getElem? hx, hstands.live]
    refine Keeps.pure hs ⟨?_, Image.Adds.of_entries_eq rfl _⟩
    rw [Module.resolve_of_live hlive, hd]
  | none =>
    refine Keeps.descriptor_bind hs fun v hv => ?_
    cases hnested : v.isNested with
    | true => exact Keeps.throw_bind hs _
    | false =>
      simp only [Bool.false_eq_true, if_false]
      split
      · rename_i htakes
        rw [Bool.and_eq_true, Bool.not_eq_true', List.contains_eq_mem,
          decide_eq_false_iff_not] at htakes
        exact eager_runs hcontents hs hd htakes.2 hv hnested htakes.1
      · exact placeholder_runs hc hs hd hv hnested

end

end Build

end DataImage
