import DataImage.Proofs.Build.Reference

/-!
# Contents of values

Building the contents of a value writes down what the catalog says about it
(`Build.contentsAs_runs`), whatever the image already holds. There is one statement for each
function of the builder, all of the form `Runs … (Writes …)`.
-/

namespace DataImage

open Value (referencesAll)

namespace Image.Adds

variable {c : Catalog} {s s' s'' : Image} {roots : List DescriptorId}

theorem of_eq_right (h : s.Adds c s' roots) (he : s''.entries = s'.entries) :
    s.Adds c s'' roots :=
  fun e hmem => h e (he ▸ hmem)

theorem of_eq_left (h : s'.Adds c s'' roots) (he : s'.entries = s.entries) :
    s.Adds c s'' roots := by
  intro e hmem
  rcases h e hmem with h | h
  · exact Or.inl (he ▸ h)
  · exact Or.inr h

end Image.Adds

/-! ## Ancestry -/

namespace Catalog

variable {c : Catalog} {known : TypeId → Prop}

theorem known_ancestryWithin (hc : c.Closed known) {steps : Nat} {below : List TypeId} {t : TypeId}
    (ht : known t) (hbelow : ∀ u ∈ below, known u) {a : Ancestry}
    (ha : c.ancestryWithin steps below t = .ok a) : known a.top ∧ ∀ u ∈ a.below, known u := by
  induction steps generalizing below t with
  | zero => cases ha
  | succ steps ih =>
    rw [ancestryWithin] at ha
    split at ha
    · cases ha
    · cases ha
    · obtain rfl := Except.ok.inj ha
      exact ⟨ht, hbelow⟩
    · split at ha
      · obtain rfl := Except.ok.inj ha
        exact ⟨ht, hbelow⟩
      · split at ha
        · cases ha
        · rename_i base hbase
          split at ha
          · cases ha
          · exact ih (hc.bases t base ht hbase) (List.forall_mem_cons.2 ⟨ht, hbelow⟩) ha

/-- The types that an instance consists of can come up with its type. -/
theorem known_ancestry (hc : c.Closed known) {t : TypeId} (ht : known t) {a : Ancestry}
    (ha : c.ancestry t = .ok a) : known a.top ∧ ∀ u ∈ a.below, known u :=
  known_ancestryWithin hc ht (fun _ hu => absurd hu List.not_mem_nil) ha

variable {part : DescriptorId → Option Value}

/-- The instance of a class refers to what the instance of its base refers to. -/
theorem references_subset_class? {o : ObjectValue} {base v : Value} {t : TypeId}
    (h : c.class? part o base t = some v) : base.references ⊆ v.references := by
  obtain ⟨own, -, h⟩ := Option.bind_eq_some_iff.1 h
  intro d hd
  split at h
  · obtain ⟨chars, -, rfl⟩ := Option.map_eq_some_iff.1 h
    exact List.mem_append_left _ hd
  · rw [instance?] at h
    split at h
    · obtain rfl := Option.some.inj h
      exact List.mem_append_left _ hd
    · cases h

theorem references_subset_foldlM {o : ObjectValue} {below : List TypeId} {base v : Value}
    (h : below.foldlM (c.class? part o) base = some v) : base.references ⊆ v.references := by
  induction below generalizing base with
  | nil =>
    obtain rfl := Option.some.inj h
    exact List.Subset.refl _
  | cons t below ih =>
    rw [List.foldlM_cons, Option.bind_eq_bind, Option.bind_eq_some_iff] at h
    obtain ⟨w, hw, h⟩ := h
    exact List.Subset.trans (references_subset_class? hw) (ih h)

end Catalog

namespace Build

variable {c : Catalog} {known : TypeId → Prop} {s s₀ : Image}

/-- A step that wrote down values. -/
def WritesAll (c : Catalog) (s : Image) (vs? : Option (List Value)) (ks : List Constant)
    (s' : Image) : Prop :=
  ∃ vs, vs? = some vs ∧ s'.constants? vs = some ks ∧ s.Adds c s' (referencesAll vs)

theorem constants?_singleton {v : Value} {k : Constant} (h : s.constant? v = some k) :
    s.constants? [v] = some [k] := by
  rw [Image.constants?, h]
  rfl

theorem constants?_cons {v : Value} {k : Constant} {vs : List Value} {ks : List Constant}
    (h : s.constant? v = some k) (hs : s.constants? vs = some ks) :
    s.constants? (v :: vs) = some (k :: ks) := by
  rw [Image.constants?, h, Option.bind_some, hs, Option.map_some]

theorem mapM_runs {α : Type} {f : α → Build Constant} (v? : α → Option Value) {l : List α}
    (h : ∀ a s, Image.Coherent c known s → Runs c known s (f a) (Writes c s (v? a)))
    (hs : s.Coherent c known) : Runs c known s (l.mapM f) (WritesAll c s (l.mapM v?)) := by
  induction l generalizing s with
  | nil => exact Keeps.pure hs ⟨[], rfl, rfl, Image.Adds.of_entries_eq rfl _⟩
  | cons a l ih =>
    rw [List.mapM_cons]
    refine (h a s hs).bind fun k s₁ _ hs₁ hpost => ?_
    obtain ⟨v, hv, hk, hadds⟩ := hpost
    refine (ih hs₁).bind fun ks s₂ hgrows hs₂ hpost => ?_
    obtain ⟨vs, hvs, hks, hadds'⟩ := hpost
    refine Keeps.pure hs₂ ⟨v :: vs, ?_, constants?_cons (hgrows.constant? hk) hks,
      hadds.trans hadds'⟩
    rw [List.mapM_cons, hv, hvs]
    rfl

/-! ## Integers -/

section

variable (hc : c.Closed known)

include hc

/-- An instance of a struct whose fields were written down. -/
theorem named_runs {t : TypeId} (ht : known t) (hs : s.Coherent c known) {vs : List Value}
    {ks : List Constant} (hks : s.constants? vs = some ks)
    (hadds : s₀.Adds c s (referencesAll vs)) :
    Runs c known s (layoutOf c t >>= fun layout => pure (.named layout ks))
      (Writes c s₀ (c.instance? t vs)) := by
  refine (layoutOf_runs hc ht hs).bind fun id s₁ hgrows hs₁ hpost => ?_
  obtain ⟨hid, huses⟩ := hpost
  refine Keeps.pure hs₁ ⟨.named t vs, if_pos (hs₁.layouts t id hid).2.1, ?_,
    hadds.of_eq_right huses.entries⟩
  rw [Image.constant?_named_eq_some_iff]
  exact ⟨id, ks, hid, hgrows.constants? hks, rfl⟩

theorem zero_runs {t : TypeId} (ht : known t) (hs : s.Coherent c known) :
    Runs c known s (storageOf c t >>= fun type => pure (.zeroed type))
      (Writes c s (c.zero? t)) := by
  refine (storageOf_runs hc ht hs).bind fun type s₁ hgrows hs₁ hpost => ?_
  obtain ⟨htype, huses⟩ := hpost
  refine Keeps.pure hs₁ ⟨.zeroed (c.shapeOf t), if_pos (stored_of_storage? hs₁ htype), ?_,
    Image.Adds.of_entries_eq huses.entries _⟩
  rw [Image.constant?, htype, Option.map_some]

theorem scalar_runs {t : TypeId} (ht : known t) (raw : UInt64) (hs : s.Coherent c known) :
    Runs c known s (scalar c t raw) (Writes c s (c.scalar? t raw)) := by
  unfold scalar Catalog.scalar?
  dsimp only
  split
  · exact Keeps.throw_bind hs _
  · split
    · exact zero_runs hc ht hs
    · refine Keeps.bitWidth_bind hs fun hwidth => ?_
      rw [if_pos hwidth]
      exact named_runs hc ht hs (constants?_singleton rfl) (Image.Adds.of_entries_eq rfl _)

/-- What a code pointer becomes. -/
theorem codeContents_runs {t : TypeId} (ht : known t) (place : Place) (p : CodePointerId)
    (hs : s.Coherent c known) :
    Runs c known s (codeContents c t place p) (Writes c s (c.code? t p)) := by
  simp only [codeContents, Catalog.code?]
  cases c.codePointer? p with
  | none => exact Keeps.violate hs _
  | some target =>
    cases target with
    | handler name => exact Keeps.throw hs _
    | method m =>
      refine (declarationOf_runs hc m hs).bind fun f s₁ _ hs₁ hpost => ?_
      obtain ⟨hf, hentries⟩ := hpost
      simp only [if_pos (hs₁.functions m f hf).1]
      refine named_runs hc ht hs₁ (constants?_singleton ?_) (Image.Adds.of_entries_eq hentries _)
      rw [Image.constant?, hf, Option.map_some]

/-! ## Fields and elements -/

variable {contents : DescriptorId → Build Constant}
  (hcontents : ∀ d s, Image.Coherent c known s →
    Runs c known s (contents d) (Writes c s (c.contents? d)))

include hcontents

theorem payloadContents_runs {t : TypeId} (ht : known t) (place : Place) (payload : Payload)
    (hs : s.Coherent c known) :
    Runs c known s (payloadContents c contents t place payload)
      (Writes c s (c.payload? c.contents? t payload)) := by
  cases payload with
  | null => exact scalar_runs hc ht 0 hs
  | scalar raw =>
    simp only [payloadContents, Catalog.payload?]
    split
    · exact scalar_runs hc ht raw hs
    · exact Keeps.throw hs _
  | descriptor d =>
    simp only [payloadContents, Catalog.payload?]
    refine Keeps.descriptor_bind hs fun v hv => ?_
    rw [hv, Option.bind_some]
    split
    · exact hcontents d s hs
    · refine (requestWith_runs hcontents hc hs d).bind fun g s₁ _ hs₁ hpost => ?_
      obtain ⟨hg, hadds⟩ := hpost
      refine Keeps.pure hs₁ ⟨.reference d, rfl, ?_, hadds⟩
      rw [Image.constant?, hg, Option.map_some]
  | code p => exact Keeps.throw hs _

theorem fieldContents_runs (o : ObjectValue) (f : FieldId) (hs : s.Coherent c known) :
    Runs c known s (fieldContents c contents o f)
      (Writes c s (c.held? c.contents? f (o.fields.lookup f))) := by
  have payload := fun p => payloadContents_runs hc hcontents (hc.fields f)
    (.field (c.field f).name (c.typeName (c.field f).owner)) p hs
  unfold fieldContents
  dsimp only
  rcases o.fields.lookup f with _ | _ | raw | d | p
  · exact zero_runs hc (hc.fields f) hs
  · exact payload .null
  · exact payload (.scalar raw)
  · exact payload (.descriptor d)
  · simp only [Catalog.held?, Catalog.codeField?]
    split
    · exact codeContents_runs hc (hc.fields f) _ p hs
    · split
      · refine (codeContents_runs hc (hc.fields _) _ p hs).bind
          fun target s₁ _ hs₁ hpost => ?_
        obtain ⟨v, hv, hk, hadds⟩ := hpost
        rw [hv, Option.bind_some]
        refine named_runs hc (hc.fields f) hs₁ (constants?_singleton hk) (hadds.mono ?_)
        intro r hr
        rw [referencesAll, referencesAll, List.append_nil]
        exact hr
      · exact payload (.code p)

theorem regionContents_runs (o : ObjectValue) (t : TypeId) (offset : Nat)
    (hs : s.Coherent c known) :
    Runs c known s (regionContents c contents o t offset)
      (WritesAll c s (c.regionValues? c.contents? o t offset)) := by
  refine mapM_runs _ (fun part s hs => ?_) hs
  cases part with
  | padding => exact scalar_runs hc hc.byte _ hs
  | field f => exact fieldContents_runs hc hcontents o f hs
  | zeroSized offset => exact Keeps.violate hs _
  | overflow offset => exact Keeps.overflow hs

/-! ## Objects -/

theorem headerContents_runs (context : TypeId) (isMutable : Bool) (hs : s.Coherent c known) :
    Runs c known s (headerContents c contents context isMutable)
      (Writes c s (c.header? context isMutable)) := by
  unfold headerContents Catalog.header?
  cases c.vtable? context with
  | none => exact Keeps.violate hs _
  | some vtable =>
    refine (scalar_runs hc (hc.fields _) _ hs).bind fun word s₁ _ hs₁ hpost => ?_
    obtain ⟨w, hw, hword, hadds⟩ := hpost
    refine (requestWith_runs hcontents hc hs₁ vtable).bind
      fun g s₂ hgrows₂ hs₂ hpost => ?_
    obtain ⟨hg, hadds'⟩ := hpost
    have hfields : s₂.constants? [w, .reference vtable] = some [word, .globalAddr g] := by
      refine constants?_cons (hgrows₂.constant? hword) (constants?_singleton ?_)
      rw [Image.constant?, hg, Option.map_some]
    refine (layoutOf_runs hc hc.objectHeader hs₂).bind
      fun header s₃ hgrows₃ hs₃ hpost => ?_
    obtain ⟨hheader, huses⟩ := hpost
    have hinner : s₃.constant? (.named Core.objectHeader [w, .reference vtable]) =
        some (.named header [word, .globalAddr g]) :=
      Image.constant?_named_eq_some_iff.2 ⟨header, _, hheader, hgrows₃.constants? hfields, rfl⟩
    have hw' : c.scalar? (c.field Core.multiUseWord).type (Catalog.flagWord isMutable) = some w :=
      hw
    have hlaid : c.instance? Core.objectHeader [w, .reference vtable] =
        some (.named Core.objectHeader [w, .reference vtable]) :=
      if_pos (hs₃.layouts _ _ hheader).2.1
    rw [Option.bind_some, hw', Option.bind_some, hlaid, Option.bind_some]
    refine named_runs hc hc.object hs₃ (constants?_singleton hinner) ?_
    refine ((hadds.trans hadds').of_eq_right huses.entries).mono fun r hr => ?_
    simpa [referencesAll, Value.references] using hr

omit hcontents in
theorem characters_runs (o : ObjectValue) (hs : s.Coherent c known) :
    Runs c known s (characters c o) (Writes c s (c.characters? o)) := by
  unfold characters Catalog.characters?
  dsimp only
  refine (storageOf_runs hc (hc.fields _) hs).bind fun element s₁ _ hs₁ hpost => ?_
  obtain ⟨helement, huses⟩ := hpost
  rw [if_pos (stored_of_storage? hs₁ helement)]
  refine (mapM_runs _ (fun unit s hs => scalar_runs hc (hc.fields Core.firstChar) unit.toUInt64 hs)
    hs₁).bind fun ks s₂ hgrows hs₂ hpost => ?_
  obtain ⟨vs, hvs, hks, hadds⟩ := hpost
  refine Keeps.pure hs₂ ⟨.array (c.shapeOf (c.field Core.firstChar).type) vs,
    by rw [hvs, Option.map_some], ?_, hadds.of_eq_left huses.entries⟩
  exact Image.constant?_array_eq_some_iff.2 ⟨element, ks, hgrows.storage? helement, hks, rfl⟩

theorem topContents_runs (o : ObjectValue) {t : TypeId} (ht : known t) (hs : s.Coherent c known) :
    Runs c known s (topContents c contents o t) (Writes c s (c.top? c.contents? o t)) := by
  unfold topContents Catalog.top?
  split
  · exact headerContents_runs hc hcontents _ _ hs
  · refine (regionContents_runs hc hcontents o t 0 hs).bind
      fun fields s₁ _ hs₁ hpost => ?_
    obtain ⟨vs, hvs, hks, hadds⟩ := hpost
    rw [hvs, Option.bind_some]
    exact named_runs hc ht hs₁ hks hadds

theorem classContents_runs (o : ObjectValue) {t : TypeId} (ht : known t)
    (hs : s.Coherent c known) {base : Constant} {v : Value} (hbase : s.constant? v = some base) :
    Runs c known s (classContents c contents o base t)
      (fun k s' => ∃ w, c.class? c.contents? o v t = some w ∧ s'.constant? w = some k ∧
        s.Adds c s' w.references) := by
  unfold classContents Catalog.class?
  refine (regionContents_runs hc hcontents o t _ hs).bind
    fun own s₁ hgrows₁ hs₁ hpost => ?_
  obtain ⟨vs, hvs, hks, hadds⟩ := hpost
  have hfields := constants?_cons (hgrows₁.constant? hbase) hks
  simp only [hvs, Option.bind_some]
  split
  · refine (characters_runs hc o hs₁).bind
      fun chars s₂ hgrows₂ hs₂ hpost => ?_
    obtain ⟨w, hw, hchars, hadds'⟩ := hpost
    refine Keeps.pure hs₂ ⟨.anon (v :: vs ++ [w]), by rw [hw, Option.map_some], ?_, ?_⟩
    · refine Image.constant?_anon_eq_some_iff.2 ⟨_, ?_, rfl⟩
      rw [Image.constants?_eq_some_iff]
      exact List.rel_append (Image.constants?_eq_some_iff.1 (hgrows₂.constants? hfields))
        (.cons hchars .nil)
    · refine (hadds.trans hadds').mono fun r hr => ?_
      rw [Value.references, Value.mem_referencesAll]
      rcases List.mem_append.1 hr with hr | hr
      · obtain ⟨u, hu, hr⟩ := Value.mem_referencesAll.1 hr
        exact ⟨u, List.mem_append_left _ (List.mem_cons_of_mem _ hu), hr⟩
      · exact ⟨w, List.mem_append_right _ (List.mem_singleton.2 rfl), hr⟩
  · exact named_runs hc ht hs₁ hfields (hadds.mono fun r hr => List.mem_append_right _ hr)

theorem foldlM_classContents_runs (o : ObjectValue) {below : List TypeId}
    (hbelow : ∀ t ∈ below, known t) (hs : s.Coherent c known) {base : Constant} {v : Value}
    (hbase : s.constant? v = some base) (hadds : s₀.Adds c s v.references) :
    Runs c known s (below.foldlM (classContents c contents o) base)
      (Writes c s₀ (below.foldlM (c.class? c.contents? o) v)) := by
  induction below generalizing s base v with
  | nil => exact Keeps.pure hs ⟨v, rfl, hbase, hadds⟩
  | cons t below ih =>
    rw [List.foldlM_cons, List.foldlM_cons]
    refine (classContents_runs hc hcontents o (hbelow t List.mem_cons_self) hs hbase).bind
      fun k s₁ _ hs₁ hpost => ?_
    obtain ⟨w, hw, hk, hadds'⟩ := hpost
    rw [hw, Option.bind_eq_bind, Option.bind_some]
    refine ih (fun u hu => hbelow u (List.mem_cons_of_mem _ hu)) hs₁ hk ?_
    refine (hadds.trans hadds').mono fun r hr => ?_
    rcases List.mem_append.1 hr with hr | hr
    · exact Catalog.references_subset_class? hw hr
    · exact hr

theorem objectContents_runs (o : ObjectValue) {t : TypeId} (ht : known t)
    (hs : s.Coherent c known) :
    Runs c known s (objectContents c contents o t) (Writes c s (c.object? c.contents? o t)) := by
  unfold objectContents Catalog.object?
  cases ha : c.ancestry t with
  | error e => exact Keeps.violate hs _
  | ok a =>
    obtain ⟨htop, hbelow⟩ := Catalog.known_ancestry hc ht ha
    refine (topContents_runs hc hcontents o htop hs).bind
      fun top s₁ _ hs₁ hpost => ?_
    obtain ⟨v, hv, hk, hadds⟩ := hpost
    simp only [hv, Option.bind_some]
    exact foldlM_classContents_runs hc hcontents o hbelow hs₁ hk hadds

/-! ## Arrays -/

theorem valueElements_runs (a : ArrayValue) {element : TypeId} (ht : known element)
    {values : List Payload} (hvalues : a.values = some values) (hs : s.Coherent c known) :
    Runs c known s (valueElements c contents a element values)
      (WritesAll c s (c.elements? c.contents? a element)) := by
  unfold valueElements Catalog.elements?
  simp only [hvalues]
  by_cases hlen : values.length = a.length
  · rw [if_neg (not_not.2 hlen), if_pos hlen]
    have h := mapM_runs (l := values.zipIdx)
      (fun x : Payload × Nat => c.payload? c.contents? element x.1)
      (f := fun x => payloadContents c contents element (.element x.2 (c.typeName a.context)) x.1)
      (fun x s hs => payloadContents_runs hc hcontents ht _ x.1 hs) hs
    have hmap := List.mapM_map (l := values.zipIdx) (f := Prod.fst)
      (g := c.payload? c.contents? element)
    rw [List.zipIdx_map_fst] at hmap
    rw [hmap]
    exact h
  · rw [if_pos hlen]
    exact Keeps.throw_bind hs _

omit hcontents in
theorem sourceElements_runs (a : ArrayValue) {element : TypeId} (ht : known element)
    (hvalues : a.values = none) (hs : s.Coherent c known) :
    Runs c known s (sourceElements c a element (a.source.getD []))
      (WritesAll c s (c.elements? c.contents? a element)) := by
  unfold sourceElements Catalog.elements?
  simp only [hvalues]
  by_cases hlen : (a.source.getD []).length = a.length
  · rw [if_neg (not_not.2 hlen)]
    have all := mapM_runs (l := a.source.getD []) (c.scalar? element)
      (fun raw s hs => scalar_runs hc ht raw hs) hs
    cases hsource : a.source.getD [] with
    | nil =>
      rw [hsource] at all hlen
      rw [if_pos ⟨hlen, Or.inl rfl⟩]
      exact all
    | cons raw rest =>
      rw [hsource] at all hlen
      cases hscalar : (c.typeDef element).isScalar with
      | true =>
        rw [if_pos ⟨hlen, Or.inr rfl⟩]
        exact all
      | false => exact Keeps.throw_bind hs _
  · rw [if_pos hlen]
    exact Keeps.throw_bind hs _

theorem arrayContents_runs (a : ArrayValue) (ht : known a.context) (hs : s.Coherent c known) :
    Runs c known s (arrayContents c contents a) (Writes c s (c.array? c.contents? a)) := by
  unfold arrayContents Catalog.array?
  cases hkind : (c.typeDef a.context).kind with
  | scalar signed => exact Keeps.violate hs _
  | reference => exact Keeps.violate hs _
  | valueType => exact Keeps.violate hs _
  | array element =>
    have helement := hc.elements _ _ ht hkind
    dsimp only
    refine (headerContents_runs hc hcontents _ _ hs).bind
      fun header s₁ _ hs₁ hpost => ?_
    obtain ⟨h, hh, hheader, hadds₁⟩ := hpost
    refine (scalar_runs hc (hc.fields _) _ hs₁).bind
      fun length s₂ hgrows₂ hs₂ hpost => ?_
    obtain ⟨l, hl, hlength, hadds₂⟩ := hpost
    refine (layoutOf_runs hc hc.array hs₂).bind
      fun layout s₃ hgrows₃ hs₃ hpost => ?_
    obtain ⟨hlayout, huses₃⟩ := hpost
    have hlaid : c.instance? Core.array [h, l] = some (.named Core.array [h, l]) :=
      if_pos (hs₃.layouts _ _ hlayout).2.1
    have hbase : c.arrayBase? a = some (.named Core.array [h, l]) := by
      rw [Catalog.arrayBase?, hh, Option.bind_some, hl, Option.bind_some, hlaid]
    have hnamed : s₃.constant? (.named Core.array [h, l]) =
        some (.named layout [header, length]) :=
      Image.constant?_named_eq_some_iff.2 ⟨layout, _, hlayout, hgrows₃.constants?
        (constants?_cons (hgrows₂.constant? hheader) (constants?_singleton hlength)), rfl⟩
    have hrest : ∀ elements, Runs c known s₃ elements
        (WritesAll c s₃ (c.elements? c.contents? a element)) →
        Runs c known s₃ (elements >>= fun ks => storageOf c element >>= fun storage =>
          pure (.anon [.named layout [header, length], .array storage ks]))
          (Writes c s ((c.arrayBase? a).bind fun base =>
            (c.elements? c.contents? a element).bind fun elements =>
              if c.Stored element then some (.anon [base, .array (c.shapeOf element) elements])
              else none)) := by
      intro elements helements
      refine helements.bind fun ks s₄ hgrows₄ hs₄ hpost => ?_
      obtain ⟨vs, hvs, hks, hadds₄⟩ := hpost
      refine (storageOf_runs hc helement hs₄).bind
        fun storage s₅ hgrows₅ hs₅ hpost => ?_
      obtain ⟨hstorage, huses₅⟩ := hpost
      refine Keeps.pure hs₅ ⟨.anon [.named Core.array [h, l], .array (c.shapeOf element) vs],
        ?_, ?_, ?_⟩
      · rw [hbase, Option.bind_some, hvs, Option.bind_some,
          if_pos (stored_of_storage? hs₅ hstorage)]
      · refine Image.constant?_anon_eq_some_iff.2 ⟨_, constants?_cons
          ((hgrows₄.trans hgrows₅).constant? hnamed) (constants?_singleton ?_), rfl⟩
        exact Image.constant?_array_eq_some_iff.2
          ⟨storage, ks, hstorage, hgrows₅.constants? hks, rfl⟩
      · refine (((hadds₁.trans hadds₂).of_eq_right huses₃.entries).trans hadds₄
          |>.of_eq_right huses₅.entries).mono fun r hr => ?_
        simpa [referencesAll, Value.references] using hr
    cases hvalues : a.values with
    | some values => exact hrest _ (valueElements_runs hc hcontents a helement hvalues hs₃)
    | none => exact hrest _ (sourceElements_runs hc a helement hvalues hs₃)

/-! ## Values -/

theorem valueContents_runs {d : DescriptorId} {v : Descriptor} (hv : c.descriptor? d = some v)
    {t : TypeId} (ht : known t) (hs : s.Coherent c known) :
    Runs c known s (valueContents c contents v t) (Writes c s (c.contentsAs? d t)) := by
  rw [Catalog.contentsAs?_eq, hv, Option.bind_some]
  cases v with
  | object o => exact objectContents_runs hc hcontents o ht hs
  | array a => exact arrayContents_runs hc hcontents a (hc.contexts d _ hv) hs

omit hcontents

theorem contentsWithin_runs (depth : Nat) {d : DescriptorId} {t : TypeId} (ht : known t)
    (hs : s.Coherent c known) :
    Runs c known s (contentsWithin c depth d t) (Writes c s (c.contentsAs? d t)) := by
  induction depth generalizing d t s with
  | zero => exact Keeps.violate hs _
  | succ depth ih =>
    refine Keeps.descriptor_bind hs fun v hv => Keeps.within ?_
    refine valueContents_runs hc (fun e s hs => ?_) hv ht hs
    refine Keeps.descriptor_bind hs fun w hw => ?_
    rw [Catalog.contents?_eq_contentsAs? hw]
    exact ih (hc.contexts e w hw) hs

/-- **The contents of a value laid out as a type.** -/
theorem contentsAs_runs {d : DescriptorId} {t : TypeId} (ht : known t) (hs : s.Coherent c known) :
    Runs c known s (contentsAs c d t) (Writes c s (c.contentsAs? d t)) :=
  contentsWithin_runs hc _ ht hs

/-- **The contents of a value.** -/
theorem contentsOf_runs (d : DescriptorId) (hs : s.Coherent c known) :
    Runs c known s (contentsOf c d) (Writes c s (c.contents? d)) := by
  refine Keeps.descriptor_bind hs fun v hv => ?_
  rw [Catalog.contents?_eq_contentsAs? hv]
  exact contentsAs_runs hc (hc.contexts d v hv) hs

/-- **The global of a value.** -/
theorem request_runs (d : DescriptorId) (hs : s.Coherent c known) :
    Runs c known s (request c d) (NamesGlobal c s d) :=
  requestWith_runs (fun d _ => contentsOf_runs hc d) hc hs d

end

end Build

end DataImage
