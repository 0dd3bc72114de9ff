import DataImage.Description.Reading
import DataImage.Proofs.Description.Filling

/-!
# Descriptions are translated faithfully

`Description.Translated` says what a blueprint has of the values that a description lists: one value
of its own for each, with the type, the contents and the container that the description gives, the
values to start from, and else virtual tables only. **A description without faults is translated
faithfully, and all others are refused for a fault that they have**
(`Description.blueprint_outcome`).
-/

namespace DataImage.Description

variable {d : Description} {p : Nat} {c₀ c : Catalog} {names : Names} {e : ValueEntry}
  {T : DescriptorId → Prop} {b : Blueprint}

/-! ## What is read -/

/-- An integer is read as the word that agrees with it modulo 2^64. -/
theorem asWord?_eq_some_iff {value : Json} {raw : UInt64} : Json.asWord? value = some raw ↔
    ∃ z : Int, value = .number (.integer z) ∧ (raw.toNat : Int) = z % 2 ^ 64 := by
  have hword : ∀ z : Int, ((UInt64.ofInt z).toNat : Int) = z % 2 ^ 64 := by
    intro z
    have hnonneg : 0 ≤ z % 2 ^ 64 := Int.emod_nonneg z (by decide)
    have hlt : z % 2 ^ 64 < 2 ^ 64 := Int.emod_lt_of_pos z (by decide)
    rw [UInt64.ofInt, UInt64.toNat_ofNat', Nat.mod_eq_of_lt (by omega),
      Int.toNat_of_nonneg hnonneg]
  constructor
  · intro h
    unfold Json.asWord? at h
    split at h
    · rename_i z
      obtain rfl := Option.some.inj h
      exact ⟨z, rfl, hword z⟩
    · cases h
  · rintro ⟨z, rfl, hraw⟩
    rw [← hword] at hraw
    exact congrArg some (UInt64.toNat_inj.1 (Int.ofNat.inj hraw)).symm

theorem mem_keys_put {ν : Type} {key k : String} {value : ν} {l : List (String × ν)} :
    k ∈ (Keyed.put key value l).map Prod.fst ↔ k = key ∨ k ∈ l.map Prod.fst := by
  induction l with
  | nil => simp [Keyed.put]
  | cons x l ih =>
    rw [Keyed.put]
    split
    · rename_i heq
      simp [heq]
    · simp only [List.map_cons, List.mem_cons, ih]
      exact or_left_comm

theorem nodup_keys_put {ν : Type} {key : String} {value : ν} {l : List (String × ν)}
    (h : (l.map Prod.fst).Nodup) : ((Keyed.put key value l).map Prod.fst).Nodup := by
  induction l with
  | nil => exact List.nodup_singleton key
  | cons x l ih =>
    rw [List.map_cons, List.nodup_cons] at h
    rw [Keyed.put]
    split
    · exact List.nodup_cons.2 h
    · rename_i hne
      refine List.nodup_cons.2 ⟨fun hmem => ?_, ih h.2⟩
      rcases mem_keys_put.1 hmem with heq | hmem
      · exact hne heq
      · exact h.1 hmem

/-- No field is read twice. -/
theorem nodup_of_payloads? {value : Json} {fields : List (String × PayloadEntry)}
    (h : payloads? value = some fields) : (fields.map Prod.fst).Nodup := by
  have hfold : ∀ entries kept : List (String × PayloadEntry), (kept.map Prod.fst).Nodup →
      ((entries.foldl (fun kept x => Keyed.put x.1 x.2 kept) kept).map Prod.fst).Nodup := by
    intro entries
    induction entries with
    | nil => exact fun _ h => h
    | cons x entries ih => exact fun kept h => ih _ (nodup_keys_put h)
  unfold payloads? at h
  split at h
  · obtain ⟨entries, -, h⟩ := Option.bind_eq_some_iff.1 h
    obtain rfl := Option.some.inj h
    exact hfold entries [] List.nodup_nil
  · cases h

/-! ## Fields in order -/

theorem foldl_put_eq_append {kept held : List (FieldId × Payload)}
    (h : ((kept ++ held).map Prod.fst).Nodup) :
    held.foldl (fun kept x => Keyed.put x.1 x.2 kept) kept = kept ++ held := by
  have hput : ∀ {x : FieldId × Payload} {kept : List (FieldId × Payload)},
      x.1 ∉ kept.map Prod.fst → Keyed.put x.1 x.2 kept = kept ++ [x] := by
    intro x kept hx
    induction kept with
    | nil => rfl
    | cons y kept ih =>
      rw [List.map_cons, List.mem_cons, not_or] at hx
      rw [Keyed.put, if_neg fun heq => hx.1 heq.symm, ih hx.2, List.cons_append]
  induction held generalizing kept with
  | nil => exact (List.append_nil kept).symm
  | cons x held ih =>
    have hx : x.1 ∉ kept.map Prod.fst := by
      rw [List.map_append, List.map_cons, List.nodup_append] at h
      exact fun hmem => h.2.2 _ hmem _ List.mem_cons_self rfl
    rw [List.foldl_cons, hput hx, ih, List.append_assoc, List.singleton_append]
    rwa [List.append_assoc, List.singleton_append]

/-- Fields of different names are different fields, so they are stored in their order. -/
theorem inOrder_eq {t : TypeId} {fields : List (String × PayloadEntry)}
    {held : List (FieldId × Payload)} (h : List.Forall₂ (TranslatesField names c t) fields held)
    (hfields : (fields.map Prod.fst).Nodup) : inOrder held = held := by
  refine foldl_put_eq_append ?_
  rw [List.nil_append]
  have hnames : (held.map Prod.fst).map (fun f => (c.field f).name) = fields.map Prod.fst := by
    clear hfields
    induction h with
    | nil => rfl
    | cons hx _ ih =>
      rw [List.map_cons, List.map_cons, List.map_cons, ih, Catalog.name_of_findField? hx.1]
  exact List.Nodup.of_map _ (hnames ▸ hfields)

/-! ## Translations -/

/-- **What a blueprint has of the values of a description.** -/
structure Translated (d : Description) (names : Names) (b : Blueprint) : Prop where
  /-- Every value has a name and a place of its own. -/
  named : names.map Prod.fst = d.values.map ValueEntry.name
  distinct : (names.map Prod.fst).Nodup
  nodup : (names.map Prod.snd).Nodup
  /-- Every value is what it is described as. -/
  values : ∀ e ∈ d.values, ∃ δ, names.lookup e.name = some δ ∧ IsFilledIn names b.catalog e δ
  /-- The fields of an object, unless one is named twice, are stored as they are listed. -/
  fields : ∀ e ∈ d.values, ∀ type fields, e.body = .object type fields →
    (fields.map Prod.fst).Nodup → ∃ δ o, names.lookup e.name = some δ ∧
      b.catalog.descriptor? δ = some (.object o) ∧
        List.Forall₂ (TranslatesField names b.catalog o.context) fields o.fields
  roots : List.Forall₂ (fun n δ => names.lookup n = some δ) d.roots b.roots
  /-- All other values are virtual tables, as they were made. -/
  others : ∀ δ, δ ∈ names.map Prod.snd ∨ b.catalog.descriptors.length ≤ δ.index ∨
    ∃ t, b.catalog.vtable? t = some δ ∧
      b.catalog.descriptor? δ = some (.object (b.catalog.table t))
  apart : ∀ δ ∈ names.map Prod.snd, ¬ b.catalog.IsTable δ

theorem Ready.translated (h : Ready d p names c₀) (ha : c₀.Alters (· ∈ names.map Prod.snd) c)
    (hvalues : ∀ e ∈ d.values, ∃ δ, names.lookup e.name = some δ ∧ IsFilledIn names c e δ)
    {roots : List DescriptorId}
    (hroots : List.Forall₂ (fun n δ => names.lookup n = some δ) d.roots roots) :
    d.Translated names { catalog := c, roots } where
  named := h.placed.named
  distinct := h.placed.distinct
  nodup := h.placed.nodup
  values := hvalues
  fields := fun e he type fields hbody hfields => by
    obtain ⟨δ, hlookup, nesting, v, -, hv, hfilled⟩ := hvalues e he
    obtain ⟨context, held, -, htranslated, rfl⟩ := hfilled.of_object hbody
    refine ⟨δ, _, hlookup, hv, ?_⟩
    dsimp only
    rwa [inOrder_eq htranslated hfields]
  roots := hroots
  others := fun δ => by
    by_cases hlt : δ.index < c₀.descriptors.length
    · by_cases htable : c₀.IsTable δ
      · obtain ⟨t, ht⟩ := htable
        have ht' := (ha.vtable? t).trans ht
        exact Or.inr (Or.inr ⟨t, ht',
          (ha.tabled h.placed.settled.standing.tabled).tables.tables t δ ht'⟩)
      · exact Or.inl ((h.placed.settled.standing.apart δ).2 ⟨hlt, htable⟩)
    · refine Or.inr (Or.inl ?_)
      rw [ha.length]
      exact Nat.not_lt.1 hlt
  apart := fun δ hδ htable =>
    ((h.placed.settled.standing.apart δ).1 hδ).2 (ha.isTable_iff.1 htable)

/-! ## Faults -/

namespace Translated

variable (h : d.Translated names b)

include h

/-- Whatever is held stands for something. -/
theorem exists_translates {entry : PayloadEntry} (hentry : d.Contains entry) :
    ∃ held, Translates names b.catalog entry held := by
  cases hentry with
  | field mem body held =>
    obtain ⟨δ, -, nesting, v, -, -, hfilled⟩ := h.values _ mem
    obtain ⟨context, fields, -, htranslated, -⟩ := hfilled.of_object body
    obtain ⟨x, -, hx⟩ := Partial.exists_of_forall₂_right htranslated.flip held
    exact ⟨x.2, hx.2⟩
  | element mem body held =>
    obtain ⟨δ, -, nesting, v, -, -, hfilled⟩ := h.values _ mem
    obtain ⟨⟨values, htranslated⟩, -⟩ := hfilled.of_array body
    cases htranslated with
    | some htranslated =>
      obtain ⟨x, -, hx⟩ := Partial.exists_of_forall₂_right htranslated.flip held
      exact ⟨x, hx⟩

/-- Whatever is cited is the name of a value. -/
theorem exists_of_cites {n : String} (hn : d.CitesName n) : ∃ e ∈ d.values, e.name = n := by
  have hlookup : ∃ δ, names.lookup n = some δ := by
    cases hn with
    | payload held =>
      obtain ⟨x, hx⟩ := h.exists_translates held
      cases hx with
      | value found => exact ⟨_, found⟩
    | container mem nested =>
      obtain ⟨δ, -, nesting, v, hnesting, -, -⟩ := h.values _ mem
      rw [nested] at hnesting
      cases hnesting with
      | some found => exact ⟨_, found⟩
    | root mem =>
      obtain ⟨δ, -, hδ⟩ := Partial.exists_of_forall₂_right h.roots.flip mem
      exact ⟨δ, hδ⟩
  obtain ⟨δ, hδ⟩ := hlookup
  have hmem := List.mem_map_of_mem (f := Prod.fst) (Partial.mem_of_lookup_eq_some hδ)
  rw [h.named] at hmem
  exact List.mem_map.1 hmem

end Translated

/-- **A description that is translated has no fault.** -/
theorem Translated.not_faulty (h : d.Translated names b) (hready : Ready d p names c₀)
    (hplaces : d.places (Catalog.new p) = .ok (names, c₀)) (ha : c₀.Alters T b.catalog)
    (err : Error) : ¬ d.Faulty p err := by
  have hsettled := hready.placed.settled
  intro hfault
  cases hfault with
  | declaration types undeclarable => exact hsettled.declarable _ _ _ types err undeclarable
  | type mentioned unresolved =>
    obtain ⟨t, ht⟩ := hready.mentions _ mentioned
    rw [← hsettled.pointerSize] at unresolved
    rw [unresolved.findType?_eq_none hsettled.standing] at ht
    cases ht
  | duplicateValue values mem name =>
    have hnodup := h.named ▸ h.distinct
    rw [values, List.map_append, List.map_cons, List.nodup_append] at hnodup
    exact hnodup.2.2 _ (List.mem_map_of_mem mem) _ List.mem_cons_self name
  | unknownField places mem body held context none =>
    rw [hplaces] at places
    cases places
    obtain ⟨δ, -, nesting, v, -, -, hfilled⟩ := h.values _ mem
    obtain ⟨t, fields, found, htranslated, -⟩ := hfilled.of_object body
    obtain rfl := Option.some.inj (((ha.findType? _).trans context).symm.trans found)
    obtain ⟨x, -, hx⟩ := Partial.exists_of_forall₂_right htranslated.flip held
    have hfield := (ha.findField? _ _).symm.trans hx.1
    rw [none] at hfield
    cases hfield
  | unknownValue cited unknown =>
    obtain ⟨e, he, hname⟩ := h.exists_of_cites cited
    exact unknown e he hname
  | unknownMethod held unknown =>
    obtain ⟨x, hx⟩ := h.exists_translates held
    cases hx with
    | @method _ m _ found _ =>
      rw [ha.findMethod?] at found
      obtain ⟨i, hi, -⟩ := Option.map_eq_some_iff.1 found
      obtain ⟨hlt, hname, -⟩ := List.findIdx?_eq_some_iff_getElem.1 hi
      have hmem := List.mem_map_of_mem (f := MethodDef.name) (List.getElem_mem hlt)
      rw [hready.methods] at hmem
      obtain ⟨e, he, heq⟩ := List.mem_map.1 hmem
      exact unknown e he (heq.trans (of_decide_eq_true hname))
  | tooManyElements mem body count =>
    obtain ⟨δ, -, nesting, v, -, -, hfilled⟩ := h.values _ mem
    exact absurd ((hfilled.of_array body).2 rfl) (Nat.not_lt.2 count)

/-! ## Building -/

/-- What holds of a blueprint that a description is made into. -/
structure Built (d : Description) (p : Nat) (names : Names) (c₀ : Catalog) (b : Blueprint) :
    Prop where
  ready : Ready d p names c₀
  places_eq : d.places (Catalog.new p) = .ok (names, c₀)
  alters : c₀.Alters (· ∈ names.map Prod.snd) b.catalog
  translated : d.Translated names b

/-- Making a description into a blueprint. -/
theorem declare_yields (d : Description) (p : Nat) : Yields d.declare (Catalog.new p) (Faulty d p)
    fun roots c => ∃ names c₀, d.Built p names c₀ { catalog := c, roots } := by
  rw [declare_eq]
  refine (places_yields d p).with_run.bind ?_
  rintro names c₀ ⟨hready, hplaces⟩
  refine (hready.fill hplaces).mono ?_
  rintro roots c ⟨ha, hvalues, hroots⟩
  exact ⟨names, c₀, hready, hplaces, ha, hready.translated ha hvalues hroots⟩

theorem blueprint_eq_ok_iff : d.blueprint p = .ok b ↔
    d.declare (Catalog.new p) = .ok (b.roots, b.catalog) := by
  change (d.declare (Catalog.new p) >>= fun r => pure ⟨r.2, r.1⟩ : Except Error Blueprint) = _ ↔ _
  cases d.declare (Catalog.new p) with
  | error err => exact ⟨nofun, nofun⟩
  | ok r =>
    constructor
    · intro h
      cases h
      rfl
    · intro h
      cases h
      rfl

theorem blueprint_eq_error_iff {err : Error} : d.blueprint p = .error err ↔
    d.declare (Catalog.new p) = .error err := by
  change (d.declare (Catalog.new p) >>= fun r => pure ⟨r.2, r.1⟩ : Except Error Blueprint) = _ ↔ _
  cases d.declare (Catalog.new p) with
  | error err' => exact ⟨fun h => by cases h; rfl, fun h => by cases h; rfl⟩
  | ok r => exact ⟨nofun, nofun⟩

theorem built_of_blueprint (h : d.blueprint p = .ok b) : ∃ names c₀, d.Built p names c₀ b :=
  (declare_yields d p).of_ok (blueprint_eq_ok_iff.1 h)

/-- **What becomes of a description.** It is translated faithfully, unless it has a fault. The words
that it holds are those of the integers that are written, and no field of an object is read
twice. -/
theorem blueprint_outcome (d : Description) (p : Nat) :
    (∀ b, d.blueprint p = .ok b → ∃ names, d.Translated names b) ∧
      (∀ err, d.blueprint p = .error err → d.Faulty p err) ∧
      ((∃ b, d.blueprint p = .ok b) ↔ ∀ err, ¬ d.Faulty p err) ∧
      (∀ value, payload? (.object [("scalar", value)]) = (Json.asWord? value).map .scalar) ∧
      (∀ value raw, Json.asWord? value = some raw ↔
        ∃ z : Int, value = .number (.integer z) ∧ (raw.toNat : Int) = z % 2 ^ 64) ∧
      ∀ value fields, payloads? value = some fields → (fields.map Prod.fst).Nodup := by
  have herror : ∀ err, d.blueprint p = .error err → d.Faulty p err := fun err h =>
    (declare_yields d p).of_error (blueprint_eq_error_iff.1 h)
  refine ⟨fun b hb => ?_, herror, ⟨fun ⟨b, hb⟩ err => ?_, fun h => ?_⟩, fun value => ?_,
    fun _ _ => asWord?_eq_some_iff, fun _ _ => nodup_of_payloads?⟩
  · obtain ⟨names, c₀, hbuilt⟩ := built_of_blueprint hb
    exact ⟨names, hbuilt.translated⟩
  · obtain ⟨names, c₀, hbuilt⟩ := built_of_blueprint hb
    exact hbuilt.translated.not_faulty hbuilt.ready hbuilt.places_eq hbuilt.alters err
  · cases hrun : d.blueprint p with
    | ok b => exact ⟨b, rfl⟩
    | error err => exact absurd (herror err hrun) (h err)
  · cases hword : Json.asWord? value <;> simp [payload?, choice?, hword]

end DataImage.Description
