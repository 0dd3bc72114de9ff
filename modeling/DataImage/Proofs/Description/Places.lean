import DataImage.Proofs.Description.Members

/-!
# Places of values

A value gets a place before any value is filled. A place has the type of its value and holds nothing
yet, unless the value is a string, which is complete (`Description.Blank`). No two values share a
name or a place, and every other value of the catalog is a virtual table (`Description.HavePlaces`).
`Description.places_yields` says what holds when all places are made.
-/

namespace DataImage.Description

variable {d : Description} {p : Nat} {c c' : Catalog} {ds : List DescriptorId}
  {before : List ValueEntry} {names : Names} {e : ValueEntry}

/-- The place of a value before it is filled. -/
inductive Blank (c : Catalog) (e : ValueEntry) : Descriptor → Prop where
  | object {type : String} {fields : List (String × PayloadEntry)} {context : TypeId}
    (body : e.body = .object type fields) (found : c.findType? type = some context) :
    Blank c e (.object { context, isMutable := e.isMutable })
  | string {text : String} (body : e.body = .string text) : Blank c e (.object
    { context := Core.string
      isMutable := false
      fields := [(Core.stringLength, .scalar (UInt64.ofNat (Text.utf16 text).length))]
      source := some text })
  | array {type : String} {values : Option (List PayloadEntry)} {source : Option (List UInt64)}
    {length : Option Nat} {context : TypeId} (body : e.body = .array type values source length)
    (found : c.findType? type = some context) :
    Blank c e (.array { context, isMutable := e.isMutable, length := 0 })

theorem Blank.grows {v : Descriptor} (h : Blank c e v) (hc : c.Rooted) (hc' : c'.Rooted)
    (hg : c.Grows c') : Blank c' e v := by
  cases h with
  | object body found => exact .object body (hg.findType? hc hc' found)
  | string body => exact .string body
  | array body found => exact .array body (hg.findType? hc hc' found)

/-- What a new place leads to. -/
structure NewPlace (d : Description) (p : Nat) (ds : List DescriptorId) (c : Catalog)
    (e : ValueEntry) (δ : DescriptorId) (c' : Catalog) : Prop where
  settled : Settled d.types p (ds ++ [δ]) c'
  grows : c.Grows c'
  methods : c'.methods = c.methods
  fresh : δ ∉ ds
  denotes : ∀ n, e.body.type? = some n → IsTypeName c' n
  blank : ∃ v, c'.descriptor? δ = some v ∧ Blank c' e v

/-- A new place is that of a new value. -/
theorem Settled.newPlace (h : Settled d.types p ds c) {v : Descriptor} (hv : Blank c e v) :
    NewPlace d p ds c e (c.addDescriptor v).1 (c.addDescriptor v).2 := by
  have hg := c.grows_addDescriptor v
  have h' := h.standing.addDescriptor v
  have hv' := hv.grows h.rooted h'.rooted hg
  refine ⟨h.grows hg h', hg, rfl, fun hmem => ?_, fun n hn => ?_, v, ?_, hv'⟩
  · exact Nat.lt_irrefl _ ((h.standing.apart _).1 hmem).1
  · cases hv' with
    | object body found =>
      rw [body] at hn
      obtain rfl := Option.some.inj hn
      exact ⟨_, found⟩
    | string body => rw [body] at hn; cases hn
    | array body found =>
      rw [body] at hn
      obtain rfl := Option.some.inj hn
      exact ⟨_, found⟩
  · exact List.getElem?_concat_length

theorem NewPlace.of_follows {c₁ : Catalog} {δ : DescriptorId} (h : NewPlace d p ds c₁ e δ c')
    (h₁ : d.Follows p ds c c₁) : NewPlace d p ds c e δ c' :=
  { h with grows := h₁.grows.trans h.grows, methods := h.methods.trans h₁.methods }

/-- Making a place for a value. -/
theorem declareValue_yields (h : Settled d.types p ds c) (he : e ∈ d.values) :
    Yields (declareValue e) c (Faulty d p) (NewPlace d p ds c e) := by
  unfold declareValue
  cases hbody : e.body with
  | string text => exact .onCatalog (h.newPlace (.string hbody))
  | object type fields =>
    refine (h.typeNamed (.value he (by rw [hbody]; rfl))).bind ?_
    rintro t c₁ ⟨h₁, ht⟩
    exact .onCatalog ((h₁.settled.newPlace (.object hbody ht)).of_follows h₁)
  | array type values source length =>
    refine (h.typeNamed (.value he (by rw [hbody]; rfl))).bind ?_
    rintro t c₁ ⟨h₁, ht⟩
    exact .onCatalog ((h₁.settled.newPlace (.array hbody ht)).of_follows h₁)

/-- What holds when some values have places. -/
structure HavePlaces (d : Description) (p : Nat) (before : List ValueEntry) (names : Names)
    (c : Catalog) : Prop where
  settled : Settled d.types p (names.map Prod.snd) c
  named : names.map Prod.fst = before.map ValueEntry.name
  distinct : (names.map Prod.fst).Nodup
  nodup : (names.map Prod.snd).Nodup
  blank : ∀ e ∈ before, ∃ δ v, names.lookup e.name = some δ ∧ c.descriptor? δ = some v ∧
    Blank c e v

theorem notMem_of_lookup_eq_none {n : String} (h : names.lookup n = none) :
    n ∉ names.map Prod.fst := by
  intro hmem
  obtain ⟨⟨m, δ⟩, hx, rfl⟩ := List.mem_map.1 hmem
  exact Partial.notMem_of_lookup_eq_none h δ hx

theorem HavePlaces.snoc {δ : DescriptorId} (h : HavePlaces d p before names c)
    (h' : NewPlace d p (names.map Prod.snd) c e δ c') (hnew : names.lookup e.name = none) :
    HavePlaces d p (before ++ [e]) (names ++ [(e.name, δ)]) c' := by
  refine ⟨by rw [List.map_append]; exact h'.settled, ?_, ?_, ?_, fun e' he' => ?_⟩
  · rw [List.map_append, List.map_append, h.named]
    rfl
  · rw [List.map_append, List.map_singleton, ← List.concat_eq_append]
    exact h.distinct.concat (notMem_of_lookup_eq_none hnew)
  · rw [List.map_append, List.map_singleton, ← List.concat_eq_append]
    exact h.nodup.concat h'.fresh
  · rcases List.mem_append.1 he' with he' | he'
    · obtain ⟨δ', v, hlookup, hv, hblank⟩ := h.blank e' he'
      refine ⟨δ', v, ?_, h'.grows.descriptor? hv,
        hblank.grows h.settled.rooted h'.settled.rooted h'.grows⟩
      rw [List.lookup_append, hlookup]
      rfl
    · obtain rfl := List.mem_singleton.1 he'
      obtain ⟨v, hv, hblank⟩ := h'.blank
      refine ⟨δ, v, ?_, hv, hblank⟩
      rw [List.lookup_append, hnew]
      simp

/-- **Making places for values.** -/
theorem declareValues_yields (h : Settled d.types p [] c) :
    Yields (declareValues d.values) c (Faulty d p) fun names c' =>
      HavePlaces d p d.values names c' ∧ c.Grows c' ∧ c'.methods = c.methods ∧
        ∀ e ∈ d.values, ∀ n, e.body.type? = some n → IsTypeName c' n := by
  refine .foldlM (I := fun before names c' => HavePlaces d p before names c' ∧ c.Grows c' ∧
    c'.methods = c.methods ∧ ∀ e ∈ before, ∀ n, e.body.type? = some n → IsTypeName c' n) ?_ ?_
  · exact ⟨⟨h, rfl, .nil, .nil, nofun⟩, .refl c, rfl, nofun⟩
  rintro before e after names c₁ heq ⟨h₁, hg₁, hmethods, hbefore⟩
  refine (declareValue_yields h₁.settled (e := e) (by simp [heq])).bind fun δ c₂ h₂ => ?_
  split
  · rename_i hsome
    obtain ⟨δ', hlookup⟩ := Option.isSome_iff_exists.1 hsome
    have hmem : e.name ∈ names.map Prod.fst :=
      List.mem_map_of_mem (f := Prod.fst) (Partial.mem_of_lookup_eq_some hlookup)
    rw [h₁.named] at hmem
    obtain ⟨other, hother, hname⟩ := List.mem_map.1 hmem
    exact .throw (.duplicateValue heq hother hname)
  · rename_i hnone
    refine .pure ⟨h₁.snoc h₂ (Option.not_isSome_iff_eq_none.1 hnone), hg₁.trans h₂.grows,
      h₂.methods.trans hmethods, fun e' he' n hn => ?_⟩
    rcases List.mem_append.1 he' with he' | he'
    · exact (hbefore e' he' n hn).grows h₁.settled.rooted h₂.settled.rooted h₂.grows
    · obtain rfl := List.mem_singleton.1 he'
      exact h₂.denotes n hn

/-- What holds when all is declared and values are not filled yet. -/
structure Ready (d : Description) (p : Nat) (names : Names) (c : Catalog) : Prop where
  placed : HavePlaces d p d.values names c
  methods : c.methods.map MethodDef.name = d.methods.map MethodEntry.name
  fields : ∀ e ∈ d.types, ∃ t, c.findType? e.name = some t ∧ ∀ f ∈ e.fields, HasField c t f
  mentions : ∀ n, d.Mentions n → IsTypeName c n

/-- **All is declared, or there is a fault.** -/
theorem places_yields (d : Description) (p : Nat) :
    Yields d.places (Catalog.new p) (Faulty d p) (Ready d p) := by
  refine (declareTypes_yields d p).bind ?_
  rintro _ c₁ ⟨h₁, hmethods, hfields⟩
  refine (declareMethods_yields h₁ hmethods).bind ?_
  rintro _ c₂ ⟨h₂, hg₂, hmethods₂, hmentions⟩
  refine (declareValues_yields h₂).mono ?_
  rintro names c₃ ⟨h₃, hg₃, hmethods₃, htypes⟩
  have hfields' : ∀ e ∈ d.types, ∃ t, c₃.findType? e.name = some t ∧
      ∀ f ∈ e.fields, HasField c₃ t f := by
    intro e he
    obtain ⟨t, ht, hall⟩ := hfields e he
    exact ⟨t, (hg₂.trans hg₃).findType? h₁.rooted h₃.settled.rooted ht, fun f hf =>
      (hall f hf).grows h₁.rooted h₃.settled.rooted (hg₂.trans hg₃)⟩
  refine ⟨h₃, by rw [hmethods₃, hmethods₂], hfields', fun n hn => ?_⟩
  cases hn with
  | field mem field =>
    obtain ⟨t, -, hall⟩ := hfields' _ mem
    obtain ⟨id, -, -, u, hu, -⟩ := hall _ field
    exact ⟨u, hu⟩
  | method mem mention =>
    exact (hmentions _ mem n mention).grows h₂.rooted h₃.settled.rooted hg₃
  | value mem type => exact htypes _ mem n type

end DataImage.Description
