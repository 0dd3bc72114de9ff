import DataImage.Proofs.Description.Types

/-!
# Declaring fields and methods

Once all types are declared, names of types denote the same for good (`Description.Settled`). Fields
and methods are declared then, so they may mention any type (`Description.declareTypes_yields`,
`Description.declareMethods_yields`).
-/

namespace DataImage.Description

variable {d : Description} {p : Nat} {c c' : Catalog} {ds ds' : List DescriptorId} {t : TypeId}
  {n : String}

theorem Settled.rooted {types : List TypeEntry} (h : Settled types p ds c) : c.Rooted :=
  h.standing.rooted

/-- Where steps lead that declare no methods and no values. -/
structure Follows (d : Description) (p : Nat) (ds : List DescriptorId) (c c' : Catalog) : Prop where
  settled : Settled d.types p ds c'
  grows : c.Grows c'
  methods : c'.methods = c.methods

namespace Follows

variable {c₁ : Catalog}

protected theorem refl (h : Settled d.types p ds c) : d.Follows p ds c c := ⟨h, .refl c, rfl⟩

protected theorem trans (h : d.Follows p ds c c₁) (h' : d.Follows p ds c₁ c') :
    d.Follows p ds c c' :=
  ⟨h'.settled, h.grows.trans h'.grows, h'.methods.trans h.methods⟩

end Follows

/-- A name that is mentioned denotes a type, or there is a fault. -/
theorem Settled.typeNamed (h : Settled d.types p ds c) (hn : d.Mentions n) :
    Yields (Description.typeNamed n) c (Faulty d p) fun t c' =>
      d.Follows p ds c c' ∧ c'.findType? n = some t := by
  refine ((typeNamed_yields h.standing n).mono_fault fun err herr => ?_).mono fun t c' ht => ?_
  · exact .type hn (h.pointerSize ▸ herr)
  · exact ⟨⟨h.grows ht.grows ht.standing, ht.grows, ht.methods_eq⟩, ht.findType?_eq⟩

/-! ## Fields -/

/-- Whether a type itself declares a field as an entry says. -/
def HasField (c : Catalog) (t : TypeId) (f : FieldEntry) : Prop :=
  ∃ id ∈ (c.typeDef t).fields, id.index < c.fields.length ∧ ∃ u, c.findType? f.type = some u ∧
    c.field id = { name := f.name, owner := t, offset := f.offset, type := u }

theorem HasField.grows {f : FieldEntry} (h : HasField c t f) (hc : c.Rooted) (hc' : c'.Rooted)
    (hg : c.Grows c') : HasField c' t f := by
  obtain ⟨id, hmem, hlt, u, hu, hfield⟩ := h
  refine ⟨id, ?_, Nat.lt_of_lt_of_le hlt hg.fields.length_le, u, hg.findType? hc hc' hu, ?_⟩
  · rw [hc.typeDef_eq] at hmem
    rw [hc'.typeDef_eq]
    exact (hg.members t).subset hmem
  · rw [hg.field hlt, hfield]

/-- Declaring the fields of a type. -/
theorem declareFields_yields {e : TypeEntry} (h : Settled d.types p ds c) (he : e ∈ d.types)
    (ht : t.index < c.types.length) : Yields (declareFields e t) c (Faulty d p) fun _ c' =>
      d.Follows p ds c c' ∧ ∀ f ∈ e.fields, HasField c' t f := by
  refine .forM (I := fun before c' => d.Follows p ds c c' ∧ ∀ f ∈ before, HasField c' t f)
    ⟨.refl h, fun f hf => absurd hf List.not_mem_nil⟩ ?_
  rintro before f after c₁ heq ⟨h₁, hbefore⟩
  have hf : f ∈ e.fields := by simp [heq]
  refine (h₁.settled.typeNamed (.field he hf)).bind ?_
  rintro u c₂ ⟨h₂, hu⟩
  have hg₃ := c₂.grows_addField t f.name f.offset u
  have h₃ := h₂.settled.grows hg₃ (h₂.settled.standing.addField t f.name f.offset u)
  refine .discard <| .onCatalog ⟨(h₁.trans h₂).trans ⟨h₃, hg₃, rfl⟩, fun f' hf' => ?_⟩
  rcases List.mem_append.1 hf' with hf' | hf'
  · exact (hbefore f' hf').grows h₁.settled.rooted h₃.rooted (h₂.grows.trans hg₃)
  · obtain rfl := List.mem_singleton.1 hf'
    have hlt : t.index < c₂.types.length :=
      Nat.lt_of_lt_of_le ht (h₁.trans h₂).grows.length
    refine ⟨(c₂.addField t f'.name f'.offset u).1, ?_, ?_, u, ?_, ?_⟩
    · rw [h₃.rooted.typeDef_eq]
      exact Catalog.mem_fields_addField hlt _ _ _
    · exact List.length_append ▸ Nat.lt_succ_self _
    · exact hg₃.findType? h₂.settled.rooted h₃.rooted hu
    · exact Catalog.field_addField _ _ _ _

/-- **Declaring types with their fields.** -/
theorem declareTypes_yields (d : Description) (p : Nat) :
    Yields (declareTypes d.types) (Catalog.new p) (Faulty d p) fun _ c =>
      Settled d.types p [] c ∧ c.methods = [] ∧
        ∀ e ∈ d.types, ∃ t, c.findType? e.name = some t ∧ ∀ f ∈ e.fields, HasField c t f := by
  have htypes : Yields (d.types.mapM declareType) (Catalog.new p) (Faulty d p)
      (Typed p d.types) := by
    refine .mapM (typed_new p) fun before e after ids c heq h => ?_
    exact (declareType_yields h e).mono_fault fun err herr => .declaration heq herr
  unfold declareTypes
  refine htypes.bind fun ids c₁ h₁ => ?_
  obtain ⟨hlength, hzip⟩ := List.forall₂_iff_zip.1 h₁.denoted
  have hsettled := h₁.toSettled
  refine (Yields.forM (I := fun before c => d.Follows p [] c₁ c ∧
    ∀ x ∈ before, ∀ f ∈ x.1.fields, HasField c x.2 f)
    ⟨.refl hsettled, fun x hx => absurd hx List.not_mem_nil⟩ ?_).mono ?_
  · rintro before ⟨e, t⟩ after c heq ⟨h, hbefore⟩
    have hmem : (e, t) ∈ d.types.zip ids := by simp [heq]
    have hlt := (hsettled.rooted.findType?_eq_some_iff.1 (hzip hmem)).1
    refine (declareFields_yields h.settled (List.of_mem_zip hmem).1
      (Nat.lt_of_lt_of_le hlt h.grows.length)).mono ?_
    rintro _ c' ⟨h', hfields⟩
    refine ⟨h.trans h', fun x hx f hf => ?_⟩
    rcases List.mem_append.1 hx with hx | hx
    · exact (hbefore x hx f hf).grows h.settled.rooted h'.settled.rooted h'.grows
    · obtain rfl := List.mem_singleton.1 hx
      exact hfields f hf
  · rintro _ c ⟨h, hall⟩
    refine ⟨h.settled, h.methods.trans h₁.methods, fun e he => ?_⟩
    have hpairs : List.Forall₂ (fun e t => (e, t) ∈ d.types.zip ids) d.types ids :=
      List.forall₂_iff_zip.2 ⟨hlength, fun hmem => hmem⟩
    obtain ⟨t, -, hmem⟩ := Partial.exists_of_forall₂_right hpairs.flip he
    exact ⟨t, h.grows.findType? hsettled.rooted h.settled.rooted (hzip hmem), hall _ hmem⟩

/-! ## Methods -/

/-- A list of names that are mentioned. -/
theorem Settled.mapM_typeNamed (h : Settled d.types p ds c) {ns : List String}
    (hns : ∀ n ∈ ns, d.Mentions n) : Yields (ns.mapM Description.typeNamed) c (Faulty d p)
      fun _ c' => d.Follows p ds c c' ∧ ∀ n ∈ ns, IsTypeName c' n := by
  refine .mapM (I := fun before _ c' => d.Follows p ds c c' ∧ ∀ n ∈ before, IsTypeName c' n)
    ⟨.refl h, fun n hn => absurd hn List.not_mem_nil⟩ ?_
  rintro before n after ts c₁ heq ⟨h₁, hbefore⟩
  refine (h₁.settled.typeNamed (hns n (by simp [heq]))).mono ?_
  rintro u c₂ ⟨h₂, hu⟩
  refine ⟨h₁.trans h₂, fun m hm => ?_⟩
  rcases List.mem_append.1 hm with hm | hm
  · exact (hbefore m hm).grows h₁.settled.rooted h₂.settled.rooted h₂.grows
  · obtain rfl := List.mem_singleton.1 hm
    exact ⟨u, hu⟩

/-- A name that is mentioned, if there is one. -/
theorem Settled.optionMapM_typeNamed (h : Settled d.types p ds c) {o : Option String}
    (ho : ∀ n ∈ o, d.Mentions n) : Yields (o.mapM Description.typeNamed) c (Faulty d p)
      fun _ c' => d.Follows p ds c c' ∧ ∀ n ∈ o, IsTypeName c' n := by
  refine .optionMapM (I := fun _ c' => d.Follows p ds c c' ∧ ∀ n ∈ o, IsTypeName c' n) ?_ ?_
  · rintro rfl
    exact ⟨.refl h, nofun⟩
  · rintro n rfl
    refine (h.typeNamed (ho n rfl)).mono ?_
    rintro u c' ⟨h', hu⟩
    refine ⟨h', fun m hm => ?_⟩
    obtain rfl := Option.some.inj hm
    exact ⟨u, hu⟩

/-- Declaring a method. -/
theorem declareMethod_yields {e : MethodEntry} (h : Settled d.types p ds c) (he : e ∈ d.methods) :
    Yields (declareMethod e) c (Faulty d p) fun _ c' => Settled d.types p ds c' ∧ c.Grows c' ∧
      c'.methods.map MethodDef.name = c.methods.map MethodDef.name ++ [e.name] ∧
        ∀ n ∈ e.mentions, IsTypeName c' n := by
  have owner : e.owner ∈ e.mentions := List.mem_cons_self
  have param : ∀ n ∈ e.params, n ∈ e.mentions := fun n hn =>
    List.mem_cons_of_mem _ (List.mem_append_left _ hn)
  have result : ∀ n ∈ e.result, n ∈ e.mentions := fun n hn =>
    List.mem_cons_of_mem _ (List.mem_append_right _ (Option.mem_toList.2 hn))
  unfold declareMethod
  refine (h.typeNamed (.method he owner)).bind ?_
  rintro t c₁ ⟨h₁, ht⟩
  refine (h₁.settled.mapM_typeNamed fun n hn => .method he (param n hn)).bind ?_
  rintro ts c₂ ⟨h₂, hparams⟩
  refine (h₂.settled.optionMapM_typeNamed fun n hn => .method he (result n hn)).bind ?_
  rintro u c₃ ⟨h₃, hresult⟩
  have hall := (h₁.trans h₂).trans h₃
  have hg₄ := c₃.grows_addMethod
    { owner := t, name := e.name, params := ts, result := u, isExternal := e.isExternal }
  have h₄ := h₃.settled.grows hg₄ (h₃.settled.standing.addMethod _)
  refine .onCatalog ⟨h₄, hall.grows.trans hg₄, ?_, fun n hn => ?_⟩
  · change (c₃.methods ++ [_]).map MethodDef.name = _
    rw [List.map_append, hall.methods]
    rfl
  · have hdenotes : IsTypeName c₃ n := by
      rcases List.mem_cons.1 hn with rfl | hn
      · exact IsTypeName.grows ⟨t, ht⟩ h₁.settled.rooted h₃.settled.rooted (h₂.trans h₃).grows
      · rcases List.mem_append.1 hn with hn | hn
        · exact (hparams n hn).grows h₂.settled.rooted h₃.settled.rooted h₃.grows
        · exact hresult n (Option.mem_toList.1 hn)
    exact hdenotes.grows h₃.settled.rooted h₄.rooted hg₄

/-- **Declaring methods.** -/
theorem declareMethods_yields (h : Settled d.types p ds c) (hmethods : c.methods = []) :
    Yields (d.methods.forM fun e => discard <| declareMethod e) c (Faulty d p) fun _ c' =>
      Settled d.types p ds c' ∧ c.Grows c' ∧
        c'.methods.map MethodDef.name = d.methods.map MethodEntry.name ∧
          ∀ e ∈ d.methods, ∀ n ∈ e.mentions, IsTypeName c' n := by
  refine .forM (I := fun before c' => Settled d.types p ds c' ∧ c.Grows c' ∧
    c'.methods.map MethodDef.name = before.map MethodEntry.name ∧
      ∀ e ∈ before, ∀ n ∈ e.mentions, IsTypeName c' n)
    ⟨h, .refl c, by rw [hmethods]; rfl, fun e he => absurd he List.not_mem_nil⟩ ?_
  rintro before e after c₁ heq ⟨h₁, hg₁, hnames, hbefore⟩
  refine .discard ((declareMethod_yields h₁ (e := e) (by simp [heq])).mono ?_)
  rintro m c₂ ⟨h₂, hg₂, hnames₂, hmentions⟩
  refine ⟨h₂, hg₁.trans hg₂, ?_, fun e' he' n hn => ?_⟩
  · rw [hnames₂, hnames, List.map_append]
    rfl
  · rcases List.mem_append.1 he' with he' | he'
    · exact (hbefore e' he' n hn).grows h₁.rooted h₂.rooted hg₂
    · obtain rfl := List.mem_singleton.1 he'
      exact hmentions n hn

end DataImage.Description
