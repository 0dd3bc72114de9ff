import DataImage.Proofs.Catalog.WellTyped

/-!
# Contents of well-typed values

Every well-typed value has contents, and they conform to the types (`Encodable.contents`). The parts
of the region of a type and the slots of its struct come from the same walk, so they are filled one
by one, whatever the walk comes by.
-/

namespace DataImage.Catalog

variable {c : Catalog} {values : DescriptorId → Prop}

/-- Whether the instances of a value type among the values fill a slot of that type. -/
def PartsFill (c : Catalog) (values : DescriptorId → Prop) (t : TypeId) : Prop :=
  ∀ d o, values d → c.descriptor? d = some (.object o) → o.context = t →
    ∃ w, c.contents? d = some w ∧ c.Fills (c.Referable values) (.layout t) w

namespace Encodable

variable (h : c.Encodable values) (hc : c.WellDeclared) (hs : c.Scoped)

include h hc

/-! ## Fields and elements -/

/-- Zero in a slot of any type. -/
theorem null_fills {t : TypeId} (ht : t.index < c.types.length) :
    ∃ w, c.scalar? t 0 = some w ∧ c.Fills (c.Referable values) (c.shapeOf t) w := by
  by_cases hscalar : (c.typeDef t).isScalar = true
  · exact scalar_fills _ hscalar (h.scalars t ht hscalar) 0
  · exact ⟨_, scalar?_eq_some_iff.2 ⟨fun hs => absurd hs hscalar,
      Or.inl ⟨rfl, h.stored hc.toRooted t, rfl⟩⟩, rfl, .zeroed⟩

/-- A payload that suits a type fills a slot of the type. -/
theorem payload_fills {t : TypeId} (ht : t.index < c.types.length)
    (hparts : (c.typeDef t).kind = .valueType → c.PartsFill values t) {p : Payload}
    (hp : c.Suits values t p) :
    ∃ w, c.payload? c.contents? t p = some w ∧ c.Fills (c.Referable values) (c.shapeOf t) w := by
  cases hp with
  | null => exact h.null_fills hc ht
  | @scalar raw hscalar =>
    obtain ⟨w, hw, hfills⟩ := scalar_fills _ hscalar (h.scalars t ht hscalar) raw
    exact ⟨w, by rw [payload?, if_pos hscalar, hw], hfills⟩
  | @reference d v mem value notNested held =>
    refine ⟨.reference d, ?_, ?_, .reference ⟨mem, v, value, notNested⟩⟩
    · rw [payload?, value, Option.bind_some, if_neg (Bool.eq_false_iff.1 notNested)]
    · rw [shapeOf, if_pos held]
      rfl
  | @part d o mem value nested context kind =>
    obtain ⟨w, hw, hfills⟩ := hparts kind d o mem value context
    refine ⟨w, ?_, by rwa [shapeOf_of_inPlace (inPlace_of_valueType kind)]⟩
    have hnested : (Descriptor.object o).isNested = true := nested
    rw [payload?, value, Option.bind_some, if_pos hnested, hw]

include hs

/-- What a field holds fills a slot of its type. -/
theorem held_fills {o : ObjectValue} (ho : ∀ f p, o.fields.lookup f = some p →
      c.SuitsField values f p) {f : FieldId}
    (hparts : (c.typeDef (c.field f).type).kind = .valueType →
      c.PartsFill values (c.field f).type) :
    ∃ w, c.held? c.contents? f (o.fields.lookup f) = some w ∧
      c.Fills (c.Referable values) (c.shapeOf (c.field f).type) w := by
  have ht := (hc.closed hs).fields f
  cases hp : o.fields.lookup f with
  | none => exact zero_fills (h.stored hc.toRooted _)
  | some p =>
    cases ho f p hp with
    | @code p m target field =>
      exact (h.buildable hc.toRooted).codeField_fills (h.pointerSize_le hc.toRooted).1 target
        (h.declarable hc.toRooted m) field
    | payload suits =>
      have hfills := h.payload_fills hc ht hparts suits
      cases suits <;> exact hfills

/-- The parts of a region fill the slots of the struct. -/
theorem region_fills {o : ObjectValue} (ho : ∀ f p, o.fields.lookup f = some p →
      c.SuitsField values f p) {t : TypeId} {offset : Nat} {slots : List Shape}
    (hslots : c.partShapes? (c.region t offset) = some slots)
    (hparts : ∀ f, .field f ∈ c.region t offset →
      (c.typeDef (c.field f).type).kind = .valueType → c.PartsFill values (c.field f).type) :
    ∃ vs, c.regionValues? c.contents? o t offset = some vs ∧
      List.Forall₂ (c.Fills (c.Referable values)) slots vs := by
  obtain ⟨vs, hvs, hfills⟩ := Partial.exists_forall₂_of_forall₂
    (Partial.mapM_eq_some_iff.1 hslots) (S := fun p v => c.partValue? c.contents? o p = some v)
    (T := c.Fills (c.Referable values)) fun p hp slot hslot => by
      cases p with
      | padding =>
        obtain rfl := Option.some.inj hslot
        have hbyte : (c.typeDef Core.byte).isScalar = true := hc.isScalar_core rfl rfl
        exact scalar_fills _ hbyte (h.scalars _ (hc.closed hs).byte hbyte) _
      | field f =>
        obtain rfl := Option.some.inj hslot
        exact h.held_fills hc hs ho (hparts f hp)
      | zeroSized offset | overflow offset => cases hslot
  exact ⟨vs, Partial.mapM_eq_some_iff.2 hvs, hfills⟩

/-! ## Objects -/

/-- **Instances of value types fill their slots**, to any depth. -/
theorem parts_fill {t : TypeId} (ht : (c.typeDef t).kind = .valueType) :
    c.PartsFill values t := by
  induction t using (wellFounded_embeds h.acyclic).induction with
  | _ t ih =>
    intro d o hd hv hcontext
    obtain ⟨v, hv', hwell⟩ := h.wellTyped d hd
    obtain rfl := Option.some.inj (hv'.symm.trans hv)
    have hne := hc.ne_object_of_valueType ht
    obtain ⟨slots, hbody, hslots⟩ := h.body?_of_valueType hc.toRooted ht
    obtain ⟨vs, hvs, hfills⟩ := h.region_fills hc hs hwell.2 hslots fun f hf hkind =>
      ih (c.field f).type ⟨ht, inPlace_of_valueType hkind, f, hf, rfl⟩ hkind
    have hlaid : c.Laid t := h.laid_of_inPlace hc.toRooted (inPlace_of_valueType ht)
    refine ⟨.named t vs, ?_, rfl, conforms_named hbody hfills⟩
    rw [contents?_eq, hv, Option.bind_some]
    exact object?_eq_some_iff.2 ⟨_, _, by rw [← ancestry_of_valueType ht, ← hcontext]; rfl,
      top?_eq_some_iff.2 (Or.inr ⟨hne, hlaid, vs, hvs, rfl⟩), rfl⟩

/-- An instance of a class is built around the instance of its base. -/
theorem chain_fills {o : ObjectValue} (ho : ∀ f p, o.fields.lookup f = some p →
      c.SuitsField values f p) {top : Value}
    (htop : c.Fills (c.Referable values) (.layout Core.object) top) {t : TypeId} {ts : List TypeId}
    (ht : c.Chain t ts) (hstring : Core.string ∉ ts.dropLast) :
    ∃ w, ts.foldlM (c.class? c.contents? o) top = some w ∧
      c.Conforms (c.Referable values) w ∧ (t ≠ Core.string → w.shape? = some (.layout t)) := by
  induction ht with
  | root => exact ⟨top, rfl, htop.2, fun _ => htop.1⟩
  | @derived t base ts kind ne isBase above ih =>
    rw [List.dropLast_concat] at hstring
    have hbase : base ≠ Core.string := by
      rintro rfl
      cases above with
      | derived _ _ _ _ => exact hstring (List.mem_append_right _ (List.mem_singleton.2 rfl))
    obtain ⟨w, hw, hconforms, hshape⟩ := ih fun hmem => hstring (List.dropLast_subset _ hmem)
    obtain ⟨slots, hbody, hslots⟩ := h.body?_of_base kind ne isBase
    obtain ⟨vs, hvs, hfills⟩ := h.region_fills hc hs ho hslots fun f _ hkind =>
      h.parts_fill hc hs hkind
    have hlaid := h.laid_of_chain hc.toRooted (.derived kind ne isBase above)
    have hall : List.Forall₂ (c.Fills (c.Referable values)) (.layout base :: slots) (w :: vs) :=
      .cons ⟨hshape hbase, hconforms⟩ hfills
    rw [List.foldlM_append, hw]
    by_cases htstring : t = Core.string
    · obtain ⟨chars, hchars, hconforms'⟩ :=
        (h.buildable hc.toRooted).characters_fill (c.Referable values) o
      refine ⟨.anon (w :: vs ++ [chars]), ?_, .anon fun x hx => ?_, fun hne => absurd htstring hne⟩
      · rw [Option.bind_eq_bind, Option.bind_some, List.foldlM_cons,
          class?_eq_some_iff.2 ⟨vs, hvs, Or.inl ⟨htstring, chars, hchars, rfl⟩⟩]
        rfl
      · rcases List.mem_append.1 hx with hx | hx
        · obtain ⟨slot, -, hslot⟩ := Partial.exists_of_forall₂_right hall hx
          exact hslot.2
        · exact List.mem_singleton.1 hx ▸ hconforms'
    · refine ⟨.named t (w :: vs), ?_, conforms_named hbody hall, fun _ => rfl⟩
      rw [Option.bind_eq_bind, Option.bind_some, List.foldlM_cons,
        class?_eq_some_iff.2 ⟨vs, hvs, Or.inr ⟨htstring, hlaid, rfl⟩⟩]
      rfl

/-- Whatever is held by reference has a virtual table. -/
theorem exists_vtable {d : DescriptorId} {v : Descriptor} (hv : c.descriptor? d = some v)
    (hheld : (c.typeDef v.context).isHeldByReference = true) :
    ∃ vtable, c.vtable? v.context = some vtable ∧ c.Referable values vtable := by
  have hlt := (hc.closed hs).contexts d v hv
  have hdef : c.typeDef v.context = c.types[v.context.index] := by
    rw [hc.typeDef_eq, declaredType, List.getD_eq_getElem?_getD, List.getElem?_eq_getElem hlt,
      Option.getD_some]
  rw [hdef] at hheld
  obtain ⟨vtable, hvtable⟩ := Option.isSome_iff_exists.1
    (hc.vtables _ _ (List.getElem?_eq_getElem hlt) hheld)
  exact ⟨vtable, hvtable, h.vtables _ _ hvtable⟩

/-! ## Values -/

/-- The elements of an array fill slots of its element type. -/
theorem elements_fill {a : ArrayValue} {element : TypeId} (ht : element.index < c.types.length)
    (ha : c.SuitsElements values a element) :
    ∃ vs, c.elements? c.contents? a element = some vs ∧
      ∀ v ∈ vs, c.Fills (c.Referable values) (c.shapeOf element) v := by
  unfold SuitsElements at ha
  cases hvalues : a.values with
  | some payloads =>
    rw [hvalues] at ha
    obtain ⟨vs, hvs⟩ := Partial.exists_forall₂ (l := payloads) fun p hp =>
      h.payload_fills hc ht (h.parts_fill hc hs) (ha.2 p hp)
    refine ⟨vs, elements?_eq_some_iff.2 (Or.inl ⟨payloads, hvalues, ha.1,
      Partial.mapM_eq_some_iff.2 (hvs.imp fun _ _ hv => hv.1)⟩), fun v hv => ?_⟩
    obtain ⟨p, -, hp⟩ := Partial.exists_of_forall₂_right hvs hv
    exact hp.2
  | none =>
    rw [hvalues] at ha
    obtain ⟨hlen, hsource⟩ := ha
    obtain ⟨vs, hvs⟩ := Partial.exists_forall₂ (l := a.source.getD [])
      (R := fun raw v => c.scalar? element raw = some v ∧
        c.Fills (c.Referable values) (c.shapeOf element) v) fun raw hraw => by
      have hscalar := hsource.resolve_left (List.ne_nil_of_mem hraw)
      exact scalar_fills _ hscalar (h.scalars element ht hscalar) raw
    refine ⟨vs, elements?_eq_some_iff.2 (Or.inr ⟨hvalues, hlen, hsource,
      Partial.mapM_eq_some_iff.2 (hvs.imp fun _ _ hv => hv.1)⟩), fun v hv => ?_⟩
    obtain ⟨raw, -, hraw⟩ := Partial.exists_of_forall₂_right hvs hv
    exact hraw.2

/-- **Well-typed values have contents that conform to their types.** -/
theorem contents {d : DescriptorId} {v : Descriptor} (hd : values d)
    (hv : c.descriptor? d = some v) : ∃ w, c.contents? d = some w ∧
      c.Conforms (c.Referable values) w ∧ c.Laid v.context ∧
      (v.takesTypeFromContents = false → w.shape? = some (.layout v.context)) := by
  obtain ⟨v', hv', hwell⟩ := h.wellTyped d hd
  obtain rfl := Option.some.inj (hv'.symm.trans hv)
  have hwidth := (h.pointerSize_le hc.toRooted).1
  have hbuildable := h.buildable hc.toRooted
  cases v' with
  | object o =>
    obtain ⟨hcontext | ⟨ts, hchain, hstring⟩, hfields⟩ := hwell
    · obtain ⟨w, hw, hshape, hconforms⟩ := h.parts_fill hc hs hcontext d o hd hv rfl
      exact ⟨w, hw, hconforms, h.laid_of_inPlace hc.toRooted (inPlace_of_valueType hcontext),
        fun _ => hshape⟩
    · have hkind : (c.typeDef o.context).isHeldByReference = true := by
        rw [TypeDef.isHeldByReference, hchain.kind_eq hc.toRooted]
      obtain ⟨vtable, hvtable, hmem⟩ := h.exists_vtable hc hs hv hkind
      obtain ⟨top, htop, hfills⟩ := hbuildable.header_fills hwidth hvtable hmem o.isMutable
      obtain ⟨w, hw, hconforms, hshape⟩ := h.chain_fills hc hs hfields hfills hchain hstring
      refine ⟨w, ?_, hconforms, h.laid_of_chain hc.toRooted hchain, fun htakes => hshape ?_⟩
      · rw [contents?_eq, hv, Option.bind_some]
        exact object?_eq_some_iff.2 ⟨_, top, hchain.ancestry_eq hc.toRooted,
          top?_eq_some_iff.2 (Or.inl ⟨rfl, htop⟩), hw⟩
      · exact of_decide_eq_false htakes
  | array a =>
    obtain ⟨element, hkind, helements⟩ := hwell
    have hheld : (c.typeDef a.context).isHeldByReference = true := by
      rw [TypeDef.isHeldByReference, hkind]
    obtain ⟨vtable, hvtable, hmem⟩ := h.exists_vtable hc hs hv hheld
    obtain ⟨base, hbase, hfills⟩ := hbuildable.arrayBase_fills hwidth hvtable hmem
    have ht := (hc.closed hs).elements _ _ ((hc.closed hs).contexts d _ hv) hkind
    obtain ⟨vs, hvs, hall⟩ := h.elements_fill hc hs ht helements
    have hcontents : c.contents? d = some (.anon [base, .array (c.shapeOf element) vs]) := by
      rw [contents?_eq, hv, Option.bind_some]
      exact array?_eq_some_iff.2
        ⟨element, base, vs, hkind, hbase, hvs, h.stored hc.toRooted element, rfl⟩
    refine ⟨_, hcontents, .anon fun x hx => ?_,
      laid_of_array hkind hbuildable.laid_array (h.stored hc.toRooted element),
      fun htakes => by cases htakes⟩
    rcases List.mem_cons.1 hx with rfl | hx
    · exact hfills.2
    · obtain rfl := List.mem_singleton.1 hx
      exact .array (fun v hv => (hall v hv).1) fun v hv => (hall v hv).2

end Encodable

end DataImage.Catalog
