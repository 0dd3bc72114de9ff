import DataImage.Proofs.Catalog.Growing

/-!
# Where types come from

Every type of a catalog is a core type, or it has a name that was declared, or it is the array type
that its name says (`Catalog.Origin`). `Catalog.Standing` says so of all types, together with what
else holds between two declarations: virtual tables are as they were made, and the values that are
none are known. Each declaration keeps this, and adds its own name or value.
-/

namespace DataImage.Catalog

variable {c c' : Catalog} {declared declared' : String → Prop} {ds ds' : List DescriptorId}
  {t : TypeId} {n : String}

/-- Whether a name is that of a core type, for pointers of `p` bytes. -/
def IsCoreName (p : Nat) (n : String) : Prop := n ∈ (Core.types p).map (·.name)

instance (p : Nat) (n : String) : Decidable (IsCoreName p n) :=
  inferInstanceAs (Decidable (n ∈ (Core.types p).map (·.name)))

/-- Where a type comes from, when types of some names were declared. -/
inductive Origin (c : Catalog) (declared : String → Prop) (t : TypeId) : Prop where
  | core (name : IsCoreName c.pointerSize (c.declaredType t).name)
  | declared (name : declared (c.declaredType t).name)
  | array {element : TypeId} (known : element.index < c.types.length)
    (kind : (c.declaredType t).kind = .array element)
    (name : (c.declaredType t).name = (c.declaredType element).name ++ "[]")

/-- What holds of a catalog between two declarations, when types of some names were declared and
some values were added. -/
structure Standing (c : Catalog) (declared : String → Prop) (ds : List DescriptorId) : Prop where
  tabled : c.Tabled
  apart : c.Apart ds
  origins : ∀ t, t.index < c.types.length → c.Origin declared t
  known : ∀ n, declared n → (c.findType? n).isSome = true
  arrays : ∀ e t, c.arrayTypes.lookup e = some t →
    e.index < c.types.length ∧ c.findType? ((c.declaredType e).name ++ "[]") = some t

namespace Standing

variable (h : c.Standing declared ds)

include h

theorem rooted : c.Rooted := h.tabled.declared.wellDeclared.toRooted

theorem index_lt_of_isTable {d : DescriptorId} (hd : c.IsTable d) :
    d.index < c.descriptors.length :=
  h.tabled.tables.index_lt hd

theorem isSome_findType?_of_isCoreName (hn : IsCoreName c.pointerSize n) :
    (c.findType? n).isSome = true := by
  obtain ⟨d, hd, rfl⟩ := List.mem_map.1 hn
  obtain ⟨i, hi⟩ := List.mem_iff_getElem?.1 hd
  have hbare := h.rooted.typeDef_core (t := ⟨i⟩) hi
  have hlt : i < c.types.length := by
    have := (List.getElem?_eq_some_iff.1 hi).1
    exact Nat.lt_of_lt_of_le this h.rooted.le_length_types
  have hname : (c.declaredType ⟨i⟩).name = d.name := by
    rw [h.rooted.typeDef_eq] at hbare
    have hname := congrArg TypeDef.name hbare
    exact hname
  rw [h.rooted.findType?_eq_some_iff.2 ⟨hlt, hname⟩]
  rfl

end Standing

theorem Origin.grows (h : c.Origin declared t) (ht : t.index < c.types.length)
    (hg : c.Grows c') (hdeclared : ∀ n, declared n → declared' n) : c'.Origin declared' t := by
  cases h with
  | core name => exact .core (by rwa [hg.name ht, hg.pointerSize])
  | declared name => exact .declared (by rw [hg.name ht]; exact hdeclared _ name)
  | @array element known kind name =>
    refine .array (Nat.lt_of_lt_of_le known hg.length) ((hg.kind ht).trans kind) ?_
    rw [hg.name ht, hg.name known, name]

/-- What a step has to keep by itself. -/
theorem Standing.grows (h : c.Standing declared ds) (hg : c.Grows c') (htabled : c'.Tabled)
    (hapart : c'.Apart ds') (hdeclared : ∀ n, declared n → declared' n)
    (hknown : ∀ n, declared' n → declared n ∨ (c'.findType? n).isSome = true)
    (hnew : ∀ t, c.types.length ≤ t.index → t.index < c'.types.length → c'.Origin declared' t)
    (harrays : ∀ e t, c'.arrayTypes.lookup e = some t → c.arrayTypes.lookup e = some t ∨
      e.index < c.types.length ∧ c'.findType? ((c'.declaredType e).name ++ "[]") = some t) :
    c'.Standing declared' ds' where
  tabled := htabled
  apart := hapart
  origins := fun t ht => by
    rcases Nat.lt_or_ge t.index c.types.length with hlt | hge
    · exact (h.origins t hlt).grows hlt hg hdeclared
    · exact hnew t hge ht
  known := fun n hn => by
    rcases hknown n hn with hn | hn
    · obtain ⟨t, ht⟩ := Option.isSome_iff_exists.1 (h.known n hn)
      rw [hg.findType? h.rooted htabled.declared.wellDeclared.toRooted ht]
      rfl
    · exact hn
  arrays := fun e t he => by
    rcases harrays e t he with he | ⟨hlt, hfind⟩
    · obtain ⟨hlt, hfind⟩ := h.arrays e t he
      refine ⟨Nat.lt_of_lt_of_le hlt hg.length, ?_⟩
      rw [hg.name hlt]
      exact hg.findType? h.rooted htabled.declared.wellDeclared.toRooted hfind
    · exact ⟨Nat.lt_of_lt_of_le hlt hg.length, hfind⟩

/-! ## Declarations -/

section

variable (h : c.Standing declared ds)

include h

/-- Steps that leave the types alone. -/
theorem Standing.congr (hg : c.Grows c') (htabled : c'.Tabled) (hapart : c'.Apart ds')
    (hlength : c'.types.length = c.types.length) (harrays : c'.arrayTypes = c.arrayTypes) :
    c'.Standing declared ds' :=
  h.grows hg htabled hapart (fun _ hn => hn) (fun _ hn => Or.inl hn)
    (fun t hge hlt => absurd hlt (by omega)) fun e t he => Or.inl (harrays ▸ he)

theorem Standing.addField (owner : TypeId) (name : String) (offset : Nat) (type : TypeId) :
    (c.addField owner name offset type).2.Standing declared ds :=
  h.congr (grows_addField owner name offset type) (h.tabled.addField owner name offset type)
    (h.apart.congr rfl rfl) (List.length_modify ..) rfl

theorem Standing.addMethod (d : MethodDef) : (c.addMethod d).2.Standing declared ds :=
  h.congr (grows_addMethod d) (h.tabled.addMethod d) (h.apart.congr rfl rfl) rfl rfl

theorem Standing.addDescriptor (v : Descriptor) :
    (c.addDescriptor v).2.Standing declared (ds ++ [(c.addDescriptor v).1]) :=
  h.congr (grows_addDescriptor v) (h.tabled.addDescriptor v)
    (h.apart.addDescriptor (fun _ => h.index_lt_of_isTable) v) rfl rfl

end

/-- The type that a declaration gives, if it is new. -/
theorem declaredType_declareType {d : TypeDef} (hge : c.types.length ≤ t.index)
    (hlt : t.index < (c.declareType d).2.types.length) :
    c.findType? d.name = none ∧ t = (c.declareType d).1 ∧
      (c.declareType d).2.declaredType t = d := by
  unfold declareType at hlt ⊢
  cases hfind : c.findType? d.name with
  | some u =>
    rw [hfind] at hlt
    exact absurd hlt (Nat.not_lt.2 hge)
  | none =>
    rw [hfind] at hlt
    dsimp only at hlt ⊢
    rw [List.length_append, List.length_singleton] at hlt
    obtain ⟨i⟩ := t
    obtain rfl : i = c.types.length := by dsimp only at hlt hge; omega
    refine ⟨rfl, rfl, ?_⟩
    rw [declaredType, List.getD_eq_getElem?_getD, List.getElem?_concat_length, Option.getD_some]

theorem declaredType_declareType_of_free {d : TypeDef} (h : c.findType? d.name = none) :
    (c.declareType d).2.declaredType (c.declareType d).1 = d := by
  unfold declareType
  rw [h]
  dsimp only [declaredType]
  rw [List.getD_eq_getElem?_getD, List.getElem?_concat_length, Option.getD_some]

/-- A name denotes what it did before a type was declared, or it is the name of that type. -/
theorem findType?_of_declareType {d : TypeDef} (hc : c.Rooted) (hc' : c'.Rooted)
    (hg : c.Grows c') (htypes : c'.types = (c.declareType d).2.types)
    (ht : c'.findType? n = some t) : c.findType? n = some t ∨ n = d.name := by
  obtain ⟨hlt, hname⟩ := hc'.findType?_eq_some_iff.1 ht
  rcases Nat.lt_or_ge t.index c.types.length with hlt' | hge
  · rw [hg.name hlt'] at hname
    exact Or.inl (hc.findType?_eq_some_iff.2 ⟨hlt', hname⟩)
  · rw [htypes] at hlt
    obtain ⟨-, -, hd⟩ := declaredType_declareType hge hlt
    rw [declaredType_congr htypes, hd] at hname
    exact Or.inr hname.symm

section

variable (h : c.Standing declared ds)

include h

/-- Declaring a type, with or without its virtual table. -/
theorem Standing.declareType {d : TypeDef} (htypes : c'.types = (c.declareType d).2.types)
    (hg : c.Grows c') (htabled : c'.Tabled) (hapart : c'.Apart ds)
    (harrays : c'.arrayTypes = c.arrayTypes) :
    c'.Standing (fun n => declared n ∨ n = d.name) ds := by
  refine h.grows hg htabled hapart (fun _ => Or.inl) (fun n hn => ?_) (fun t hge hlt => ?_)
    fun e t he => Or.inl (harrays ▸ he)
  · refine hn.imp_right fun hn => ?_
    rw [hn, findType?_congr htypes, findType?_declareType]
    rfl
  · rw [htypes] at hlt
    obtain ⟨-, -, hd⟩ := declaredType_declareType hge hlt
    exact .declared (Or.inr (by rw [declaredType_congr htypes, hd]))

theorem Standing.addScalar (name : String) (size : Nat) (signed : Bool) :
    (c.addScalar name size signed).2.Standing (fun n => declared n ∨ n = name) ds := by
  obtain ⟨types, heq⟩ := c.declareType_eq { name, kind := .scalar signed, size }
  exact h.declareType rfl (grows_declareType _) (h.tabled.addScalar name size signed)
    (h.apart.declareType _) (congrArg Catalog.arrayTypes heq :)

theorem Standing.addValueType (name : String) (size : Nat) :
    (c.addValueType name size).2.Standing (fun n => declared n ∨ n = name) ds := by
  obtain ⟨types, heq⟩ := c.declareType_eq { name, kind := .valueType, size }
  exact h.declareType rfl (grows_declareType _) (h.tabled.addValueType name size)
    (h.apart.declareType _) (congrArg Catalog.arrayTypes heq :)

theorem Standing.addClass (name : String) (base : TypeId) (size : Nat) :
    (c.addClass name base size).2.Standing (fun n => declared n ∨ n = name) ds := by
  obtain ⟨types, vtables, descriptors, heq⟩ := c.addClass_eq name base size
  exact h.declareType (types_addVtable _) (grows_addClass name base size)
    (h.tabled.addClass name base size) (h.apart.addClass name base size)
    (congrArg Catalog.arrayTypes heq :)

/-- **Declaring the array type of a type**, which is denoted by the name of the type and a mark. -/
theorem Standing.addArrayType {element : TypeId} (hlt : element.index < c.types.length) :
    (c.addArrayType element).2.Standing declared ds ∧
      (c.addArrayType element).2.findType? ((c.declaredType element).name ++ "[]") =
        some (c.addArrayType element).1 := by
  have hg := c.grows_addArrayType element
  have htabled := h.tabled.addArrayType element hlt
  have hapart := h.apart.addArrayType element
  cases hlookup : c.arrayTypes.lookup element with
  | some t =>
    rw [addArrayType_of_eq_some hlookup]
    exact ⟨h, (h.arrays element t hlookup).2⟩
  | none =>
    rw [addArrayType_of_eq_none hlookup] at hg htabled hapart ⊢
    dsimp only at hg htabled hapart ⊢
    have htypes : ((c.withArrayType element).addVtable
        (c.declareType (c.arrayDef element)).1).2.types =
          (c.declareType (c.arrayDef element)).2.types := types_addVtable _
    have hfind : ((c.withArrayType element).addVtable
        (c.declareType (c.arrayDef element)).1).2.findType?
          ((c.declaredType element).name ++ "[]") =
        some (c.declareType (c.arrayDef element)).1 :=
      (findType?_congr htypes _).trans (findType?_declareType (c.arrayDef element))
    refine ⟨h.grows hg htabled hapart (fun _ hn => hn) (fun _ hn => Or.inl hn)
      (fun t hge hlt' => ?_) fun e t he => ?_, hfind⟩
    · rw [htypes] at hlt'
      obtain ⟨-, -, hd⟩ := declaredType_declareType hge hlt'
      rw [← declaredType_congr htypes] at hd
      refine .array (Nat.lt_of_lt_of_le hlt hg.length) ?_ ?_
      · rw [hd, arrayDef]
      · rw [hd, hg.name hlt, arrayDef]
    · obtain ⟨types, hdeclare⟩ := c.declareType_eq (c.arrayDef element)
      obtain ⟨vtables, descriptors, heq, -⟩ :=
        (c.withArrayType element).addVtable_eq (c.declareType (c.arrayDef element)).1
      rw [heq, withArrayType, hdeclare] at he
      dsimp only at he
      rw [Keyed.lookup_put] at he
      split at he
      · rename_i heq
        rw [heq, hg.name hlt, ← Option.some.inj he]
        exact Or.inr ⟨hlt, hfind⟩
      · exact Or.inl he

/-- A name denotes what it did before an array type was declared, or it is the name of that type. -/
theorem Standing.findType?_of_addArrayType {element : TypeId} (hlt : element.index < c.types.length)
    (ht : (c.addArrayType element).2.findType? n = some t) :
    c.findType? n = some t ∨ n = (c.declaredType element).name ++ "[]" := by
  have hg := c.grows_addArrayType element
  have hrooted := (h.addArrayType hlt).1.rooted
  cases hlookup : c.arrayTypes.lookup element with
  | some u =>
    rw [addArrayType_of_eq_some hlookup] at ht
    exact Or.inl ht
  | none =>
    rw [addArrayType_of_eq_none hlookup] at ht hg hrooted
    exact findType?_of_declareType h.rooted hrooted hg
      (d := c.arrayDef element) (types_addVtable _) ht

end

/-! ## The start -/

/-- At the start there are the core types only. -/
theorem isCoreName_new {p : Nat} (ht : t.index < (new p).types.length) :
    IsCoreName p ((new p).declaredType t).name := by
  obtain ⟨vtables, descriptors, heq⟩ := new_eq p
  rw [heq] at ht ⊢
  rw [declaredType, List.getD_eq_getElem?_getD, List.getElem?_eq_getElem ht, Option.getD_some]
  exact List.mem_map_of_mem (List.getElem_mem _)

theorem standing_new (p : Nat) : (new p).Standing (fun _ => False) [] where
  tabled := .new p
  apart := apart_new p
  origins := fun t ht => by
    have hp : (new p).pointerSize = p := by
      obtain ⟨vtables, descriptors, heq⟩ := new_eq p
      rw [heq]
    exact .core (hp.symm ▸ isCoreName_new ht)
  known := nofun
  arrays := fun e t he => by
    obtain ⟨vtables, descriptors, heq⟩ := new_eq p
    rw [heq] at he
    cases he

end DataImage.Catalog
