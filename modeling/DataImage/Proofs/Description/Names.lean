import DataImage.Proofs.Catalog.Origins
import DataImage.Proofs.Description.Steps

/-!
# Names of types

A name with array marks at its end denotes an array type, whose element type is denoted by the name
without the last mark. To look a name up declares the array types on the way that are not there
(`Description.typeNamed_yields`), or it fails as the name without all marks is that of no type.
-/

namespace DataImage.Description

variable {c c' : Catalog} {declared : String → Prop} {ds : List DescriptorId} {n : String}

/-! ## Array marks -/

theorem elementName?_eq_some_iff {element : String} :
    elementName? n = some element ↔ n = element ++ "[]" := by
  unfold elementName?
  constructor
  · intro h
    split at h
    · rename_i rest hrest
      obtain rfl := Option.some.inj h
      rw [← String.toList_inj, String.toList_append, String.toList_ofList,
        List.reverse_eq_iff.1 hrest]
      simp
    · cases h
  · rintro rfl
    simp [String.toList_append]

/-- Whether a name is another one with some array marks behind it, and no name on the way is that of
a type that was declared. -/
inductive ReachesStem (declared : String → Prop) : (name stem : String) → Prop where
  | self (n : String) : ReachesStem declared n n
  | element {n stem : String} (h : ReachesStem declared n stem)
    (undeclared : ¬ declared (n ++ "[]")) : ReachesStem declared (n ++ "[]") stem

/-- No core type has an array mark in its name. -/
theorem elementName?_of_isCoreName {p : Nat} (h : Catalog.IsCoreName p n) :
    elementName? n = none := by
  have hall : ∀ m ∈ (Core.types p).map (·.name), elementName? m = none := by
    simp only [Core.types, Core.scalarDef, List.map_cons, List.map_nil]
    decide +kernel
  exact hall n h

/-! ## Looking names up -/

/-- Why a name denotes no type, when types of some names were declared: without its array marks it
is no name of a type, and none of the names on the way is. -/
inductive Unresolved (p : Nat) (declared : String → Prop) : (name : String) → Error → Prop where
  | stem {n : String} (unmarked : elementName? n = none) (noCore : ¬ Catalog.IsCoreName p n)
    (undeclared : ¬ declared n) : Unresolved p declared n (.unknownType n)
  | array {n : String} {e : Error} (element : Unresolved p declared n e)
    (undeclared : ¬ declared (n ++ "[]")) : Unresolved p declared (n ++ "[]") e

theorem not_declared_of_findType? (h : c.Standing declared ds) (hfind : c.findType? n = none) :
    ¬ declared n := by
  intro hdeclared
  have hsome := h.known n hdeclared
  rw [hfind] at hsome
  cases hsome

theorem unresolved_of_standing (h : c.Standing declared ds) (hunmarked : elementName? n = none)
    (hfind : c.findType? n = none) : Unresolved c.pointerSize declared n (.unknownType n) := by
  refine .stem hunmarked (fun hcore => ?_) (not_declared_of_findType? h hfind)
  have hsome := h.isSome_findType?_of_isCoreName hcore
  rw [hfind] at hsome
  cases hsome

/-- The array type of a name with a mark, unless a type was declared with that name. -/
theorem kind_of_findType?_array (h : c.Standing declared ds) (hn : ¬ declared (n ++ "[]"))
    {t : TypeId} (ht : c.findType? (n ++ "[]") = some t) :
    ∃ u, c.findType? n = some u ∧ (c.declaredType t).kind = .array u := by
  obtain ⟨hlt, hname⟩ := h.rooted.findType?_eq_some_iff.1 ht
  have hmark := elementName?_eq_some_iff.2 (rfl : n ++ "[]" = n ++ "[]")
  cases h.origins t hlt with
  | core name =>
    rw [hname] at name
    rw [elementName?_of_isCoreName name] at hmark
    cases hmark
  | declared name =>
    rw [hname] at name
    exact absurd name hn
  | @array element known kind name =>
    rw [← hname, elementName?_eq_some_iff.2 name] at hmark
    exact ⟨element, h.rooted.findType?_eq_some_iff.2 ⟨known, Option.some.inj hmark⟩, kind⟩

/-- **Nothing is found where looking up fails.** -/
theorem Unresolved.findType?_eq_none {e : Error} (he : Unresolved c.pointerSize declared n e)
    (h : c.Standing declared ds) : c.findType? n = none := by
  rw [Option.eq_none_iff_forall_ne_some]
  induction he with
  | stem unmarked noCore undeclared =>
    intro t ht
    obtain ⟨hlt, hname⟩ := h.rooted.findType?_eq_some_iff.1 ht
    cases h.origins t hlt with
    | core name => exact noCore (hname ▸ name)
    | declared name => exact undeclared (hname ▸ name)
    | array _ _ name =>
      rw [hname] at name
      rw [elementName?_eq_some_iff.2 name] at unmarked
      cases unmarked
  | array _ undeclared ih =>
    intro t ht
    obtain ⟨u, hu, -⟩ := kind_of_findType?_array h undeclared ht
    exact ih u hu

/-- What looking a name up leads to: the type of the name, and new array types at most. -/
structure NameResolved (declared : String → Prop) (ds : List DescriptorId) (c : Catalog)
    (n : String) (t : TypeId) (c' : Catalog) : Prop where
  standing : c'.Standing declared ds
  grows : c.Grows c'
  findType?_eq : c'.findType? n = some t
  fields_eq : c'.fields = c.fields
  methods_eq : c'.methods = c.methods
  others : ∀ m u, c'.findType? m = some u → c.findType? m = some u ∨
    ReachesStem declared n m ∧ (elementName? m).isSome = true

theorem NameResolved.refl {t : TypeId} (h : c.Standing declared ds) (ht : c.findType? n = some t) :
    NameResolved declared ds c n t c :=
  ⟨h, .refl c, ht, rfl, rfl, fun _ _ hu => Or.inl hu⟩

/-- A name that denotes a type is not unresolved. -/
theorem NameResolved.not_unresolved {t : TypeId} (h : NameResolved declared ds c n t c')
    (e : Error) :
    ¬ Unresolved c'.pointerSize declared n e := by
  intro he
  have hnone := he.findType?_eq_none h.standing
  rw [h.findType?_eq] at hnone
  cases hnone

theorem NameResolved.array {t : TypeId} (h : NameResolved declared ds c n t c')
    (hundeclared : ¬ declared (n ++ "[]")) :
    NameResolved declared ds c (n ++ "[]") (c'.addArrayType t).1 (c'.addArrayType t).2 := by
  obtain ⟨hlt, hname⟩ := h.standing.rooted.findType?_eq_some_iff.1 h.findType?_eq
  obtain ⟨hstanding, hfind⟩ := h.standing.addArrayType hlt
  obtain ⟨types, vtables, descriptors, arrayTypes, heq⟩ := c'.addArrayType_eq t
  rw [hname] at hfind
  refine ⟨hstanding, h.grows.trans (c'.grows_addArrayType t), hfind, ?_, ?_, fun m u hu => ?_⟩
  · rw [heq]; exact h.fields_eq
  · rw [heq]; exact h.methods_eq
  · rcases h.standing.findType?_of_addArrayType hlt hu with hu | rfl
    · rcases h.others m u hu with hu | ⟨hreaches, hmark⟩
      · exact Or.inl hu
      · exact Or.inr ⟨hreaches.element hundeclared, hmark⟩
    · rw [hname]
      refine Or.inr ⟨.self _, ?_⟩
      rw [elementName?_eq_some_iff.2 rfl]
      rfl

theorem typeWithin_yields (h : c.Standing declared ds) {depth : Nat} (hdepth : n.length ≤ depth) :
    Yields (typeWithin depth n) c (Unresolved c.pointerSize declared n)
      (NameResolved declared ds c n) := by
  induction depth generalizing n with
  | zero =>
    have helement : elementName? n = none := by
      cases h' : elementName? n with
      | none => rfl
      | some element =>
        rw [elementName?_eq_some_iff.1 h', String.length_append] at hdepth
        exact absurd hdepth (by simp)
    rw [typeWithin.eq_def]
    refine .get_bind ?_
    cases hfind : c.findType? n with
    | some t => exact .pure (.refl h hfind)
    | none => exact .throw (unresolved_of_standing h helement hfind)
  | succ depth ih =>
    rw [typeWithin.eq_def]
    refine .get_bind ?_
    cases hfind : c.findType? n with
    | some t => exact .pure (.refl h hfind)
    | none =>
      cases helement : elementName? n with
      | none => exact .throw (unresolved_of_standing h helement hfind)
      | some element =>
        obtain rfl := elementName?_eq_some_iff.1 helement
        have hlength : element.length ≤ depth := by
          rw [String.length_append] at hdepth
          change element.length + 2 ≤ depth + 1 at hdepth
          omega
        have hundeclared := not_declared_of_findType? h hfind
        exact ((ih hlength).mono_fault fun e he => .array he hundeclared).bind
          fun t c' hr => .onCatalog (hr.array hundeclared)

/-- **Looking a name up.** -/
theorem typeNamed_yields (h : c.Standing declared ds) (n : String) :
    Yields (typeNamed n) c (Unresolved c.pointerSize declared n) (NameResolved declared ds c n) :=
  typeWithin_yields h (Nat.le_refl _)

end DataImage.Description
