import DataImage.Catalog.Declare
import DataImage.Proofs.Partial
import Mathlib.Data.List.Nodup
import Mathlib.Tactic.IntervalCases

/-!
# Catalogs made by declarations

A catalog comes from the catalog of the core types by declarations (`Catalog.Declared`). Whatever is
declared, the core types keep their places, kinds, bases and sizes, no two types share a name, and
everything that is held by reference has a virtual table (`Catalog.WellDeclared`,
`Catalog.Declared.wellDeclared`).
-/

namespace DataImage

/-- A type without its list of fields. -/
def TypeDef.bare (d : TypeDef) : TypeDef := { d with fields := [] }

/-- The types that a type is declared with. -/
def TypeDef.mentions (d : TypeDef) : List TypeId :=
  d.base.toList ++ match d.kind with
    | .array element => [element]
    | .scalar _ | .reference | .valueType => []

/-- The types that a method is declared with. -/
def MethodDef.mentions (d : MethodDef) : List TypeId := d.params ++ d.result.toList

namespace Catalog

/-- The catalogs that declarations lead to. A string is one more value, and setting what a field
holds is one way to change a value. -/
inductive Declared : Catalog → Prop where
  | new (pointerSize : Nat) : Declared (new pointerSize)
  | addScalar {c : Catalog} (h : Declared c) (name : String) (size : Nat) (signed : Bool) :
    Declared (c.addScalar name size signed).2
  | addValueType {c : Catalog} (h : Declared c) (name : String) (size : Nat) :
    Declared (c.addValueType name size).2
  | addClass {c : Catalog} (h : Declared c) (name : String) (base : TypeId) (size : Nat) :
    Declared (c.addClass name base size).2
  | addArrayType {c : Catalog} (h : Declared c) (element : TypeId) :
    Declared (c.addArrayType element).2
  | addField {c : Catalog} (h : Declared c) (owner : TypeId) (name : String) (offset : Nat)
    (type : TypeId) : Declared (c.addField owner name offset type).2
  | addMethod {c : Catalog} (h : Declared c) (d : MethodDef) : Declared (c.addMethod d).2
  | addDescriptor {c : Catalog} (h : Declared c) (d : Descriptor) :
    Declared (c.addDescriptor d).2
  | updateDescriptor {c : Catalog} (h : Declared c) (d : DescriptorId)
    (change : Descriptor → Descriptor) : Declared (c.updateDescriptor d change)
  | addCodePointer {c : Catalog} (h : Declared c) (target : CodeTarget) :
    Declared (c.addCodePointer target).2
  | addVtable {c : Catalog} (h : Declared c) (t : TypeId) : Declared (c.addVtable t).2
  | setVtable {c : Catalog} (h : Declared c) (t : TypeId) (d : DescriptorId) :
    Declared (c.setVtable t d)

/-- The types that a catalog mentions: as bases and elements of types, in fields and methods, and as
types of values. -/
def mentions (c : Catalog) : List TypeId :=
  c.types.flatMap TypeDef.mentions ++ c.fields.map (·.type) ++
    c.methods.flatMap MethodDef.mentions ++ c.descriptors.map (·.context)

/-- Whether a catalog mentions declared types only. -/
def Scoped (c : Catalog) : Prop := ∀ t ∈ c.mentions, t.index < c.types.length

instance (c : Catalog) : Decidable c.Scoped :=
  inferInstanceAs (Decidable (∀ t ∈ c.mentions, t.index < c.types.length))

/-- What holds of every catalog that is made by declarations, but for the virtual tables. -/
structure Rooted (c : Catalog) : Prop where
  revisions : c.revisions = []
  types : (Core.types c.pointerSize).map TypeDef.bare <+: c.types.map TypeDef.bare
  fields : Core.fields c.pointerSize <+: c.fields
  names : (c.types.map (·.name)).Nodup

/-- What holds of every catalog that is made by declarations. -/
structure WellDeclared (c : Catalog) : Prop extends Rooted c where
  vtables : ∀ (i : Nat) d, c.types[i]? = some d → d.isHeldByReference = true →
    (c.vtable? ⟨i⟩).isSome = true

/-! ## Steps that leave types and fields alone -/

section

variable {c c' : Catalog}

theorem Rooted.congr (h : c.Rooted) (hp : c'.pointerSize = c.pointerSize)
    (hrevisions : c'.revisions = c.revisions) (htypes : c'.types = c.types)
    (hfields : c'.fields = c.fields) : c'.Rooted where
  revisions := hrevisions.trans h.revisions
  types := by rw [hp, htypes]; exact h.types
  fields := by rw [hp, hfields]; exact h.fields
  names := htypes ▸ h.names

theorem WellDeclared.congr (h : c.WellDeclared) (hp : c'.pointerSize = c.pointerSize)
    (hrevisions : c'.revisions = c.revisions) (htypes : c'.types = c.types)
    (hfields : c'.fields = c.fields)
    (hvtables : ∀ t, (c.vtable? t).isSome = true → (c'.vtable? t).isSome = true) :
    c'.WellDeclared where
  toRooted := h.toRooted.congr hp hrevisions htypes hfields
  vtables := fun i d hd hheld => hvtables _ (h.vtables i d (htypes ▸ hd) hheld)

theorem isSome_vtable?_setVtable {t u : TypeId} {d : DescriptorId} :
    ((c.setVtable t d).vtable? u).isSome = true ↔ u = t ∨ (c.vtable? u).isSome = true := by
  rw [vtable?, setVtable, Keyed.lookup_put]
  by_cases h : u = t <;> simp [h, vtable?]

/-- A new virtual table changes nothing but the list of values. -/
theorem addVtable_eq (c : Catalog) (t : TypeId) :
    ∃ vtables descriptors, (c.addVtable t).2 = { c with vtables, descriptors } ∧
      ∀ u, ((c.addVtable t).2.vtable? u).isSome = true ↔
        u = t ∨ (c.vtable? u).isSome = true := by
  unfold addVtable
  cases h : c.vtable? t with
  | some d =>
    refine ⟨c.vtables, c.descriptors, rfl, fun u => ?_⟩
    by_cases hu : u = t <;> simp [hu, h]
  | none => exact ⟨_, _, rfl, fun u => isSome_vtable?_setVtable⟩

theorem Rooted.addVtable (h : c.Rooted) (t : TypeId) : (c.addVtable t).2.Rooted := by
  obtain ⟨vtables, descriptors, heq, -⟩ := c.addVtable_eq t
  rw [heq]
  exact h.congr rfl rfl rfl rfl

/-! ## New types -/

theorem Rooted.declareType (h : c.Rooted) (d : TypeDef) : (c.declareType d).2.Rooted := by
  unfold Catalog.declareType
  cases hfind : c.findType? d.name with
  | some t => exact h
  | none =>
    have hnew : d.name ∉ c.types.map (·.name) := by
      intro hmem
      obtain ⟨e, he, hname⟩ := List.mem_map.1 hmem
      rw [findType?, Option.map_eq_none_iff, List.findIdx?_eq_none_iff] at hfind
      have := hfind e he
      simp [hname] at this
    refine ⟨h.revisions, ?_, h.fields, ?_⟩
    · dsimp only
      rw [List.map_append]
      exact h.types.trans (List.prefix_append _ _)
    · dsimp only
      rw [List.map_append, List.nodup_append']
      refine ⟨h.names, List.nodup_singleton _, fun n hn hn' => hnew ?_⟩
      have hname : n = d.name := List.mem_singleton.1 hn'
      rwa [hname] at hn

/-- The type that a declaration gives, and the types that were there. -/
theorem getElem?_declareType {d e : TypeDef} {i : Nat}
    (h : (c.declareType d).2.types[i]? = some e) :
    c.types[i]? = some e ∨ (c.declareType d).1 = ⟨i⟩ ∧ e = d := by
  unfold declareType at h ⊢
  cases hfind : c.findType? d.name with
  | some t =>
    simp only [hfind] at h
    exact Or.inl h
  | none =>
    simp only [hfind] at h ⊢
    rcases Nat.lt_or_ge i c.types.length with hi | hi
    · rw [List.getElem?_append_left hi] at h
      exact Or.inl h
    · have hlt := (List.getElem?_eq_some_iff.1 h).1
      rw [List.length_append, List.length_singleton] at hlt
      obtain rfl : i = c.types.length := by omega
      rw [List.getElem?_append_right (Nat.le_refl _), Nat.sub_self] at h
      exact Or.inr ⟨rfl, (Option.some.inj h).symm⟩

theorem vtable?_declareType (d : TypeDef) (t : TypeId) :
    (c.declareType d).2.vtable? t = c.vtable? t := by
  unfold declareType
  cases c.findType? d.name <;> rfl

/-- Declaring a type whose instances are held in place. -/
theorem WellDeclared.declareType (h : c.WellDeclared) {d : TypeDef}
    (hd : d.isHeldByReference = false) : (c.declareType d).2.WellDeclared where
  toRooted := h.toRooted.declareType d
  vtables := fun i e he hheld => by
    rw [vtable?_declareType]
    rcases getElem?_declareType he with he | ⟨-, rfl⟩
    · exact h.vtables i e he hheld
    · rw [hd] at hheld
      cases hheld

/-- Declaring a type whose instances are held by reference, with its virtual table. -/
theorem WellDeclared.declareType_addVtable (h : c.WellDeclared) (d : TypeDef)
    (arrayTypes : List (TypeId × TypeId)) :
    (addVtable { (c.declareType d).2 with arrayTypes } (c.declareType d).1).2.WellDeclared := by
  have hrooted : Rooted { (c.declareType d).2 with arrayTypes } :=
    (h.toRooted.declareType d).congr rfl rfl rfl rfl
  obtain ⟨vtables, descriptors, heq, hvtable⟩ :=
    addVtable_eq { (c.declareType d).2 with arrayTypes } (c.declareType d).1
  refine ⟨hrooted.addVtable _, fun i e he hheld => (hvtable _).2 ?_⟩
  rw [heq] at he
  rcases getElem?_declareType he with he | ⟨ht, -⟩
  · right
    have := h.vtables i e he hheld
    rw [← vtable?_declareType d] at this
    exact this
  · exact Or.inl ht.symm

/-! ## New fields -/

theorem map_modify_of_eq {α β : Type} {f : α → α} {g : α → β} (h : ∀ a, g (f a) = g a)
    (l : List α) (i : Nat) : (l.modify i f).map g = l.map g := by
  induction l generalizing i with
  | nil => rw [List.modify_nil]
  | cons a l ih =>
    cases i with
    | zero => rw [List.modify_zero_cons, List.map_cons, List.map_cons, h]
    | succ i => rw [List.modify_succ_cons, List.map_cons, List.map_cons, ih]

theorem WellDeclared.addField (h : c.WellDeclared) (owner : TypeId) (name : String)
    (offset : Nat) (type : TypeId) : (c.addField owner name offset type).2.WellDeclared where
  revisions := h.revisions
  types := by
    unfold Catalog.addField
    dsimp only
    rw [map_modify_of_eq]
    · exact h.types
    · exact fun _ => rfl
  fields := h.fields.trans (List.prefix_append _ _)
  names := by
    unfold Catalog.addField
    dsimp only
    rw [map_modify_of_eq]
    · exact h.names
    · exact fun _ => rfl
  vtables := fun i d hd hheld => by
    unfold Catalog.addField at hd
    dsimp only at hd
    rw [List.getElem?_modify] at hd
    obtain ⟨e, he, rfl⟩ := Option.map_eq_some_iff.1 hd
    refine h.vtables i e he ?_
    split at hheld <;> exact hheld

end

/-! ## The start -/

/-- Types with new virtual tables. -/
theorem foldl_addVtable (ts : List TypeId) {c : Catalog} (h : c.Rooted) :
    (ts.foldl (fun c t => (c.addVtable t).2) c).Rooted ∧
      (ts.foldl (fun c t => (c.addVtable t).2) c).types = c.types ∧
      ∀ u, u ∈ ts ∨ (c.vtable? u).isSome = true →
        ((ts.foldl (fun c t => (c.addVtable t).2) c).vtable? u).isSome = true := by
  induction ts generalizing c with
  | nil => exact ⟨h, rfl, fun u hu => hu.resolve_left List.not_mem_nil⟩
  | cons t ts ih =>
    obtain ⟨vtables, descriptors, heq, hvtable⟩ := c.addVtable_eq t
    obtain ⟨hrooted, htypes, hvtables⟩ := ih (h.addVtable t)
    refine ⟨hrooted, htypes.trans (by rw [heq]), fun u hu => hvtables u ?_⟩
    rw [hvtable]
    rcases hu with hu | hu
    · rcases List.mem_cons.1 hu with hu | hu
      · exact Or.inr (Or.inl hu)
      · exact Or.inl hu
    · exact Or.inr (Or.inr hu)

/-- The core types alone. -/
theorem rooted_core (p : Nat) :
    Rooted { pointerSize := p, types := Core.types p, fields := Core.fields p } where
  revisions := rfl
  types := List.prefix_refl _
  fields := List.prefix_refl _
  names := by
    have : ((Core.types p).map (·.name)).Nodup := by
      simp [Core.types, Core.scalarDef]
    exact this

theorem wellDeclared_new (p : Nat) : (Catalog.new p).WellDeclared := by
  obtain ⟨hrooted, htypes, hvtables⟩ :=
    foldl_addVtable [Core.object, Core.vtable, Core.array, Core.string] (rooted_core p)
  refine ⟨hrooted, fun i d hd hheld => hvtables _ (Or.inl ?_)⟩
  have htypes' : (Catalog.new p).types = Core.types p := htypes
  rw [htypes'] at hd
  have hi : i < 18 := (List.getElem?_eq_some_iff.1 hd).1
  revert hheld
  interval_cases i <;> obtain rfl := Option.some.inj hd <;>
    simp [TypeDef.isHeldByReference, Core.scalarDef, Core.object, Core.vtable, Core.array,
      Core.string]

/-- **What declarations cannot change.** -/
theorem Declared.wellDeclared {c : Catalog} (h : c.Declared) : c.WellDeclared := by
  induction h with
  | new p => exact wellDeclared_new p
  | addScalar _ name size signed ih => exact ih.declareType rfl
  | addValueType _ name size ih => exact ih.declareType rfl
  | @addClass c _ name base size ih => exact ih.declareType_addVtable _ _
  | @addArrayType c _ element ih =>
    unfold Catalog.addArrayType
    cases c.arrayTypes.lookup element with
    | some t => exact ih
    | none => exact ih.declareType_addVtable _ _
  | addField _ owner name offset type ih => exact ih.addField owner name offset type
  | addMethod _ d ih => exact ih.congr rfl rfl rfl rfl fun _ h => h
  | addDescriptor _ d ih => exact ih.congr rfl rfl rfl rfl fun _ h => h
  | updateDescriptor _ d change ih => exact ih.congr rfl rfl rfl rfl fun _ h => h
  | addCodePointer _ target ih => exact ih.congr rfl rfl rfl rfl fun _ h => h
  | @addVtable c _ t ih =>
    obtain ⟨vtables, descriptors, heq, hvtable⟩ := c.addVtable_eq t
    refine ih.congr ?_ ?_ ?_ ?_ fun u hu => (hvtable u).2 (Or.inr hu) <;> rw [heq]
  | setVtable _ t d ih =>
    exact ih.congr rfl rfl rfl rfl fun u hu => isSome_vtable?_setVtable.2 (Or.inr hu)

/-- A class whose instances refer to one another, with two instances that do: the first can be
written to, the second is read-only. -/
def pair : Catalog :=
  let node : TypeId := ⟨18⟩
  let next : FieldId := ⟨8⟩
  let c := ((new 4).addClass "Node" Core.object 12).2
  let c := (c.addField node "Next" 8 node).2
  let c := (c.addDescriptor (.object
    { context := node, isMutable := true, fields := [(next, .descriptor ⟨6⟩)] })).2
  (c.addDescriptor (.object
    { context := node, isMutable := false, fields := [(next, .descriptor ⟨5⟩)] })).2

theorem pair_declared : pair.Declared :=
  ((((Declared.new 4).addClass _ _ _).addField _ _ _ _).addDescriptor _).addDescriptor _

theorem pair_scoped : pair.Scoped := by decide +kernel

end Catalog

end DataImage
