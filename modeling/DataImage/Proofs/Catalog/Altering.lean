import DataImage.Proofs.Catalog.Growing

/-!
# Catalogs that are filled

To fill values is to declare nothing: some values change and code pointers are added, and all else
stays (`Catalog.Alters`). So whatever is looked up by name is what it was before, and virtual tables
stay as they were made.
-/

namespace DataImage.Catalog

variable {c c' c'' : Catalog} {T T' : DescriptorId → Prop} {δ : DescriptorId}

/-- What filling values changes: some of the values, and code pointers are added. -/
structure Alters (c : Catalog) (T : DescriptorId → Prop) (c' : Catalog) : Prop where
  same : ∃ descriptors codePointers, c' = { c with descriptors, codePointers }
  length : c'.descriptors.length = c.descriptors.length
  codePointers : c.codePointers <+: c'.codePointers
  others : ∀ δ, ¬ T δ → c'.descriptor? δ = c.descriptor? δ
  tabled : c.Tabled → c'.Tabled

namespace Alters

protected theorem refl (c : Catalog) (T : DescriptorId → Prop) : c.Alters T c :=
  ⟨⟨c.descriptors, c.codePointers, rfl⟩, rfl, List.prefix_rfl, fun _ _ => rfl, fun h => h⟩

protected theorem trans (h : c.Alters T c') (h' : c'.Alters T' c'')
    (hT : ∀ δ, T' δ → T δ) : c.Alters T c'' where
  same := by
    obtain ⟨ds, ps, rfl⟩ := h.same
    obtain ⟨ds', ps', rfl⟩ := h'.same
    exact ⟨ds', ps', rfl⟩
  length := h'.length.trans h.length
  codePointers := h.codePointers.trans h'.codePointers
  others := fun δ hδ => (h'.others δ fun hδ' => hδ (hT δ hδ')).trans (h.others δ hδ)
  tabled := fun ht => h'.tabled (h.tabled ht)

theorem mono (h : c.Alters T c') (hT : ∀ δ, T δ → T' δ) : c.Alters T' c' :=
  { h with others := fun δ hδ => h.others δ fun hδ' => hδ (hT δ hδ') }

section

variable (h : c.Alters T c')

include h

theorem findType? (n : String) : c'.findType? n = c.findType? n := by
  obtain ⟨ds, ps, rfl⟩ := h.same
  rfl

theorem findMethod? (n : String) : c'.findMethod? n = c.findMethod? n := by
  obtain ⟨ds, ps, rfl⟩ := h.same
  rfl

theorem vtable? (t : TypeId) : c'.vtable? t = c.vtable? t := by
  obtain ⟨ds, ps, rfl⟩ := h.same
  rfl

theorem findField? (t : TypeId) (n : String) : c'.findField? t n = c.findField? t n := by
  obtain ⟨ds, ps, rfl⟩ := h.same
  have within : ∀ steps, findFieldWithin { c with descriptors := ds, codePointers := ps } n
      steps = c.findFieldWithin n steps := by
    intro steps
    induction steps with
    | zero => rfl
    | succ steps ih =>
      funext t
      rw [findFieldWithin, findFieldWithin, ih]
      rfl
  exact congrFun (within _) t

theorem typeName (t : TypeId) : c'.typeName t = c.typeName t := by
  obtain ⟨ds, ps, rfl⟩ := h.same
  rfl

theorem isTable_iff : c'.IsTable δ ↔ c.IsTable δ := by
  obtain ⟨ds, ps, rfl⟩ := h.same
  rfl

theorem codePointer? {id : CodePointerId} {target : CodeTarget}
    (hid : c.codePointer? id = some target) : c'.codePointer? id = some target :=
  Partial.getElem?_of_prefix h.codePointers hid

end

/-- Changing a value that is no virtual table. -/
theorem updateDescriptor (hδ : ¬ c.IsTable δ) (change : Descriptor → Descriptor) :
    c.Alters (· = δ) (c.updateDescriptor δ change) where
  same := ⟨_, c.codePointers, rfl⟩
  length := List.length_modify ..
  codePointers := List.prefix_rfl
  others := fun δ' hne => by
    have hindex : δ.index ≠ δ'.index := fun heq =>
      hne (by cases δ; cases δ'; exact congrArg _ heq.symm)
    rw [descriptor?, descriptor?, Catalog.updateDescriptor, List.getElem?_modify]
    cases c.descriptors[δ'.index]? with
    | none => rfl
    | some v => simp [hindex]
  tabled := fun h => h.updateDescriptor δ change fun t ht => hδ ⟨t, ht⟩

theorem addCodePointer (target : CodeTarget) :
    c.Alters (fun _ => False) (c.addCodePointer target).2 where
  same := ⟨c.descriptors, _, rfl⟩
  length := rfl
  codePointers := List.prefix_append _ _
  others := fun _ _ => rfl
  tabled := fun h => h.addCodePointer target

end Alters

theorem descriptor?_updateDescriptor {v : Descriptor} (hv : c.descriptor? δ = some v)
    (change : Descriptor → Descriptor) :
    (c.updateDescriptor δ change).descriptor? δ = some (change v) := by
  rw [descriptor?] at hv
  rw [descriptor?, updateDescriptor, List.getElem?_modify, hv]
  simp

theorem contextOf_eq {v : Descriptor} (hv : c.descriptor? δ = some v) :
    c.contextOf δ = v.context := by
  rw [descriptor?] at hv
  rw [contextOf, List.getD_eq_getElem?_getD, hv, Option.getD_some]

end DataImage.Catalog
