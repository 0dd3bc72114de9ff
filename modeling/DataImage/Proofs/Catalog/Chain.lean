import DataImage.Proofs.Catalog.Lineage

/-!
# Chains of classes

`Catalog.Chain` says that the bases of a class lead through classes up to the root. It is the
lineage of the class then (`Chain.lineage`), so the walk up from it finds the root and the classes
below (`Chain.ancestry_eq`).
-/

namespace DataImage.Catalog

variable {c : Catalog}

/-- The bases of a class lead up to the root, over the classes of the list, the topmost first. -/
inductive Chain (c : Catalog) : TypeId → List TypeId → Prop where
  | root : Chain c Core.object []
  | derived {t base : TypeId} {ts : List TypeId} (kind : (c.typeDef t).kind = .reference)
    (ne : t ≠ Core.object) (isBase : (c.typeDef t).base = some base) (above : Chain c base ts) :
    Chain c t (ts ++ [t])

namespace Chain

variable {t : TypeId} {ts : List TypeId}

theorem kind_eq (hc : c.Rooted) (h : c.Chain t ts) : (c.typeDef t).kind = .reference := by
  induction h with
  | root => exact hc.kind_object
  | derived kind _ _ _ => exact kind

theorem lineage (hc : c.Rooted) (h : c.Chain t ts) : c.Lineage t Core.object ts := by
  induction h with
  | root => exact .root hc.kind_object
  | derived kind ne isBase _ ih => exact .derived ⟨kind, ne, isBase⟩ ih

/-- **The walk up a chain.** -/
theorem ancestry_eq (hc : c.Rooted) (h : c.Chain t ts) :
    c.ancestry t = .ok { top := Core.object, below := ts } :=
  ancestry_eq_ok_iff.2 (h.lineage hc)

end Chain

theorem ancestry_of_valueType {t : TypeId} (h : (c.typeDef t).kind = .valueType) :
    c.ancestry t = .ok { top := t, below := [] } :=
  ancestry_eq_ok_iff.2 (.value h)

/-- An instance is laid out as a class or as a value type. -/
theorem kind_of_ancestry {t : TypeId} {a : Ancestry} (h : c.ancestry t = .ok a) :
    (c.typeDef t).kind = .reference ∨ (c.typeDef t).kind = .valueType := by
  obtain ⟨top, below⟩ := a
  cases ancestry_eq_ok_iff.1 h with
  | value kind => exact Or.inr kind
  | root kind => exact Or.inl kind
  | derived wraps _ => exact Or.inl wraps.1

end DataImage.Catalog
