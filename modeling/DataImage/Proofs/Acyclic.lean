import Mathlib.Data.Fintype.Card
import Mathlib.Data.List.Nodup
import Mathlib.Data.Set.Finite.List

/-!
# Acyclic relations

A relation without cycles that leads on from finitely many things only is well founded
(`wellFounded_of_acyclic`), and a way along it is not longer than there are such things
(`Trail.length_le`).
-/

namespace DataImage

variable {α : Type} {R : α → α → Prop} {known : List α}

/-- Things can be found by recursion on where they lead. -/
theorem wellFounded_of_acyclic (hknown : ∀ a b, R a b → a ∈ known)
    (h : ∀ a, ¬ Relation.TransGen R a a) : WellFounded fun b a => R a b := by
  let above (b a : {a // a ∈ known}) : Prop := Relation.TransGen R a.1 b.1
  have hfinite : Finite {a // a ∈ known} := (List.finite_toSet known).to_subtype
  have htrans : IsTrans _ above := ⟨fun _ _ _ hab hbc => Relation.TransGen.trans hbc hab⟩
  have hirrefl : Std.Irrefl above := ⟨fun a ha => h a.1 ha⟩
  -- on the known things the relation is part of a strict order, and from others it leads nowhere
  refine ⟨fun a => ⟨a, fun b hb => ?_⟩⟩
  by_cases hmem : b ∈ known
  · have hacc := (Finite.wellFounded_of_trans_of_irrefl above).apply ⟨b, hmem⟩
    generalize hsub : (⟨b, hmem⟩ : {a // a ∈ known}) = s at hacc
    induction hacc generalizing b a with
    | intro s _ ih =>
      subst hsub
      refine ⟨b, fun d hd => ?_⟩
      by_cases hmem' : d ∈ known
      · exact ih ⟨d, hmem'⟩ (Relation.TransGen.single hd) b d hd hmem' rfl
      · exact ⟨d, fun e he => absurd (hknown d e he) hmem'⟩
  · exact ⟨b, fun d hd => absurd (hknown b d hd) hmem⟩

/-- A well-founded relation has no cycles. -/
theorem acyclic_of_wellFounded (h : WellFounded fun b a => R a b) (a : α) :
    ¬ Relation.TransGen R a a := by
  have hirrefl := h.transGen.irrefl
  intro hcycle
  exact hirrefl.irrefl a (Relation.transGen_swap.1 hcycle)

/-- A relation along which a number gets smaller has no cycles. -/
theorem acyclic_of_rank (rank : α → Nat) (h : ∀ a b, R a b → rank b < rank a) (a : α) :
    ¬ Relation.TransGen R a a :=
  acyclic_of_wellFounded (Subrelation.wf (fun {b a} hab => h a b hab) (measure rank).wf) a

/-- What a way along a relation has passed before it came to a place. -/
structure Trail (R : α → α → Prop) (known path : List α) (a : α) : Prop where
  nodup : path.Nodup
  known : path ⊆ known
  ahead : ∀ b ∈ path, Relation.TransGen R b a

namespace Trail

variable {path : List α} {a b : α}

/-- A way starts anywhere. -/
theorem nil (R : α → α → Prop) (known : List α) (a : α) : Trail R known [] a :=
  ⟨List.nodup_nil, List.nil_subset _, List.forall_mem_nil _⟩

/-- A way goes on. Without cycles it does not come back. -/
theorem cons (h : Trail R known path a) (hacyclic : ∀ a, ¬ Relation.TransGen R a a)
    (ha : a ∈ known) (hab : R a b) : Trail R known (a :: path) b where
  nodup := List.nodup_cons.2 ⟨fun hmem => hacyclic a (h.ahead a hmem), h.nodup⟩
  known := List.cons_subset.2 ⟨ha, h.known⟩
  ahead := List.forall_mem_cons.2 ⟨.single hab, fun d hd => (h.ahead d hd).tail hab⟩

/-- **A way is not longer than there are things to pass.** -/
theorem length_le (h : Trail R known path a) : path.length ≤ known.length :=
  h.nodup.length_le_of_subset h.known

/-- Where a way can go on it has not passed everything. -/
theorem length_lt (h : Trail R known path a) (hacyclic : ∀ a, ¬ Relation.TransGen R a a)
    (ha : a ∈ known) : path.length < known.length := by
  have hnodup : (a :: path).Nodup :=
    List.nodup_cons.2 ⟨fun hmem => hacyclic a (h.ahead a hmem), h.nodup⟩
  exact hnodup.length_le_of_subset (List.cons_subset.2 ⟨ha, h.known⟩)

end Trail

end DataImage
