import DataImage.Proofs.Acyclic
import DataImage.Proofs.Module.Merging

/-!
# Links between merged globals

A global that was merged away links to the one that took its place, and that one may have been
merged away later. Following links from a global is a loop without a counter. It ends, and at a live
global, as long as links lead to globals and close no loop (`Module.Resolvable.leads_resolve`). So
the bound on the steps in `Module.resolve` is no bound there (`Module.Resolvable.resolve_eq`).
-/

namespace DataImage.Module

variable {m : Module} {g h k : GlobalId}

/-- Whether a global is there and was not merged away. -/
def Live (m : Module) (g : GlobalId) : Prop :=
  g.index < m.globals.length ∧ (m.global g).mergedInto = none

instance (m : Module) (g : GlobalId) : Decidable (m.Live g) :=
  inferInstanceAs (Decidable (_ ∧ _))

/-- Whether a global was merged into another one. -/
def Linked (m : Module) (g h : GlobalId) : Prop := (m.global g).mergedInto = some h

/-- The loop that follows links from a global ends, and at which live global. -/
inductive Leads (m : Module) : GlobalId → GlobalId → Prop
  | live {g : GlobalId} (hlive : m.Live g) : Leads m g g
  | link {g h k : GlobalId} (hlink : m.Linked g h) (hrest : Leads m h k) : Leads m g k

/-- Whether links lead to globals and close no loop. -/
structure Resolvable (m : Module) : Prop where
  inside : ∀ g h, m.Linked g h → h.index < m.globals.length
  acyclic : ∀ g, ¬ Relation.TransGen m.Linked g g

/-- The positions of all globals. -/
def ids (m : Module) : List GlobalId := (List.range m.globals.length).map GlobalId.mk

theorem mem_ids : g ∈ m.ids ↔ g.index < m.globals.length := by
  simp only [ids, List.mem_map, List.mem_range]
  constructor
  · rintro ⟨i, hi, rfl⟩
    exact hi
  · intro hg
    exact ⟨g.index, hg, rfl⟩

@[simp] theorem length_ids : m.ids.length = m.globals.length := by simp [ids]

theorem Linked.lt (hlink : m.Linked g h) : g.index < m.globals.length := by
  by_contra hge
  rw [Linked, global_eq_default (Nat.le_of_not_lt hge)] at hlink
  cases hlink

theorem Live.not_linked (hlive : m.Live g) : ¬ m.Linked g h := by
  intro hlink
  rw [Linked, hlive.2] at hlink
  cases hlink

/-- Where links end there is no loop. -/
theorem Leads.not_loop (hlead : m.Leads g k) : ¬ Relation.TransGen m.Linked g g := by
  induction hlead with
  | live hlive =>
    intro hloop
    obtain ⟨h, hlink, -⟩ := Relation.TransGen.head'_iff.1 hloop
    exact hlive.not_linked hlink
  | @link g h k hlink _ ih =>
    intro hloop
    obtain ⟨h', hlink', hback⟩ := Relation.TransGen.head'_iff.1 hloop
    obtain rfl : h = h' := Option.some.inj (hlink.symm.trans hlink')
    exact ih (Relation.TransGen.tail' hback hlink)

/-- A module is resolvable if links end from every global on. -/
theorem Resolvable.of_leads (hinside : ∀ g h, m.Linked g h → h.index < m.globals.length)
    (hleads : ∀ g : GlobalId, g.index < m.globals.length → ∃ k, m.Leads g k) :
    m.Resolvable where
  inside := hinside
  acyclic := fun g hloop => by
    obtain ⟨h, hlink, -⟩ := Relation.TransGen.head'_iff.1 hloop
    obtain ⟨k, hlead⟩ := hleads g (Linked.lt hlink)
    exact hlead.not_loop hloop

/-- Steps suffice that are as many as the globals not passed yet. -/
theorem resolveWithin_eq_of_leads (hacyclic : ∀ g, ¬ Relation.TransGen m.Linked g g)
    (hlead : m.Leads g k) {path : List GlobalId} (htrail : Trail m.Linked m.ids path g)
    {steps : Nat} (hsteps : m.globals.length ≤ steps + path.length) :
    m.resolveWithin steps g = k := by
  induction hlead generalizing path steps with
  | live hlive =>
    cases steps with
    | zero => rfl
    | succ steps => rw [resolveWithin, hlive.2]
  | @link g h k hlink _ ih =>
    have hmem := mem_ids.2 hlink.lt
    have hlt := htrail.length_lt hacyclic hmem
    rw [length_ids] at hlt
    cases steps with
    | zero => omega
    | succ steps =>
      rw [resolveWithin, show (m.global g).mergedInto = some h from hlink]
      apply ih (htrail.cons hacyclic hmem hlink)
      rw [List.length_cons]
      omega

namespace Resolvable

variable (hm : m.Resolvable)

include hm

/-- **What links lead to is what a global resolves to.** -/
theorem resolve_eq (hlead : m.Leads g k) : m.resolve g = k :=
  resolveWithin_eq_of_leads hm.acyclic hlead (Trail.nil _ _ _) (Nat.le_add_right _ _)

/-- **The loop over links ends** at the live global that a global resolves to. -/
theorem leads_resolve (hg : g.index < m.globals.length) : m.Leads g (m.resolve g) := by
  have hwf := wellFounded_of_acyclic (fun g h hlink => mem_ids.2 (Linked.lt hlink)) hm.acyclic
  have hlead : ∃ k, m.Leads g k := by
    induction g using hwf.induction with
    | _ g ih =>
      cases hlink : (m.global g).mergedInto with
      | none => exact ⟨g, .live ⟨hg, hlink⟩⟩
      | some h =>
        obtain ⟨k, hk⟩ := ih h hlink (hm.inside g h hlink)
        exact ⟨k, .link hlink hk⟩
  obtain ⟨k, hk⟩ := hlead
  rwa [hm.resolve_eq hk]

end Resolvable

end DataImage.Module
