import DataImage.Proofs.Catalog.CoreTypes

/-!
# Lineages

An instance of a class is laid out around an instance of its base, up to the root class or to a
value type (`Catalog.Wraps`). `Catalog.Lineage` is what the walk up from a type finds, by recursion
on the bases. No type comes up twice in a lineage (`Lineage.nodup`), so the steps of the walk
suffice, and **the walk finds the lineage of a type if it has one** (`ancestry_eq_ok_iff`). Hence
the walk from a class passes the walk from its base (`Wraps.ancestry_eq_ok_iff`).
-/

namespace DataImage.Catalog

variable {c : Catalog}

/-- Whether an instance of a class is laid out around an instance of another type, its base. -/
def Wraps (c : Catalog) (t base : TypeId) : Prop :=
  (c.typeDef t).kind = .reference ∧ t ≠ Core.object ∧ (c.typeDef t).base = some base

instance (t base : TypeId) : Decidable (c.Wraps t base) :=
  inferInstanceAs (Decidable ((c.typeDef t).kind = .reference ∧ t ≠ Core.object ∧
    (c.typeDef t).base = some base))

/-- The bases of a type lead up to `top`, over the classes of the list, the topmost first. -/
inductive Lineage (c : Catalog) : (t top : TypeId) → (below : List TypeId) → Prop where
  | value {t : TypeId} (kind : (c.typeDef t).kind = .valueType) : Lineage c t t []
  | root (kind : (c.typeDef Core.object).kind = .reference) :
    Lineage c Core.object Core.object []
  | derived {t base top : TypeId} {ts : List TypeId} (wraps : c.Wraps t base)
    (above : Lineage c base top ts) : Lineage c t top (ts ++ [t])

namespace Wraps

variable {t base base' : TypeId}

theorem base_unique (h : c.Wraps t base) (h' : c.Wraps t base') : base = base' :=
  Option.some.inj (h.2.2.symm.trans h'.2.2)

theorem kind_ne_valueType (h : c.Wraps t base) : (c.typeDef t).kind ≠ .valueType := by
  rw [h.1]
  exact TypeKind.noConfusion

end Wraps

namespace Lineage

variable {t top top' : TypeId} {ts ts' : List TypeId}

theorem unique (h : c.Lineage t top ts) (h' : c.Lineage t top' ts') : top = top' ∧ ts = ts' := by
  induction h generalizing ts' with
  | value kind =>
    cases h' with
    | value _ => exact ⟨rfl, rfl⟩
    | root kind' => rw [kind] at kind'; cases kind'
    | derived wraps _ => exact absurd kind wraps.kind_ne_valueType
  | root kind =>
    cases h' with
    | value kind' => rw [kind] at kind'; cases kind'
    | root _ => exact ⟨rfl, rfl⟩
    | derived wraps _ => exact absurd rfl wraps.2.1
  | derived wraps _ ih =>
    cases h' with
    | value kind => exact absurd kind wraps.kind_ne_valueType
    | root _ => exact absurd rfl wraps.2.1
    | derived wraps' above' =>
      obtain rfl := wraps.base_unique wraps'
      obtain ⟨htop, rfl⟩ := ih above'
      exact ⟨htop, rfl⟩

theorem of_mem (h : c.Lineage t top ts) {u : TypeId} (hu : u ∈ ts) :
    ∃ us, us <+: ts ∧ c.Lineage u top us := by
  induction h with
  | value _ => exact absurd hu List.not_mem_nil
  | root _ => exact absurd hu List.not_mem_nil
  | @derived t base top ts wraps above ih =>
    rcases List.mem_append.1 hu with hu | hu
    · obtain ⟨us, hus, hline⟩ := ih hu
      exact ⟨us, hus.trans (List.prefix_append _ _), hline⟩
    · obtain rfl := List.mem_singleton.1 hu
      exact ⟨ts ++ [u], List.prefix_refl _, .derived wraps above⟩

/-- A type is the last of its lineage. -/
theorem mem_self (h : c.Lineage t top ts) : t ∈ top :: ts := by
  cases h with
  | value _ => exact List.mem_cons_self
  | root _ => exact List.mem_cons_self
  | derived _ _ => simp

theorem wraps_of_mem (h : c.Lineage t top ts) {u : TypeId} (hu : u ∈ ts) :
    ∃ base, c.Wraps u base := by
  induction h with
  | value _ => exact absurd hu List.not_mem_nil
  | root _ => exact absurd hu List.not_mem_nil
  | @derived t base top ts wraps above ih =>
    rcases List.mem_append.1 hu with hu | hu
    · exact ih hu
    · exact ⟨base, List.mem_singleton.1 hu ▸ wraps⟩

/-- The top is the root class or a value type. -/
theorem kind_top (h : c.Lineage t top ts) (hne : top ≠ Core.object) :
    (c.typeDef top).kind = .valueType := by
  induction h with
  | value kind => exact kind
  | root _ => exact absurd rfl hne
  | derived _ _ ih => exact ih hne

/-- The top has no base to look at. -/
theorem top_not_wraps (h : c.Lineage t top ts) (base : TypeId) : ¬ c.Wraps top base := by
  induction h with
  | value kind => exact fun wraps => wraps.kind_ne_valueType kind
  | root _ => exact fun wraps => wraps.2.1 rfl
  | derived _ _ ih => exact ih

/-- **No type comes up twice.** -/
theorem nodup (h : c.Lineage t top ts) : (top :: ts).Nodup := by
  refine List.nodup_cons.2 ⟨fun hmem => ?_, ?_⟩
  · obtain ⟨base, wraps⟩ := h.wraps_of_mem hmem
    exact h.top_not_wraps base wraps
  · induction h with
    | value _ => exact List.nodup_nil
    | root _ => exact List.nodup_nil
    | @derived t base top ts wraps above ih =>
      refine List.nodup_append.2 ⟨ih, List.nodup_singleton t, fun u hu u' hu' heq => ?_⟩
      obtain rfl := List.mem_singleton.1 hu'
      rw [heq] at hu
      -- the lineage of `t` would be a part of that of its base
      obtain ⟨us, hus, hline⟩ := above.of_mem hu
      have hlen := hus.length_le
      rw [(hline.unique (.derived wraps above)).2, List.length_append,
        List.length_singleton] at hlen
      omega

theorem top_mem_knownTypes (h : c.Lineage t top ts) : top ∈ c.knownTypes := by
  by_contra hunknown
  have hdef := typeDef_of_notMem_knownTypes hunknown
  induction h with
  | value kind => rw [hdef] at kind; cases kind
  | root kind => rw [hdef] at kind; cases kind
  | derived _ _ ih => exact ih hunknown hdef

theorem length_lt (h : c.Lineage t top ts) : ts.length < c.typeCount := by
  rw [← length_knownTypes]
  refine h.nodup.length_le_of_subset fun u hu => ?_
  rcases List.mem_cons.1 hu with rfl | hu
  · exact h.top_mem_knownTypes
  · by_contra hunknown
    obtain ⟨base, hkind, -⟩ := h.wraps_of_mem hu
    rw [typeDef_of_notMem_knownTypes hunknown] at hkind
    cases hkind

/-- The walk up a lineage, with enough steps and behind classes that are not on it. -/
theorem ancestryWithin_eq (h : c.Lineage t top ts) {steps : Nat} (hsteps : ts.length < steps)
    {below : List TypeId} (hbelow : ∀ u ∈ top :: ts, u ∉ below) :
    c.ancestryWithin steps below t = .ok { top, below := ts ++ below } := by
  induction h generalizing steps below with
  | value kind =>
    obtain ⟨steps, rfl⟩ := Nat.exists_eq_succ_of_ne_zero (Nat.ne_zero_of_lt hsteps)
    rw [ancestryWithin]
    simp only [kind, List.nil_append]
  | root kind =>
    obtain ⟨steps, rfl⟩ := Nat.exists_eq_succ_of_ne_zero (Nat.ne_zero_of_lt hsteps)
    rw [ancestryWithin]
    simp only [kind, if_true, List.nil_append]
  | @derived t base top ts wraps above ih =>
    obtain ⟨steps, rfl⟩ := Nat.exists_eq_succ_of_ne_zero (Nat.ne_zero_of_lt hsteps)
    rw [List.length_append, List.length_singleton] at hsteps
    have hnodup := (Lineage.derived wraps above).nodup
    rw [← List.cons_append, List.nodup_append] at hnodup
    have hnew : ∀ u ∈ top :: ts, u ∉ t :: below := by
      intro u hu hmem
      rcases List.mem_cons.1 hmem with rfl | hmem
      · exact hnodup.2.2 u hu u (List.mem_singleton.2 rfl) rfl
      · exact hbelow u (List.mem_append_left [t] hu) hmem
    rw [ancestryWithin]
    simp only [wraps.1, if_neg wraps.2.1, wraps.2.2, if_neg (hnew base above.mem_self)]
    rw [ih (by omega) hnew, List.append_assoc, List.singleton_append]

end Lineage

/-- What the walk finds is a lineage, in front of the classes that were passed before. -/
theorem lineage_of_ancestryWithin {steps : Nat} {below : List TypeId} {t : TypeId} {a : Ancestry}
    (h : c.ancestryWithin steps below t = .ok a) :
    ∃ ts, a.below = ts ++ below ∧ c.Lineage t a.top ts := by
  induction steps generalizing below t with
  | zero => cases h
  | succ steps ih =>
    rw [ancestryWithin] at h
    cases hkind : (c.typeDef t).kind with
    | scalar signed => simp only [hkind] at h; cases h
    | array element => simp only [hkind] at h; cases h
    | valueType =>
      simp only [hkind] at h
      obtain rfl := Except.ok.inj h
      exact ⟨[], rfl, .value hkind⟩
    | reference =>
      simp only [hkind] at h
      by_cases hobject : t = Core.object
      · rw [if_pos hobject] at h
        obtain rfl := Except.ok.inj h
        exact ⟨[], rfl, hobject ▸ .root (hobject ▸ hkind)⟩
      · rw [if_neg hobject] at h
        cases hbase : (c.typeDef t).base with
        | none => rw [hbase] at h; cases h
        | some base =>
          simp only [hbase] at h
          by_cases hseen : base ∈ t :: below
          · rw [if_pos hseen] at h; cases h
          · rw [if_neg hseen] at h
            obtain ⟨ts, hbelow, hline⟩ := ih h
            exact ⟨ts ++ [t], by rw [hbelow, List.append_assoc, List.singleton_append],
              .derived ⟨hkind, hobject, hbase⟩ hline⟩

/-- **The walk up from a type** finds its lineage, and fails if there is none. -/
theorem ancestry_eq_ok_iff {t : TypeId} {a : Ancestry} :
    c.ancestry t = .ok a ↔ c.Lineage t a.top a.below := by
  constructor
  · intro h
    obtain ⟨ts, hbelow, hline⟩ := lineage_of_ancestryWithin h
    rwa [hbelow, List.append_nil]
  · intro h
    rw [ancestry, h.ancestryWithin_eq (Nat.lt_succ_of_lt h.length_lt)
      fun _ _ => List.not_mem_nil, List.append_nil]

/-- The walk from a class passes the walk from its base. -/
theorem Wraps.ancestry_eq_ok_iff {t base : TypeId} (h : c.Wraps t base) {a : Ancestry} :
    c.ancestry t = .ok a ↔
      ∃ b, c.ancestry base = .ok b ∧ a = { top := b.top, below := b.below ++ [t] } := by
  rw [Catalog.ancestry_eq_ok_iff]
  constructor
  · obtain ⟨top, below⟩ := a
    intro hline
    cases hline with
    | value kind => exact absurd kind h.kind_ne_valueType
    | root _ => exact absurd rfl h.2.1
    | @derived _ base' _ ts wraps above =>
      obtain rfl := h.base_unique wraps
      exact ⟨⟨top, ts⟩, Catalog.ancestry_eq_ok_iff.2 above, rfl⟩
  · rintro ⟨b, hb, rfl⟩
    exact .derived h (Catalog.ancestry_eq_ok_iff.1 hb)

/-- A class that is laid out is laid out around its base, unless it is the root. -/
theorem exists_wraps_of_ancestry {t : TypeId} {a : Ancestry} (h : c.ancestry t = .ok a)
    (kind : (c.typeDef t).kind = .reference) (ne : t ≠ Core.object) :
    ∃ base, c.Wraps t base := by
  obtain ⟨top, below⟩ := a
  cases ancestry_eq_ok_iff.1 h with
  | value kind' => rw [kind] at kind'; cases kind'
  | root _ => exact absurd rfl ne
  | derived wraps _ => exact ⟨_, wraps⟩

end DataImage.Catalog
