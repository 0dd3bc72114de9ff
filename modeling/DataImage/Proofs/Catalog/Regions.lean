import DataImage.Catalog.Region

/-!
# Walking over regions

One step of the walk over the region of a type at a time: past the end there is nothing, a byte
without a field is padding, and a field is passed as a whole, unless it has no bytes or too many.
-/

namespace DataImage.Catalog

/-- Where the own region of a type starts. A class owns what lies behind its base. -/
def regionStart (c : Catalog) (t : TypeId) : Nat :=
  match (c.typeDef t).kind with
  | .reference => c.ownStart t
  | .scalar _ | .valueType | .array _ => 0

variable {c : Catalog} {t : TypeId} {offset : Nat}

theorem regionStart_of_valueType (h : (c.typeDef t).kind = .valueType) : c.regionStart t = 0 := by
  rw [regionStart, h]

theorem regionStart_of_base (h : (c.typeDef t).kind = .reference) {base : TypeId}
    (hbase : (c.typeDef t).base = some base) : c.regionStart t = (c.typeDef base).size := by
  rw [regionStart, h]
  dsimp only
  rw [ownStart, hbase]

/-- More steps than bytes are not needed. -/
theorem regionWithin_of_le {steps : Nat} (h : (c.typeDef t).size - offset ≤ steps) :
    c.regionWithin t steps offset = c.region t offset := by
  have enough : ∀ n steps offset, (c.typeDef t).size - offset ≤ n → n ≤ steps →
      c.regionWithin t steps offset = c.regionWithin t n offset := by
    intro n
    induction n with
    | zero =>
      intro steps offset hn _
      cases steps with
      | zero => rfl
      | succ steps =>
        have hdone : (c.typeDef t).size ≤ offset := by omega
        rw [regionWithin, regionWithin, if_pos hdone]
    | succ n ih =>
      intro steps offset hn hsteps
      obtain _ | steps := steps
      · omega
      · rw [regionWithin, regionWithin]
        split
        · rfl
        · split
          · rw [ih steps (offset + 1) (by omega) (by omega)]
          · dsimp only
            split
            · rfl
            · split
              · rfl
              · rw [ih steps _ (by omega) (by omega)]
  exact enough _ _ _ (Nat.le_refl _) h

theorem region_of_le (h : (c.typeDef t).size ≤ offset) : c.region t offset = [] := by
  rw [region, Nat.sub_eq_zero_of_le h, regionWithin]

theorem region_of_lt (h : offset < (c.typeDef t).size) :
    c.region t offset = match c.fieldAt? t offset with
      | none => .padding :: c.region t (offset + 1)
      | some f =>
        if c.holdingSize (c.field f).type = 0 then [.zeroSized offset]
        else if UInt32.size ≤ offset + c.holdingSize (c.field f).type then [.overflow offset]
        else .field f :: c.region t (offset + c.holdingSize (c.field f).type) := by
  obtain ⟨n, hn⟩ := Nat.exists_eq_add_of_lt h
  rw [region, show (c.typeDef t).size - offset = n + 1 by omega, regionWithin,
    if_neg (Nat.not_le.2 h)]
  cases c.fieldAt? t offset with
  | none =>
    dsimp only
    rw [regionWithin_of_le (by omega)]
  | some f =>
    dsimp only
    split
    · rfl
    · split
      · rfl
      · rw [regionWithin_of_le (by omega)]

theorem region_padding (h : offset < (c.typeDef t).size) (hf : c.fieldAt? t offset = none) :
    c.region t offset = .padding :: c.region t (offset + 1) := by
  rw [region_of_lt h, hf]

section

variable (h : offset < (c.typeDef t).size) {f : FieldId} (hf : c.fieldAt? t offset = some f)

include h hf

/-- A field with bytes is passed, or the walk ends there. -/
theorem region_of_field {size : Nat} (hsize : c.holdingSize (c.field f).type = size)
    (hne : size ≠ 0) :
    c.region t offset = if UInt32.size ≤ offset + size then [.overflow offset]
      else .field f :: c.region t (offset + size) := by
  rw [region_of_lt h, hf]
  dsimp only
  rw [hsize, if_neg hne]

theorem region_field {size : Nat} (hsize : c.holdingSize (c.field f).type = size)
    (hne : size ≠ 0) (hend : offset + size < UInt32.size) :
    c.region t offset = .field f :: c.region t (offset + size) := by
  rw [region_of_field h hf hsize hne, if_neg (Nat.not_le.2 hend)]

theorem region_zeroSized (hsize : c.holdingSize (c.field f).type = 0) :
    c.region t offset = [.zeroSized offset] := by
  rw [region_of_lt h, hf]
  exact if_pos hsize

theorem region_overflow (hsize : c.holdingSize (c.field f).type ≠ 0)
    (hend : UInt32.size ≤ offset + c.holdingSize (c.field f).type) :
    c.region t offset = [.overflow offset] := by
  rw [region_of_field h hf rfl hsize, if_pos hend]

end

/-- The walk over a region follows its parts. -/
theorem region_induction {P : Nat → List Part → Prop}
    (done : ∀ offset, (c.typeDef t).size ≤ offset → P offset [])
    (padding : ∀ offset, offset < (c.typeDef t).size → c.fieldAt? t offset = none →
      P (offset + 1) (c.region t (offset + 1)) →
      P offset (.padding :: c.region t (offset + 1)))
    (field : ∀ offset f, offset < (c.typeDef t).size → c.fieldAt? t offset = some f →
      c.holdingSize (c.field f).type ≠ 0 →
      offset + c.holdingSize (c.field f).type < UInt32.size →
      P (offset + c.holdingSize (c.field f).type)
        (c.region t (offset + c.holdingSize (c.field f).type)) →
      P offset (.field f :: c.region t (offset + c.holdingSize (c.field f).type)))
    (zeroSized : ∀ offset f, offset < (c.typeDef t).size → c.fieldAt? t offset = some f →
      c.holdingSize (c.field f).type = 0 → P offset [.zeroSized offset])
    (overflow : ∀ offset f, offset < (c.typeDef t).size → c.fieldAt? t offset = some f →
      UInt32.size ≤ offset + c.holdingSize (c.field f).type → P offset [.overflow offset])
    (offset : Nat) : P offset (c.region t offset) := by
  induction hn : (c.typeDef t).size - offset using Nat.strongRecOn generalizing offset with
  | ind n ih =>
    rcases Nat.lt_or_ge offset (c.typeDef t).size with h | h
    · cases hf : c.fieldAt? t offset with
      | none =>
        rw [region_padding h hf]
        exact padding offset h hf (ih _ (by omega) (offset + 1) rfl)
      | some f =>
        by_cases hsize : c.holdingSize (c.field f).type = 0
        · rw [region_zeroSized h hf hsize]
          exact zeroSized offset f h hf hsize
        · rcases Nat.lt_or_ge (offset + c.holdingSize (c.field f).type) UInt32.size with hend | hend
          · rw [region_field h hf rfl hsize hend]
            exact field offset f h hf hsize hend (ih _ (by omega) _ rfl)
          · rw [region_overflow h hf hsize hend]
            exact overflow offset f h hf hend
    · rw [region_of_le h]
      exact done offset h

/-- The walk comes by nothing but padding where there are no fields. -/
theorem eq_padding_of_mem_region (h : ∀ offset, c.fieldAt? t offset = none) {p : Part}
    (hp : p ∈ c.region t offset) : p = .padding := by
  refine c.region_induction (t := t) (P := fun _ parts => p ∈ parts → p = .padding)
    (fun _ _ hp => ?_) (fun _ _ _ ih hp => ?_) (fun _ _ _ hf => ?_) (fun _ _ _ hf => ?_)
    (fun _ _ _ hf => ?_) offset hp
  · exact absurd hp List.not_mem_nil
  · exact (List.mem_cons.1 hp).elim id ih
  all_goals
    rw [h] at hf
    cases hf

end DataImage.Catalog
