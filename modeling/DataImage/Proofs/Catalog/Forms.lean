import DataImage.Proofs.Catalog.Value

/-!
# What contents look like

The form of the contents of a value, read off the functions that give them: one equivalence for each
of the functions of the catalog on which the contents of a value are put together.
-/

namespace DataImage.Catalog

open Value (referencesAll)

variable {c : Catalog} {part : DescriptorId → Option Value}

theorem zero?_eq_some_iff {t : TypeId} {v : Value} :
    c.zero? t = some v ↔ c.Stored t ∧ v = .zeroed (c.shapeOf t) := by
  unfold zero?
  split <;> simp_all [eq_comm]

theorem instance?_eq_some_iff {t : TypeId} {fields : List Value} {v : Value} :
    c.instance? t fields = some v ↔ c.Laid t ∧ v = .named t fields := by
  unfold instance?
  split <;> simp_all [eq_comm]

/-- An integer has a width that can be encoded, and a zero is zeroed memory. -/
theorem scalar?_eq_some_iff {t : TypeId} {raw : UInt64} {v : Value} :
    c.scalar? t raw = some v ↔
      ((c.typeDef t).isScalar = true → (c.typeDef t).size ≠ 0 ∧ (c.typeDef t).size ≤ 8) ∧
      (raw = 0 ∧ c.Stored t ∧ v = .zeroed (c.shapeOf t) ∨
        raw ≠ 0 ∧ c.FitsWidth t ∧ c.Laid t ∧ v = .named t [.int ((c.typeDef t).size * 8)
          (Bits.lowBits raw ((c.typeDef t).size * 8)) (c.typeDef t).isSigned]) := by
  unfold scalar?
  dsimp only
  split
  · rename_i hwidth
    simp only [Bool.and_eq_true, Bool.or_eq_true, decide_eq_true_eq] at hwidth
    constructor
    · intro h
      cases h
    · rintro ⟨hsize, -⟩
      have := hsize hwidth.1
      omega
  · rename_i hwidth
    have hsize : (c.typeDef t).isScalar = true →
        (c.typeDef t).size ≠ 0 ∧ (c.typeDef t).size ≤ 8 := by
      intro hscalar
      simp only [hscalar, Bool.true_and, Bool.or_eq_true, decide_eq_true_eq] at hwidth
      omega
    split
    · rename_i hraw
      rw [zero?_eq_some_iff]
      exact ⟨fun h => ⟨hsize, Or.inl ⟨hraw, h⟩⟩, fun h => by
        rcases h.2 with h | h
        · exact h.2
        · exact absurd hraw h.1⟩
    · rename_i hraw
      rw [Option.ite_none_right_eq_some, instance?_eq_some_iff]
      exact ⟨fun h => ⟨hsize, Or.inr ⟨hraw, h⟩⟩, fun h => by
        rcases h.2 with h | h
        · exact absurd h.1 hraw
        · exact h.2⟩

theorem code?_eq_some_iff {t : TypeId} {p : CodePointerId} {v : Value} :
    c.code? t p = some v ↔ ∃ m, c.codePointer? p = some (.method m) ∧ c.Declarable m ∧
      c.Laid t ∧ v = .named t [.function m] := by
  unfold code?
  cases c.codePointer? p with
  | none => simp
  | some target =>
    cases target with
    | handler name => simp
    | method m =>
      by_cases hm : c.Declarable m <;> simp [hm, instance?_eq_some_iff]

/-- The header of an instance: a flag word and the virtual table, inside the root class. -/
theorem header?_eq_some_iff {context : TypeId} {isMutable : Bool} {v : Value} :
    c.header? context isMutable = some v ↔
      ∃ vtable word, c.vtable? context = some vtable ∧
        c.scalar? (c.field Core.multiUseWord).type (flagWord isMutable) = some word ∧
        c.Laid Core.objectHeader ∧ c.Laid Core.object ∧
        v = .named Core.object [.named Core.objectHeader [word, .reference vtable]] := by
  unfold header?
  simp only [Option.bind_eq_some_iff, instance?_eq_some_iff]
  constructor
  · rintro ⟨vtable, hvtable, word, hword, header, ⟨hheader, rfl⟩, hobject, rfl⟩
    exact ⟨vtable, word, hvtable, hword, hheader, hobject, rfl⟩
  · rintro ⟨vtable, word, hvtable, hword, hheader, hobject, rfl⟩
    exact ⟨vtable, hvtable, word, hword, _, ⟨hheader, rfl⟩, hobject, rfl⟩

theorem characters?_eq_some_iff {o : ObjectValue} {v : Value} :
    c.characters? o = some v ↔ c.Stored (c.field Core.firstChar).type ∧
      ∃ units, ((Text.utf16 (o.source.getD "")).mapM fun unit =>
          c.scalar? (c.field Core.firstChar).type unit.toUInt64) = some units ∧
        v = .array (c.shapeOf (c.field Core.firstChar).type) units := by
  unfold characters?
  dsimp only
  split
  · rename_i hstored
    simp only [hstored, true_and, Option.map_eq_some_iff, eq_comm (a := v)]
  · rename_i hstored
    simp [hstored]

/-- The instance of a class: the instance of its base, its own fields, and the characters of a
string. -/
theorem class?_eq_some_iff {o : ObjectValue} {base v : Value} {t : TypeId} :
    c.class? part o base t = some v ↔
      ∃ own, c.regionValues? part o t (c.ownStart t) = some own ∧
        (t = Core.string ∧ (∃ chars, c.characters? o = some chars ∧
            v = .anon (base :: own ++ [chars])) ∨
          t ≠ Core.string ∧ c.Laid t ∧ v = .named t (base :: own)) := by
  unfold class?
  rw [Option.bind_eq_some_iff]
  refine exists_congr fun own => and_congr_right fun _ => ?_
  by_cases ht : t = Core.string
  · simp only [ht, if_true, Option.map_eq_some_iff, eq_comm (a := v), true_and, ne_eq,
      not_true_eq_false, false_and, or_false]
  · simp [ht, instance?_eq_some_iff]

theorem top?_eq_some_iff {o : ObjectValue} {v : Value} {t : TypeId} :
    c.top? part o t = some v ↔
      t = Core.object ∧ c.header? o.context o.isMutable = some v ∨
        t ≠ Core.object ∧ c.Laid t ∧
          ∃ fields, c.regionValues? part o t 0 = some fields ∧ v = .named t fields := by
  unfold top?
  by_cases ht : t = Core.object
  · simp [ht]
  · rw [if_neg ht]
    simp only [Option.bind_eq_some_iff, instance?_eq_some_iff]
    constructor
    · rintro ⟨fields, hfields, hlaid, rfl⟩
      exact Or.inr ⟨ht, hlaid, fields, hfields, rfl⟩
    · rintro (⟨h, -⟩ | ⟨-, hlaid, fields, hfields, rfl⟩)
      · exact absurd h ht
      · exact ⟨fields, hfields, hlaid, rfl⟩

theorem object?_eq_some_iff {o : ObjectValue} {v : Value} {t : TypeId} :
    c.object? part o t = some v ↔ ∃ a top, c.ancestry t = .ok a ∧
      c.top? part o a.top = some top ∧ a.below.foldlM (c.class? part o) top = some v := by
  unfold object?
  cases c.ancestry t with
  | error e => simp
  | ok a => simp [Option.bind_eq_some_iff]

theorem elements?_eq_some_iff {a : ArrayValue} {element : TypeId} {vs : List Value} :
    c.elements? part a element = some vs ↔
      (∃ values, a.values = some values ∧ values.length = a.length ∧
        values.mapM (c.payload? part element) = some vs) ∨
      a.values = none ∧ (a.source.getD []).length = a.length ∧
        (a.source.getD [] = [] ∨ (c.typeDef element).isScalar = true) ∧
        (a.source.getD []).mapM (c.scalar? element) = some vs := by
  unfold elements?
  cases a.values with
  | none => simp [and_assoc]
  | some values => simp

theorem arrayBase?_eq_some_iff {a : ArrayValue} {v : Value} :
    c.arrayBase? a = some v ↔ ∃ header length,
      c.header? a.context a.isMutable = some header ∧
      c.scalar? (c.field Core.arrayLength).type (UInt64.ofNat a.length) = some length ∧
      c.Laid Core.array ∧ v = .named Core.array [header, length] := by
  unfold arrayBase?
  simp only [Option.bind_eq_some_iff, instance?_eq_some_iff]
  constructor
  · rintro ⟨header, hheader, length, hlength, hlaid, rfl⟩
    exact ⟨header, length, hheader, hlength, hlaid, rfl⟩
  · rintro ⟨header, length, hheader, hlength, hlaid, rfl⟩
    exact ⟨header, hheader, length, hlength, hlaid, rfl⟩

theorem array?_eq_some_iff {a : ArrayValue} {v : Value} :
    c.array? part a = some v ↔ ∃ element base elements,
      (c.typeDef a.context).kind = .array element ∧ c.arrayBase? a = some base ∧
      c.elements? part a element = some elements ∧ c.Stored element ∧
      v = .anon [base, .array (c.shapeOf element) elements] := by
  unfold array?
  cases hkind : (c.typeDef a.context).kind with
  | array element =>
    simp only [Option.bind_eq_some_iff, TypeKind.array.injEq]
    constructor
    · rintro ⟨base, hbase, elements, helements, h⟩
      split at h
      · rename_i hstored
        exact ⟨element, base, elements, rfl, hbase, helements, hstored, (Option.some.inj h).symm⟩
      · cases h
    · rintro ⟨element', base, elements, rfl, hbase, helements, hstored, rfl⟩
      exact ⟨base, hbase, elements, helements, if_pos hstored⟩
  | _ => simp

end DataImage.Catalog
