import DataImage.Module.Size

/-!
# Sizes without bounds

`DataLayout.sizeOf` is the size of a type as a number, however large. As long as it is a word of 64
bits it is the sum of the sizes of fields and the product of the size and the number of elements. An
element that is no word is not multiplied, so that the size is no word either. So the number is a
word if and only if all the words on the way to it are, and this is when the type has a size
(`DataLayout.sizeOf?_eq`).
-/

namespace DataImage

theorem word?_eq_some_iff {n k : Nat} : word? n = some k ↔ n = k ∧ n < UInt64.size := by
  unfold word?
  split
  · rename_i h
    simp [h]
  · rename_i h
    simp [h]

theorem word?_of_lt {n : Nat} (h : n < UInt64.size) : word? n = some n := if_pos h

theorem word?_of_le {n : Nat} (h : UInt64.size ≤ n) : word? n = none := if_neg (Nat.not_lt.2 h)

/-- The size of as many elements of one size. An element that is no word stands for all of them. -/
def elementsSize (size count : Nat) : Nat := if size < UInt64.size then size * count else size

theorem elementsSize_of_lt {size : Nat} (h : size < UInt64.size) (count : Nat) :
    elementsSize size count = size * count := if_pos h

/-- Elements of a known size. -/
theorem word?_bind_elements (size count : Nat) :
    ((word? size).bind fun n => word? (n * count)) = word? (elementsSize size count) := by
  rcases Nat.lt_or_ge size UInt64.size with h | h
  · rw [word?_of_lt h, Option.bind_some, elementsSize_of_lt h]
  · rw [word?_of_le h, Option.bind_none, elementsSize, if_neg (Nat.not_lt.2 h), word?_of_le h]

/-- Two sizes that are added. -/
theorem word?_bind_add (size rest : Nat) :
    ((word? size).bind fun n => (word? rest).bind fun r => word? (n + r)) =
      word? (size + rest) := by
  rcases Nat.lt_or_ge size UInt64.size with h | h
  · rw [word?_of_lt h, Option.bind_some]
    rcases Nat.lt_or_ge rest UInt64.size with h' | h'
    · rw [word?_of_lt h', Option.bind_some]
    · rw [word?_of_le h', Option.bind_none, word?_of_le (Nat.le_add_left_of_le h')]
  · rw [word?_of_le h, Option.bind_none, word?_of_le (Nat.le_add_right_of_le h)]

namespace DataLayout

mutual

/-- The size of a type, given the sizes of named structs. -/
def sizeWith (layout : DataLayout) (structSize : StructId → Nat) : Storage → Nat
  | .int bits => (bits + 7) / 8
  | .ptr => layout.pointerBytes
  | .struct id => structSize id
  | .anon fields => layout.sizesWith structSize fields
  | .array element count => elementsSize (layout.sizeWith structSize element) count

/-- The sum of the sizes of types, given the sizes of named structs. -/
def sizesWith (layout : DataLayout) (structSize : StructId → Nat) : List Storage → Nat
  | [] => 0
  | t :: ts => layout.sizeWith structSize t + layout.sizesWith structSize ts

end

/-- The size of a named struct whose fields nest at most `depth` structs deep. -/
def structSizeWithin (layout : DataLayout) (m : Module) : (depth : Nat) → StructId → Nat
  | 0, _ => 0
  | depth + 1, id => layout.sizesWith (layout.structSizeWithin m depth) (m.struct id).fields

/-- The size of a named struct. -/
def structSize (layout : DataLayout) (m : Module) (id : StructId) : Nat :=
  layout.structSizeWithin m m.structs.length id

/-- The size of a type in bytes, as a number. -/
def sizeOf (layout : DataLayout) (m : Module) (t : Storage) : Nat :=
  layout.sizeWith (layout.structSize m) t

variable {layout : DataLayout} {f : StructId → Option Nat} {g : StructId → Nat}

mutual

theorem sizeWith?_eq (h : ∀ id, f id = word? (g id)) : (t : Storage) →
    layout.sizeWith? f t = word? (layout.sizeWith g t)
  | .int _ | .ptr => rfl
  | .struct id => h id
  | .anon fields => sizesWith?_eq h fields
  | .array element count => by
    rw [sizeWith?, sizeWith, sizeWith?_eq h element]
    exact word?_bind_elements _ count

theorem sizesWith?_eq (h : ∀ id, f id = word? (g id)) : (ts : List Storage) →
    layout.sizesWith? f ts = word? (layout.sizesWith g ts)
  | [] => rfl
  | t :: ts => by
    rw [sizesWith?, sizesWith, sizeWith?_eq h t, sizesWith?_eq h ts]
    exact word?_bind_add _ _

end

theorem structSizeWithin?_eq (m : Module) (depth : Nat) (id : StructId) :
    layout.structSizeWithin? m depth id = word? (layout.structSizeWithin m depth id) := by
  induction depth generalizing id with
  | zero => rfl
  | succ depth ih => exact sizesWith?_eq ih _

/-- **A type has a size when the number is a word.** -/
theorem sizeOf?_eq (layout : DataLayout) (m : Module) (t : Storage) :
    layout.sizeOf? m t = word? (layout.sizeOf m t) :=
  sizeWith?_eq (structSizeWithin?_eq m m.structs.length) t

theorem sizeOf?_eq_some_iff {m : Module} {t : Storage} {n : Nat} :
    layout.sizeOf? m t = some n ↔ layout.sizeOf m t = n ∧ n < UInt64.size := by
  rw [sizeOf?_eq, word?_eq_some_iff]
  exact and_congr_right fun h => by rw [h]

end DataLayout

end DataImage
