import DataImage.Catalog.Region
import DataImage.Proofs.Module.Sizes
import DataImage.Proofs.Partial

/-!
# Layouts before they have positions

What the struct of a declared type looks like is fixed by the catalog alone; only the position that
the struct gets in a module depends on what was laid out before. A `Shape` is a storage type in
which structs are named by declared types.

* `Catalog.body?` lists the shapes of the fields of a type's struct, if the type has one.
* `Catalog.layoutSize?` is the packed size of the struct; it exists when all layouts inside do, to
  any depth (`Catalog.layoutSize?_eq`), and then the type is `Catalog.Laid`.
-/

namespace DataImage

/-- A storage type with structs named by declared types. -/
inductive Shape where
  /-- An integer of the given width in bits. -/
  | int (bits : Nat)
  /-- An address. -/
  | ptr
  /-- The struct of a declared type. -/
  | layout (t : TypeId)
  /-- Elements of one shape, one after the other. -/
  | array (element : Shape) (count : Nat)
deriving DecidableEq, Repr, Inhabited

namespace Shape

/-- The types whose struct occurs. -/
def layouts : Shape → List TypeId
  | .int _ | .ptr => []
  | .layout t => [t]
  | .array element _ => element.layouts

/-- The packed size for pointers of `p` bytes, given the sizes of structs. -/
def size? (p : Nat) (layout : TypeId → Option Nat) : Shape → Option Nat
  | .int bits => some ((bits + 7) / 8)
  | .ptr => some p
  | .layout t => layout t
  | .array element count => (element.size? p layout).map (elementsSize · count)

/-- The packed size of shapes that follow one another. -/
def sizes? (p : Nat) (layout : TypeId → Option Nat) : List Shape → Option Nat
  | [] => some 0
  | s :: ss => (s.size? p layout).bind fun n => (sizes? p layout ss).map (n + ·)

variable {p : Nat} {layout layout' : TypeId → Option Nat}

theorem size?_mono (h : ∀ t n, layout t = some n → layout' t = some n) {s : Shape} {n : Nat}
    (hs : s.size? p layout = some n) : s.size? p layout' = some n := by
  induction s generalizing n with
  | int bits => exact hs
  | ptr => exact hs
  | layout t => exact h t n hs
  | array element count ih =>
    obtain ⟨k, hk, rfl⟩ := Option.map_eq_some_iff.1 hs
    simp only [size?, ih hk, Option.map_some]

theorem sizes?_mono (h : ∀ t n, layout t = some n → layout' t = some n) {ss : List Shape} {n : Nat}
    (hs : sizes? p layout ss = some n) : sizes? p layout' ss = some n := by
  induction ss generalizing n with
  | nil => exact hs
  | cons s ss ih =>
    obtain ⟨k, hk, hs⟩ := Option.bind_eq_some_iff.1 hs
    obtain ⟨m, hm, rfl⟩ := Option.map_eq_some_iff.1 hs
    simp only [sizes?, size?_mono h hk, ih hm, Option.map_some, Option.bind_some]

/-- A shape has a size when the structs in it do. -/
theorem isSome_size? {s : Shape} :
    (s.size? p layout).isSome = true ↔ ∀ t ∈ s.layouts, (layout t).isSome = true := by
  induction s with
  | int bits => simp [size?, layouts]
  | ptr => simp [size?, layouts]
  | layout t => simp [size?, layouts]
  | array element count ih => simpa [size?, layouts] using ih

theorem isSome_sizes? {ss : List Shape} :
    (sizes? p layout ss).isSome = true ↔
      ∀ s ∈ ss, ∀ t ∈ s.layouts, (layout t).isSome = true := by
  induction ss with
  | nil => simp [sizes?]
  | cons s ss ih =>
    rw [List.forall_mem_cons, ← isSome_size? (p := p), ← ih, sizes?]
    cases s.size? p layout <;> simp

end Shape

namespace Catalog

variable (c : Catalog)

/-- The shape of a field or an element of a type. -/
def shapeOf (t : TypeId) : Shape :=
  if (c.typeDef t).isHeldByReference then .ptr else .layout t

/-- The shape of a part of a type. Nothing has the shape of a field without bytes, or of one that
ends too far away. -/
def partShape? : Part → Option Shape
  | .padding => some (c.shapeOf Core.byte)
  | .field f => some (c.shapeOf (c.field f).type)
  | .zeroSized _ | .overflow _ => none

/-- The shapes of parts, one by one. -/
def partShapes? (parts : List Part) : Option (List Shape) := parts.mapM c.partShape?

/-- Whether the width in bits of an integer type is a word of 32 bits. -/
def FitsWidth (t : TypeId) : Prop := (c.typeDef t).size * 8 < UInt32.size

instance (t : TypeId) : Decidable (c.FitsWidth t) := inferInstanceAs (Decidable (_ < _))

/-- The shapes of the fields of a type's struct. A class without base other than the root has no
struct, and neither has a type with a field without bytes, nor one with a width or an offset that is
no word. -/
def body? (t : TypeId) : Option (List Shape) :=
  match (c.typeDef t).kind with
  | .scalar _ => if c.FitsWidth t then some [.int ((c.typeDef t).size * 8)] else none
  | .valueType => c.partShapes? (c.region t 0)
  | .reference =>
    if t = Core.object then some [.layout Core.objectHeader]
    else match (c.typeDef t).base with
      | none => none
      | some base =>
        (c.partShapes? (c.region t (c.typeDef base).size)).map (.layout base :: ·)
  | .array element => some [.layout Core.array, .array (c.shapeOf element) 0]

/-- The packed size of a type's struct if structs nest at most `depth` deep in it. -/
def sizeWithin (c : Catalog) : (depth : Nat) → TypeId → Option Nat
  | 0, _ => none
  | depth + 1, t =>
    (c.body? t).bind fun slots => Shape.sizes? c.pointerSize (c.sizeWithin depth) slots

/-- The packed size of a type's struct, if the type has one. -/
def layoutSize? (t : TypeId) : Option Nat := c.sizeWithin (c.typeCount + 1) t

/-- Whether a type has a struct: there is no end to what a type contains that contains itself. -/
def Laid (t : TypeId) : Prop := (c.layoutSize? t).isSome = true

instance (t : TypeId) : Decidable (c.Laid t) := inferInstanceAs (Decidable (_ = _))

/-- Whether a field or an element of a type can be stored. -/
def Stored (t : TypeId) : Prop := ∀ u ∈ (c.shapeOf t).layouts, c.Laid u

instance (t : TypeId) : Decidable (c.Stored t) :=
  inferInstanceAs (Decidable (∀ u ∈ (c.shapeOf t).layouts, c.Laid u))

variable {c}

theorem sizeWithin_mono (depth : Nat) (t : TypeId) (n : Nat)
    (h : c.sizeWithin depth t = some n) : c.sizeWithin (depth + 1) t = some n := by
  induction depth generalizing t n with
  | zero => simp [sizeWithin] at h
  | succ depth ih =>
    obtain ⟨slots, hslots, hn⟩ := Option.bind_eq_some_iff.1 h
    rw [sizeWithin, hslots, Option.bind_some]
    exact Shape.sizes?_mono ih hn

theorem sizeWithin_mono_le {depth depth' : Nat} (hd : depth ≤ depth') {t : TypeId} {n : Nat}
    (h : c.sizeWithin depth t = some n) : c.sizeWithin depth' t = some n :=
  Partial.mono_le sizeWithin_mono hd h

/-- The types that the catalog knows something about. -/
def knownTypes (c : Catalog) : List TypeId :=
  (List.range c.types.length).map TypeId.mk ++ c.revisions.map (·.1)

theorem length_knownTypes : c.knownTypes.length = c.typeCount := by
  simp [knownTypes, typeCount]

/-- A type that is not known is an integer. -/
theorem typeDef_of_notMem_knownTypes {t : TypeId} (h : t ∉ c.knownTypes) :
    c.typeDef t = default := by
  simp only [knownTypes, List.mem_append, not_or] at h
  have hindex : c.types.length ≤ t.index := by
    by_contra hlt
    exact h.1 (List.mem_map.2 ⟨t.index, List.mem_range.2 (by omega), rfl⟩)
  rw [typeDef, Partial.lookup_eq_none_of_notMem h.2, Option.getD_none, declaredType]
  rw [List.getD_eq_getElem?_getD, List.getElem?_eq_none hindex, Option.getD_none]

theorem sizeWithin_of_notMem_knownTypes {t : TypeId} (h : t ∉ c.knownTypes) (depth : Nat) :
    c.sizeWithin (depth + 1) t = some 0 := by
  have hdef := typeDef_of_notMem_knownTypes h
  have hbody : c.body? t = some [.int 0] := by
    simp only [body?, FitsWidth, hdef]
    rfl
  rw [sizeWithin, hbody]
  rfl

/-- **More depth than there are types is never needed.** -/
theorem sizeWithin_typeCount :
    c.sizeWithin (c.typeCount + 1) = c.sizeWithin (c.typeCount + 2) := by
  rw [← length_knownTypes]
  refine Partial.eq_succ_of_length c.sizeWithin sizeWithin_mono ?_ c.knownTypes 1 ?_
  · intro n hn
    funext t
    rw [sizeWithin, sizeWithin, hn]
  · intro t ht n hn
    obtain ⟨k, rfl⟩ := Nat.exists_eq_add_of_le hn
    rw [Nat.add_comm, sizeWithin_of_notMem_knownTypes ht, sizeWithin_of_notMem_knownTypes ht]

/-- The size of a struct from the sizes of the structs inside. -/
theorem layoutSize?_eq (t : TypeId) :
    c.layoutSize? t =
      (c.body? t).bind fun slots => Shape.sizes? c.pointerSize c.layoutSize? slots := by
  rw [layoutSize?, congrFun sizeWithin_typeCount t, sizeWithin]
  rfl

/-- A size that is found at any depth is the size. -/
theorem layoutSize?_of_sizeWithin {depth : Nat} {t : TypeId} {n : Nat}
    (h : c.sizeWithin depth t = some n) : c.layoutSize? t = some n := by
  rcases Nat.le_total depth (c.typeCount + 1) with hd | hd
  · exact sizeWithin_mono_le hd h
  · obtain ⟨k, hk⟩ := Nat.exists_eq_add_of_le hd
    have stable : ∀ k, c.sizeWithin (c.typeCount + 1 + k) = c.sizeWithin (c.typeCount + 1) := by
      intro k
      induction k with
      | zero => rfl
      | succ k ih =>
        funext u
        rw [← Nat.add_assoc, sizeWithin, ih, congrFun sizeWithin_typeCount u, sizeWithin]
    rwa [hk, stable k] at h

/-- A type has a struct when the types inside have. -/
theorem laid_iff {t : TypeId} :
    c.Laid t ↔ ∃ slots, c.body? t = some slots ∧ ∀ s ∈ slots, ∀ u ∈ s.layouts, c.Laid u := by
  rw [Laid, layoutSize?_eq]
  cases h : c.body? t with
  | none => simp
  | some slots =>
    rw [Option.bind_some, Shape.isSome_sizes?]
    simp [Laid]

theorem laid_of_sizeWithin {depth : Nat} {t : TypeId}
    (h : (c.sizeWithin depth t).isSome = true) : c.Laid t := by
  obtain ⟨n, hn⟩ := Option.isSome_iff_exists.1 h
  exact Option.isSome_iff_exists.2 ⟨n, layoutSize?_of_sizeWithin hn⟩

/-- Types with a struct are found by recursion on what is inside. -/
theorem Laid.induction {P : TypeId → Prop}
    (step : ∀ t slots, c.body? t = some slots →
      (∀ s ∈ slots, ∀ u ∈ s.layouts, c.Laid u ∧ P u) → P t)
    {t : TypeId} (h : c.Laid t) : P t := by
  have within : ∀ depth t, (c.sizeWithin depth t).isSome = true → P t := by
    intro depth
    induction depth with
    | zero => intro t h; simp [sizeWithin] at h
    | succ depth ih =>
      intro t h
      rw [sizeWithin] at h
      cases hbody : c.body? t with
      | none => simp [hbody] at h
      | some slots =>
        rw [hbody, Option.bind_some, Shape.isSome_sizes?] at h
        exact step t slots hbody fun s hs u hu =>
          ⟨laid_of_sizeWithin (h s hs u hu), ih u (h s hs u hu)⟩
  exact within _ t h

/-! ## Types held in place -/

section

variable {t u : TypeId}

theorem shapeOf_of_inPlace (h : (c.typeDef t).isHeldByReference = false) :
    c.shapeOf t = .layout t := by
  rw [shapeOf, h]
  rfl

theorem holdingSize_of_inPlace (h : (c.typeDef t).isHeldByReference = false) :
    c.holdingSize t = (c.typeDef t).size := by
  rw [holdingSize, TypeDef.holdingSize, h]
  rfl

theorem holdingSize_of_held (h : (c.typeDef t).isHeldByReference = true) :
    c.holdingSize t = c.pointerSize := by
  rw [holdingSize, TypeDef.holdingSize, h]
  rfl

theorem inPlace_of_valueType (h : (c.typeDef t).kind = .valueType) :
    (c.typeDef t).isHeldByReference = false := by
  rw [TypeDef.isHeldByReference, h]

/-- Integers and value types are held in place. -/
theorem kind_of_inPlace (h : (c.typeDef t).isHeldByReference = false) :
    (c.typeDef t).isScalar = true ∨ (c.typeDef t).kind = .valueType := by
  cases hkind : (c.typeDef t).kind with
  | scalar signed => exact Or.inl (by rw [TypeDef.isScalar, hkind])
  | valueType => exact Or.inr rfl
  | reference | array =>
    rw [TypeDef.isHeldByReference, hkind] at h
    cases h

/-- The only struct in the slot of a type is that of the type itself. -/
theorem eq_of_mem_layouts (h : u ∈ (c.shapeOf t).layouts) :
    u = t ∧ (c.typeDef u).isHeldByReference = false := by
  rw [shapeOf] at h
  split at h
  · exact absurd h List.not_mem_nil
  · rename_i hheld
    obtain rfl := List.mem_singleton.1 h
    exact ⟨rfl, Bool.eq_false_iff.2 hheld⟩

/-- The slot of a part is that of a type. -/
theorem exists_shapeOf_of_partShape? {p : Part} {slot : Shape} (h : c.partShape? p = some slot) :
    ∃ v, slot = c.shapeOf v := by
  cases p with
  | padding | field => exact ⟨_, (Option.some.inj h).symm⟩
  | zeroSized | overflow => cases h

/-- The shapes of parts start with that of the first part. -/
theorem exists_of_partShapes?_cons {p : Part} {parts : List Part} {slots : List Shape}
    (h : c.partShapes? (p :: parts) = some slots) : ∃ slot rest, c.partShape? p = some slot ∧
      c.partShapes? parts = some rest ∧ slots = slot :: rest := by
  obtain ⟨slot, rest, hslot, hrest, rfl⟩ :=
    List.forall₂_cons_left_iff.1 (Partial.mapM_eq_some_iff.1 h)
  exact ⟨slot, rest, hslot, Partial.mapM_eq_some_iff.2 hrest, rfl⟩

end

/-! ## Integers -/

section

variable {t : TypeId} (ht : (c.typeDef t).isScalar = true)

include ht

theorem kind_of_isScalar : ∃ signed, (c.typeDef t).kind = .scalar signed := by
  unfold TypeDef.isScalar at ht
  split at ht
  · rename_i signed hkind
    exact ⟨signed, hkind⟩
  · cases ht

theorem inPlace_of_isScalar : (c.typeDef t).isHeldByReference = false := by
  obtain ⟨signed, hkind⟩ := kind_of_isScalar ht
  rw [TypeDef.isHeldByReference, hkind]

theorem shapeOf_of_isScalar : c.shapeOf t = .layout t :=
  shapeOf_of_inPlace (inPlace_of_isScalar ht)

theorem body?_of_isScalar (hwidth : c.FitsWidth t) :
    c.body? t = some [.int ((c.typeDef t).size * 8)] := by
  obtain ⟨signed, hkind⟩ := kind_of_isScalar ht
  rw [body?, hkind]
  exact if_pos hwidth

theorem fitsWidth_of_body? {slots : List Shape} (h : c.body? t = some slots) : c.FitsWidth t := by
  obtain ⟨signed, hkind⟩ := kind_of_isScalar ht
  rw [body?, hkind] at h
  by_contra hwidth
  rw [if_neg hwidth] at h
  cases h

omit ht in
theorem fitsWidth_of_le {n : Nat} (h : (c.typeDef t).size ≤ n) (hn : n * 8 < UInt32.size) :
    c.FitsWidth t :=
  Nat.lt_of_le_of_lt (Nat.mul_le_mul_right 8 h) hn

/-- An integer takes its size in bytes. -/
theorem layoutSize?_of_isScalar (hwidth : c.FitsWidth t) :
    c.layoutSize? t = some (c.typeDef t).size := by
  rw [layoutSize?_eq, body?_of_isScalar ht hwidth]
  simp only [Shape.sizes?, Shape.size?, Option.bind_some, Option.map_some]
  exact congrArg some (by omega)

theorem laid_of_isScalar (hwidth : c.FitsWidth t) : c.Laid t := by
  refine laid_iff.2 ⟨_, body?_of_isScalar ht hwidth, fun slot hslot u hu => ?_⟩
  obtain rfl := List.mem_singleton.1 hslot
  exact absurd hu List.not_mem_nil

end

/-! ## Classes -/

/-- The struct of a class starts with that of its base. -/
theorem body?_eq_of_base {t base : TypeId} (ht : (c.typeDef t).kind = .reference)
    (hne : t ≠ Core.object) (hbase : (c.typeDef t).base = some base) {slots : List Shape}
    (hbody : c.body? t = some slots) : ∃ slots', slots = .layout base :: slots' ∧
      c.partShapes? (c.region t (c.typeDef base).size) = some slots' := by
  rw [body?, ht] at hbody
  dsimp only at hbody
  rw [if_neg hne, hbase] at hbody
  obtain ⟨slots', hslots', rfl⟩ := Option.map_eq_some_iff.1 hbody
  exact ⟨slots', rfl, hslots'⟩

/-- An array class has a struct when its elements can be stored. -/
theorem laid_of_array {t element : TypeId} (ht : (c.typeDef t).kind = .array element)
    (harray : c.Laid Core.array) (hstored : c.Stored element) : c.Laid t := by
  refine laid_iff.2 ⟨[.layout Core.array, .array (c.shapeOf element) 0], by rw [body?, ht], ?_⟩
  intro slot hslot u hu
  rcases List.mem_cons.1 hslot with rfl | hslot
  · exact List.mem_singleton.1 hu ▸ harray
  · obtain rfl := List.mem_singleton.1 hslot
    exact hstored u hu

/-! ## Types that can come up -/

/-- The types of a set mention only types of the set, and so does everything else. -/
structure Closed (c : Catalog) (known : TypeId → Prop) : Prop where
  byte : known Core.byte
  objectHeader : known Core.objectHeader
  object : known Core.object
  array : known Core.array
  fields : ∀ f, known (c.field f).type
  bases : ∀ t base, known t → (c.typeDef t).base = some base → known base
  elements : ∀ t element, known t → (c.typeDef t).kind = .array element → known element
  params : ∀ m, ∀ t ∈ (c.method m).params, known t
  results : ∀ m, ∀ t ∈ (c.method m).result, known t
  contexts : ∀ d v, c.descriptor? d = some v → known v.context

theorem closed_true (c : Catalog) : c.Closed fun _ => True := by
  constructor <;> intros <;> trivial

end Catalog

end DataImage
