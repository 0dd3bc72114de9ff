import DataImage.Proofs.Module.Addresses
import DataImage.Proofs.Module.Ordered
import DataImage.Proofs.Module.Verifying

/-!
# Verified modules can be lowered

The comparison of types in a verification is lenient, but never as to sizes: what may fill a slot
takes as many bytes as the slot (`Module.Ordered.sizeOf_eq_of_compatible`). So a constant without
faults has exactly the bytes that its type takes (`Module.Ordered.width_eq_sizeOf`), and the only
thing that can keep it from being written down is that there is no room for so many bytes
(`Module.overflow_of_constantBytes`). A module in which a verification finds nothing has a blob for
each of its live globals, if the types of these have sizes that there is room for
(`Module.lower_of_verify`).
-/

namespace DataImage

/-! ## Compatible types are equally large -/

namespace Module

variable {m : Module}

section

variable {layout : DataLayout} {size : StructId → Nat} {opened : List Storage → List Storage → Bool}

mutual

theorem sizeWith_eq_of_compatibleWith
    (hopened : ∀ as bs, opened as bs = true → layout.sizesWith size as = layout.sizesWith size bs)
    (hsize : ∀ id, size id = layout.sizesWith size (m.struct id).fields)
    (hptr : layout.pointerBytes = (m.nativeBits + 7) / 8) :
    (expected actual : Storage) → m.compatibleWith opened expected actual = true →
      layout.sizeWith size expected = layout.sizeWith size actual
  | .int bits, actual, h => by
    simp only [compatibleWith, Bool.or_eq_true, Bool.and_eq_true, decide_eq_true_eq,
      beq_iff_eq] at h
    obtain rfl | ⟨rfl, rfl⟩ := h
    · rfl
    · exact hptr.symm
  | .ptr, actual, h => by
    simp only [compatibleWith, decide_eq_true_eq] at h
    rw [h]
  | .struct id, actual, h => by
    cases actual with
    | anon fields => exact (hsize id).trans (hopened _ _ h)
    | struct id' =>
      simp only [compatibleWith, decide_eq_true_eq] at h
      rw [h]
    | int bits | ptr | array element count => simp [compatibleWith] at h
  | .anon slots, actual, h => by
    cases actual with
    | struct id => exact ((hsize id).trans (hopened _ _ h)).symm
    | anon fields => exact sizesWith_eq_of_compatibleAllWith hopened hsize hptr slots fields h
    | int bits | ptr | array element count => simp [compatibleWith] at h
  | .array slot count, actual, h => by
    cases actual with
    | array element count' =>
      simp only [compatibleWith, Bool.and_eq_true, beq_iff_eq] at h
      obtain ⟨rfl, helement⟩ := h
      have hslot := sizeWith_eq_of_compatibleWith hopened hsize hptr slot element helement
      rw [DataLayout.sizeWith, DataLayout.sizeWith, hslot]
    | int bits | ptr | struct id | anon fields => simp [compatibleWith] at h

theorem sizesWith_eq_of_compatibleAllWith
    (hopened : ∀ as bs, opened as bs = true → layout.sizesWith size as = layout.sizesWith size bs)
    (hsize : ∀ id, size id = layout.sizesWith size (m.struct id).fields)
    (hptr : layout.pointerBytes = (m.nativeBits + 7) / 8) :
    (expected actual : List Storage) → m.compatibleAllWith opened expected actual = true →
      layout.sizesWith size expected = layout.sizesWith size actual
  | [], actual, h => by
    rw [compatibleAllWith, List.isEmpty_iff] at h
    rw [h]
  | slot :: slots, actual, h => by
    cases actual with
    | nil => cases h
    | cons field fields =>
      rw [compatibleAllWith, Bool.and_eq_true] at h
      rw [DataLayout.sizesWith, DataLayout.sizesWith,
        sizeWith_eq_of_compatibleWith hopened hsize hptr slot field h.1,
        sizesWith_eq_of_compatibleAllWith hopened hsize hptr slots fields h.2]

end

end

namespace Ordered

variable (hm : m.Ordered) {layout : DataLayout}
  (hptr : layout.pointerBytes = (m.nativeBits + 7) / 8)

include hm hptr

theorem sizesWith_eq_of_compatibleWithin {depth : Nat} {expected actual : List Storage}
    (h : m.compatibleWithin depth expected actual = true) :
    layout.sizesWith (layout.structSize m) expected =
      layout.sizesWith (layout.structSize m) actual := by
  induction depth generalizing expected actual with
  | zero => cases h
  | succ depth ih =>
    exact sizesWith_eq_of_compatibleAllWith (fun _ _ h => ih h) (hm.structSize_eq layout) hptr
      expected actual h

/-- **What may fill a slot is as large as the slot.** -/
theorem sizeOf_eq_of_compatible {expected actual : Storage}
    (h : m.compatible expected actual = true) :
    layout.sizeOf m expected = layout.sizeOf m actual :=
  sizeWith_eq_of_compatibleWith (fun _ _ h => hm.sizesWith_eq_of_compatibleWithin hptr h)
    (hm.structSize_eq layout) hptr expected actual h

theorem sizesWith_eq_of_forall₂ {slots : List Storage} {ks : List Constant}
    (h : List.Forall₂ (fun slot k => m.compatible slot k.type = true) slots ks) :
    layout.sizesWith (layout.structSize m) slots =
      layout.sizesWith (layout.structSize m) (Constant.types ks) := by
  induction h with
  | nil => rfl
  | @cons slot k slots ks hk _ ih =>
    have hslot := hm.sizeOf_eq_of_compatible hptr hk
    rw [DataLayout.sizeOf, DataLayout.sizeOf] at hslot
    rw [DataLayout.sizesWith, Constant.types, DataLayout.sizesWith, ih, hslot]

theorem sizesWith_eq_mul {element : Storage} {ks : List Constant}
    (h : ∀ k ∈ ks, m.compatible element k.type = true) :
    layout.sizesWith (layout.structSize m) (Constant.types ks) =
      layout.sizeOf m element * ks.length := by
  induction ks with
  | nil => rfl
  | cons k ks ih =>
    have helement := hm.sizeOf_eq_of_compatible hptr (h k List.mem_cons_self)
    have hrest := ih fun k hk => h k (List.mem_cons_of_mem _ hk)
    have hk : layout.sizeWith (layout.structSize m) k.type = layout.sizeOf m element :=
      helement.symm
    rw [Constant.types, DataLayout.sizesWith, hrest, hk, List.length_cons, Nat.mul_succ,
      Nat.add_comm]

end Ordered

end Module

/-! ## Bytes of constants without faults -/

theorem DataLayout.integerBytes_eq_ok (layout : DataLayout) {bits : Nat} (value : UInt64)
    (hpos : bits ≠ 0) (hle : bits ≤ 64) :
    ∃ bytes, layout.integerBytes bits value = .ok bytes := by
  unfold integerBytes
  dsimp only
  rw [if_neg (by omega)]
  exact ⟨_, rfl⟩

namespace Module

variable {m : Module} {layout : DataLayout}

/-- What cannot be placed is too much for the room that there is. -/
theorem overflow_of_place {offset : Nat} {bytes : List UInt8} {relocations : List Relocation}
    {e : LoweringError} (h : place offset bytes relocations = .error e) :
    e = .overflow ∧ 2 ^ 63 ≤ offset + bytes.length := by
  rcases Nat.lt_or_ge (offset + bytes.length) (2 ^ 63) with hroom | hroom
  · rw [place_of_lt _ hroom] at h
    cases h
  · rw [place_of_le _ hroom] at h
    exact ⟨(Except.error.inj h).symm, hroom⟩

mutual

/-- **A constant without faults is not written down only if there is no room for it.** -/
theorem overflow_of_constantBytes {kind : RelocationKind} {offset : Nat} {e : LoweringError} :
    (k : Constant) → m.constantFaults k = [] → m.constantBytes layout kind offset k = .error e →
      e = .overflow ∧ 2 ^ 63 ≤ offset + m.width layout k
  | .int bits value signed, hfaults, h => by
    obtain ⟨hpos, hle, -⟩ := constantFaults_int_eq_nil_iff.1 hfaults
    obtain ⟨bytes, hbytes⟩ := layout.integerBytes_eq_ok value hpos hle
    rw [constantBytes, hbytes] at h
    have hroom := overflow_of_place h
    rwa [length_integerBytes hbytes] at hroom
  | .zeroed type, _, h => by
    rw [constantBytes_zeroed] at h
    have hroom := overflow_of_place h
    rwa [List.length_replicate] at hroom
  | .aggregate (some id) ks, hfaults, h =>
    overflow_of_constantsBytes ks (constantFaults_named_eq_nil_iff.1 hfaults).2.2 h
  | .aggregate none ks, hfaults, h =>
    overflow_of_constantsBytes ks (constantFaults_anon_eq_nil_iff.1 hfaults) h
  | .array element ks, hfaults, h =>
    overflow_of_constantsBytes ks
      (fun k hk => (constantFaults_array_eq_nil_iff.1 hfaults k hk).2) h
  | .globalAddr _, _, h | .functionAddr _, _, h => by
    have hroom := overflow_of_place h
    rwa [List.length_replicate] at hroom

theorem overflow_of_constantsBytes {kind : RelocationKind} {offset : Nat} {e : LoweringError} :
    (ks : List Constant) → (∀ k ∈ ks, m.constantFaults k = []) →
      m.constantsBytes layout kind offset ks = .error e →
      e = .overflow ∧ 2 ^ 63 ≤ offset + m.widthAll layout ks
  | [], _, h => by cases h
  | k :: ks, hfaults, h => by
    rw [constantsBytes] at h
    rw [widthAll]
    cases hk : m.constantBytes layout kind offset k with
    | error e' =>
      rw [hk] at h
      obtain rfl := Except.error.inj h
      obtain ⟨he, hroom⟩ := overflow_of_constantBytes k (hfaults k List.mem_cons_self) hk
      exact ⟨he, by omega⟩
    | ok first =>
      obtain ⟨bytes, relocations⟩ := first
      obtain ⟨hlength, -⟩ := constantBytes_eq k hk
      rw [hk] at h
      simp only [bind, Except.bind] at h
      cases hks : m.constantsBytes layout kind (offset + bytes.length) ks with
      | error e' =>
        rw [hks] at h
        obtain rfl := Except.error.inj h
        obtain ⟨he, hroom⟩ := overflow_of_constantsBytes ks
          (fun k hk => hfaults k (List.mem_cons_of_mem _ hk)) hks
        exact ⟨he, by omega⟩
      | ok rest =>
        rw [hks] at h
        cases h

end

mutual

/-- There was room for what was written down. -/
theorem room_of_constantBytes {kind : RelocationKind} {offset : Nat} (hoffset : offset < 2 ^ 63) :
    (k : Constant) → {bytes : List UInt8} → {relocations : List Relocation} →
      m.constantBytes layout kind offset k = .ok (bytes, relocations) →
      offset + bytes.length < 2 ^ 63
  | .int bits value signed, _, _, h => by
    rw [constantBytes] at h
    cases hbytes : layout.integerBytes bits value with
    | error e =>
      rw [hbytes] at h
      cases h
    | ok bytes =>
      rw [hbytes] at h
      obtain ⟨hroom, rfl, -⟩ := place_eq_ok_iff.1 h
      exact hroom
  | .zeroed type, _, _, h => by
    rw [constantBytes_zeroed] at h
    obtain ⟨hroom, rfl, -⟩ := place_eq_ok_iff.1 h
    exact hroom
  | .aggregate _ ks, _, _, h => room_of_constantsBytes hoffset ks h
  | .array _ ks, _, _, h => room_of_constantsBytes hoffset ks h
  | .globalAddr _, _, _, h | .functionAddr _, _, _, h => by
    obtain ⟨hroom, rfl, -⟩ := place_eq_ok_iff.1 h
    exact hroom

theorem room_of_constantsBytes {kind : RelocationKind} {offset : Nat} (hoffset : offset < 2 ^ 63) :
    (ks : List Constant) → {bytes : List UInt8} → {relocations : List Relocation} →
      m.constantsBytes layout kind offset ks = .ok (bytes, relocations) →
      offset + bytes.length < 2 ^ 63
  | [], _, _, h => by
    obtain ⟨rfl, -⟩ := Prod.mk.inj (Except.ok.inj h)
    exact hoffset
  | k :: ks, _, _, h => by
    obtain ⟨⟨bytes, relocations⟩, ⟨bytes', relocations'⟩, hk, hks, rfl, -⟩ :=
      constantsBytes_cons_eq_ok_iff.1 h
    have hrest := room_of_constantsBytes (room_of_constantBytes hoffset k hk) ks hks
    rwa [List.length_append, ← Nat.add_assoc]

end

namespace Ordered

mutual

/-- **A constant without faults has the bytes that its type takes**, if this is a word. -/
theorem width_eq_sizeOf (hm : m.Ordered) (hptr : layout.pointerBytes = (m.nativeBits + 7) / 8) :
    (k : Constant) → m.constantFaults k = [] →
    layout.sizeOf m k.type < UInt64.size → m.width layout k = layout.sizeOf m k.type
  | .int _ _ _, _, _ | .zeroed _, _, _ | .globalAddr _, _, _ | .functionAddr _, _, _ => rfl
  | .aggregate (some id) ks, h, hsize => by
    obtain ⟨-, hfits, hinner⟩ := constantFaults_named_eq_nil_iff.1 h
    have htypes : layout.sizeOf m (.struct id) =
        layout.sizesWith (layout.structSize m) (Constant.types ks) :=
      (hm.structSize_eq layout id).trans (hm.sizesWith_eq_of_forall₂ hptr hfits)
    rw [Constant.type, htypes] at hsize ⊢
    exact widthAll_eq_sizesWith hm hptr ks hinner hsize
  | .aggregate none ks, h, hsize =>
    widthAll_eq_sizesWith hm hptr ks (constantFaults_anon_eq_nil_iff.1 h) hsize
  | .array element ks, h, hsize => by
    have hinner := constantFaults_array_eq_nil_iff.1 h
    have hmul := hm.sizesWith_eq_mul hptr fun k hk => (hinner k hk).1
    have harray : layout.sizeOf m (.array element ks.length) =
        elementsSize (layout.sizeOf m element) ks.length := rfl
    -- an array has a size only if its elements have one
    have helement : layout.sizeOf m element < UInt64.size := by
      by_contra hle
      rw [Constant.type, harray, elementsSize, if_neg hle] at hsize
      exact hle hsize
    rw [Constant.type, harray, elementsSize_of_lt helement, ← hmul] at hsize ⊢
    exact widthAll_eq_sizesWith hm hptr ks (fun k hk => (hinner k hk).2) hsize

theorem widthAll_eq_sizesWith (hm : m.Ordered)
    (hptr : layout.pointerBytes = (m.nativeBits + 7) / 8) : (ks : List Constant) →
    (∀ k ∈ ks, m.constantFaults k = []) →
    layout.sizesWith (layout.structSize m) (Constant.types ks) < UInt64.size →
    m.widthAll layout ks = layout.sizesWith (layout.structSize m) (Constant.types ks)
  | [], _, _ => rfl
  | k :: ks, h, hsize => by
    rw [Constant.types, DataLayout.sizesWith] at hsize ⊢
    have hk := width_eq_sizeOf hm hptr k (h k List.mem_cons_self) (Nat.lt_of_le_of_lt
      (Nat.le_add_right _ _) hsize)
    have hks := widthAll_eq_sizesWith hm hptr ks (fun k hk => h k (List.mem_cons_of_mem _ hk))
      (Nat.lt_of_le_of_lt (Nat.le_add_left _ _) hsize)
    rw [widthAll, hk, hks]
    rfl

end

end Ordered

theorem exists_kind (hbits : m.nativeBits = 32 ∨ m.nativeBits = 64) :
    ∃ kind,
      RelocationKind.ofPointerBytes? (DataLayout.ofModule m).pointerBytes = some kind := by
  obtain hbits | hbits := hbits
  · exact ⟨.abs32, by rw [DataLayout.ofModule, hbits]; rfl⟩
  · exact ⟨.abs64, by rw [DataLayout.ofModule, hbits]; rfl⟩

/-- Whether the type of a global has a size that there is room for. -/
def FitsMemory (m : Module) (layout : DataLayout) (g : Global) : Prop :=
  ∃ n, layout.sizeOf? m g.type = some n ∧ n < 2 ^ 63

theorem fitsMemory_iff {g : Global} : m.FitsMemory layout g ↔ layout.sizeOf m g.type < 2 ^ 63 := by
  constructor
  · rintro ⟨n, hn, hlt⟩
    obtain ⟨rfl, -⟩ := DataLayout.sizeOf?_eq_some_iff.1 hn
    exact hlt
  · intro h
    refine ⟨_, DataLayout.sizeOf?_eq_some_iff.2 ⟨rfl, ?_⟩, h⟩
    exact Nat.lt_trans h (by decide)

namespace Ordered

/-- A live global without faults has a blob of its name, as large as its type, if there is room for
it. Else writing it down stops. -/
theorem globalBlob_outcome (hm : m.Ordered) (hptr : layout.pointerBytes = (m.nativeBits + 7) / 8)
    (kind : RelocationKind) {g : Global} (h : m.initializerFaults g = []) :
    (m.FitsMemory layout g → ∃ b, m.globalBlob layout kind g = .ok b ∧
      b.name = m.symbol g.name ∧ b.writable = !g.constant ∧
      layout.sizeOf? m g.type = some b.bytes.length) ∧
    (¬ m.FitsMemory layout g → m.globalBlob layout kind g = .error .overflow) := by
  obtain ⟨k, hk, hfits, hfaults⟩ := initializerFaults_eq_nil_iff.1 h
  have hsame : layout.sizeOf m g.type = layout.sizeOf m k.type :=
    hm.sizeOf_eq_of_compatible hptr hfits
  rw [fitsMemory_iff]
  constructor
  · intro hroom
    have hword : layout.sizeOf m g.type < UInt64.size := Nat.lt_trans hroom (by decide)
    have hwidth := hm.width_eq_sizeOf hptr k hfaults (hsame ▸ hword)
    cases hbytes : m.constantBytes layout kind 0 k with
    | error e =>
      obtain ⟨-, hle⟩ := overflow_of_constantBytes k hfaults hbytes
      omega
    | ok result =>
      obtain ⟨bytes, relocations⟩ := result
      obtain ⟨hlength, -⟩ := constantBytes_eq k hbytes
      have hsize : layout.sizeOf? m g.type = some bytes.length :=
        DataLayout.sizeOf?_eq_some_iff.2 ⟨by omega, by omega⟩
      exact ⟨_, globalBlob_eq_ok_iff.2 ⟨k, bytes, relocations, hk, hbytes, hsize, rfl⟩, rfl, rfl,
        hsize⟩
  · intro hroom
    rw [globalBlob, hk]
    dsimp only
    cases hbytes : m.constantBytes layout kind 0 k with
    | error e =>
      obtain ⟨rfl, -⟩ := overflow_of_constantBytes k hfaults hbytes
      rfl
    | ok result =>
      obtain ⟨bytes, relocations⟩ := result
      simp only [bind, Except.bind, DataLayout.sizeOf?_eq]
      rcases Nat.lt_or_ge (layout.sizeOf m g.type) UInt64.size with hword | hword
      · have hwidth := hm.width_eq_sizeOf hptr k hfaults (hsame ▸ hword)
        obtain ⟨hlength, -⟩ := constantBytes_eq k hbytes
        have hlt := room_of_constantBytes (by decide) k hbytes
        omega
      · rw [word?_of_le hword]
        rfl

/-- A verified module has the blobs of its live globals, with relocations of one kind, if there is
room for all of them. -/
theorem exists_lower (hm : m.Ordered) (hbits : m.nativeBits = 32 ∨ m.nativeBits = 64)
    (hverify : m.verify.isOk = true) (hroom : ∀ e ∈ m.live, m.FitsMemory (.ofModule m) e.2) :
    ∃ kind blobs, RelocationKind.ofPointerBytes? (DataLayout.ofModule m).pointerBytes = some kind ∧
      m.lower (.ofModule m) = .ok blobs ∧
      List.Forall₂ (fun e b => m.globalBlob (.ofModule m) kind e.2 = .ok b ∧
        b.name = m.symbol e.2.name ∧ b.writable = !e.2.constant ∧
        (DataLayout.ofModule m).sizeOf? m e.2.type = some b.bytes.length) m.live blobs := by
  have hptr : (DataLayout.ofModule m).pointerBytes = (m.nativeBits + 7) / 8 := by
    show m.nativeBits / 8 = (m.nativeBits + 7) / 8
    omega
  obtain ⟨kind, hkind⟩ := exists_kind hbits
  obtain ⟨blobs, hblobs⟩ := Partial.exists_forall₂ fun e he =>
    (hm.globalBlob_outcome hptr kind ((isOk_verify_iff.1 hverify).1 e he)).1 (hroom e he)
  refine ⟨kind, blobs, hkind, ?_, hblobs⟩
  rw [lower, hkind]
  exact Partial.mapM_eq_ok_iff.2 (hblobs.imp fun _ _ h => h.1)

/-- Lowering stops if there is no room for some global. -/
theorem lower_overflow (hm : m.Ordered) (hbits : m.nativeBits = 32 ∨ m.nativeBits = 64)
    (hverify : m.verify.isOk = true) (hroom : ∃ e ∈ m.live, ¬ m.FitsMemory (.ofModule m) e.2) :
    m.lower (.ofModule m) = .error .overflow := by
  obtain ⟨e, he, hroom⟩ := hroom
  have hptr : (DataLayout.ofModule m).pointerBytes = (m.nativeBits + 7) / 8 := by
    show m.nativeBits / 8 = (m.nativeBits + 7) / 8
    omega
  obtain ⟨kind, hkind⟩ := exists_kind hbits
  have hglobal := fun e he =>
    hm.globalBlob_outcome hptr kind ((isOk_verify_iff.1 hverify).1 e he)
  rw [lower, hkind]
  refine Partial.mapM_eq_error_of_forall (fun e he err herr => ?_) ⟨e, he, (hglobal e he).2 hroom⟩
  change m.globalBlob (.ofModule m) kind e.2 = .error err at herr
  by_cases hfits : m.FitsMemory (.ofModule m) e.2
  · obtain ⟨b, hb, -⟩ := (hglobal e he).1 hfits
    rw [hb] at herr
    cases herr
  · rw [(hglobal e he).2 hfits] at herr
    exact (Except.error.inj herr).symm

end Ordered

/-- A module that uses what is lenient in the comparison of types: named structs are filled by
anonymous ones, and an integer of the width of a pointer holds the address of a function. -/
def lenient : Module where
  name := "Lenient"
  nativeBits := 32
  symbols := { names := ["Code", "Entry", "main", "table", "cell"], nodup := by decide }
  structs := [{ name := ⟨0⟩, fields := [.int 32] },
    { name := ⟨1⟩, fields := [.struct ⟨0⟩, .int 8] }]
  globals := [
    { name := ⟨3⟩, type := .array (.struct ⟨1⟩) 1
      initializer := some (.array (.struct ⟨1⟩)
        [.anon [.anon [.functionAddr ⟨0⟩], .int 8 1 false]]) },
    { name := ⟨4⟩, type := .anon [.struct ⟨0⟩, .ptr], constant := true
      initializer := some (.anon [.anon [.globalAddr ⟨0⟩], .zeroed .ptr]) }]
  functions := [{ name := ⟨2⟩, params := [], result := none }]

end Module

end DataImage
