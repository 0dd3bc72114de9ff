import DataImage.Module.Verify
import Mathlib.Data.List.Forall2

/-!
# What a verification finds

When the lists of faults are empty: one equivalence for each kind of constant
(`Module.constantFaults_named_eq_nil_iff` and its neighbours), and one for a whole module
(`Module.isOk_verify_iff`). Every type is compatible with itself.
-/

namespace DataImage.Module

variable {m : Module}

/-! ## Compatible types -/

mutual

theorem compatibleWith_self (opened : List Storage → List Storage → Bool) :
    (t : Storage) → m.compatibleWith opened t t = true
  | .int _ => by simp [compatibleWith]
  | .ptr => by simp [compatibleWith]
  | .struct _ => by simp [compatibleWith]
  | .anon fields => compatibleAllWith_self opened fields
  | .array element _ => by simp [compatibleWith, compatibleWith_self opened element]

theorem compatibleAllWith_self (opened : List Storage → List Storage → Bool) :
    (ts : List Storage) → m.compatibleAllWith opened ts ts = true
  | [] => rfl
  | t :: ts => by
    rw [compatibleAllWith, compatibleWith_self opened t, compatibleAllWith_self opened ts]
    rfl

end

theorem compatible_self (t : Storage) : m.compatible t t = true := compatibleWith_self _ t

theorem forall₂_of_compatibleAllWith {opened : List Storage → List Storage → Bool}
    {expected actual : List Storage} (h : m.compatibleAllWith opened expected actual = true) :
    List.Forall₂ (fun a b => m.compatibleWith opened a b = true) expected actual := by
  induction expected generalizing actual with
  | nil =>
    rw [compatibleAllWith, List.isEmpty_iff] at h
    rw [h]
    exact .nil
  | cons a expected ih =>
    cases actual with
    | nil => cases h
    | cons b actual =>
      rw [compatibleAllWith, Bool.and_eq_true] at h
      exact .cons h.1 (ih h.2)

/-- An address fits into an integer of its width. -/
theorem compatible_int_ptr {bits : Nat} (h : bits = m.nativeBits) :
    m.compatible (.int bits) .ptr = true := by
  simp [compatible, compatibleWith, h]

/-! ## Faults of constants -/

theorem slotFaults_eq_nil_iff {slot : Slot} {expected : Storage} {k : Constant} :
    m.slotFaults slot expected k = [] ↔ m.compatible expected k.type = true := by
  unfold slotFaults
  split <;> simp_all

theorem fieldFaults_eq_nil_iff {id : StructId} {ks : List Constant} :
    m.fieldFaults id ks = [] ↔
      List.Forall₂ (fun slot k => m.compatible slot k.type = true) (m.struct id).fields ks := by
  unfold fieldFaults
  dsimp only
  split
  · rename_i hlen
    simp only [List.cons_ne_nil, false_iff]
    exact fun h => hlen h.length_eq
  · rename_i hlen
    rw [List.forall₂_iff_zip, List.flatten_eq_nil_iff]
    simp only [List.mem_map, forall_exists_index, and_imp]
    constructor
    · intro h
      refine ⟨not_not.1 hlen, fun {slot k} hmem => ?_⟩
      obtain ⟨i, hi⟩ := List.mem_iff_getElem?.1 hmem
      exact slotFaults_eq_nil_iff.1
        (h _ ((slot, k), i) (List.mem_zipIdx_iff_getElem?.2 hi) rfl)
    · rintro ⟨-, h⟩ _ ⟨⟨slot, k⟩, i⟩ hmem rfl
      exact slotFaults_eq_nil_iff.2 (h (List.mem_of_getElem? (List.mem_zipIdx_iff_getElem?.1 hmem)))

theorem constantsFaults_eq_nil_iff {ks : List Constant} :
    m.constantsFaults ks = [] ↔ ∀ k ∈ ks, m.constantFaults k = [] := by
  induction ks with
  | nil => simp [constantsFaults]
  | cons k ks ih => simp [constantsFaults, ih]

theorem elementFaults_eq_nil_iff {element : Storage} {i : Nat} {ks : List Constant} :
    m.elementFaults element i ks = [] ↔
      ∀ k ∈ ks, m.compatible element k.type = true ∧ m.constantFaults k = [] := by
  induction ks generalizing i with
  | nil => simp [elementFaults]
  | cons k ks ih => simp [elementFaults, ih, slotFaults_eq_nil_iff, and_assoc]

theorem constantFaults_int_eq_nil_iff {bits : Nat} {value : UInt64} {signed : Bool} :
    m.constantFaults (.int bits value signed) = [] ↔
      bits ≠ 0 ∧ bits ≤ 64 ∧ Bits.lowBits value bits = value := by
  rw [constantFaults, integerFaults]
  split
  · simp only [List.cons_ne_nil, false_iff]
    omega
  · split
    · simp_all
    · simp_all

theorem constantFaults_named_eq_nil_iff {id : StructId} {ks : List Constant} :
    m.constantFaults (.named id ks) = [] ↔ id.index < m.structs.length ∧
      List.Forall₂ (fun slot k => m.compatible slot k.type = true) (m.struct id).fields ks ∧
      ∀ k ∈ ks, m.constantFaults k = [] := by
  rw [Constant.named, constantFaults]
  split
  · simp only [List.cons_ne_nil, false_iff]
    omega
  · rename_i hid
    rw [List.append_eq_nil_iff, fieldFaults_eq_nil_iff, constantsFaults_eq_nil_iff]
    exact (and_iff_right (Nat.lt_of_not_le hid)).symm

theorem constantFaults_anon_eq_nil_iff {ks : List Constant} :
    m.constantFaults (.anon ks) = [] ↔ ∀ k ∈ ks, m.constantFaults k = [] := by
  rw [Constant.anon, constantFaults, constantsFaults_eq_nil_iff]

theorem constantFaults_array_eq_nil_iff {element : Storage} {ks : List Constant} :
    m.constantFaults (.array element ks) = [] ↔
      ∀ k ∈ ks, m.compatible element k.type = true ∧ m.constantFaults k = [] := by
  rw [constantFaults, elementFaults_eq_nil_iff]

theorem constantFaults_globalAddr_eq_nil_iff {g : GlobalId} :
    m.constantFaults (.globalAddr g) = [] ↔
      g.index < m.globals.length ∧ (m.global g).isRemoved = false := by
  rw [constantFaults, globalFaults]
  split
  · simp only [List.cons_ne_nil, false_iff]
    omega
  · split <;> simp_all

theorem constantFaults_functionAddr_eq_nil_iff {f : FunctionId} :
    m.constantFaults (.functionAddr f) = [] ↔ f.index < m.functions.length := by
  rw [constantFaults]
  split
  · simp only [List.cons_ne_nil, false_iff]
    omega
  · simp_all

/-! ## Faults of a module -/

theorem initializerFaults_eq_nil_iff {g : Global} :
    m.initializerFaults g = [] ↔ ∃ k, g.initializer = some k ∧
      m.compatible g.type k.type = true ∧ m.constantFaults k = [] := by
  unfold initializerFaults
  cases g.initializer with
  | none => simp
  | some k => simp [slotFaults_eq_nil_iff]

theorem widthFaults_eq_nil_iff :
    m.widthFaults = [] ↔ m.nativeBits % 8 = 0 ∧ m.nativeBits ≠ 0 := by
  unfold widthFaults
  split
  · simp only [List.cons_ne_nil, false_iff]
    omega
  · simp only [true_iff]
    omega

/-- **When a verification finds nothing.** -/
theorem isOk_verify_iff :
    m.verify.isOk = true ↔ (∀ e ∈ m.live, m.initializerFaults e.2 = []) ∧
      (∀ a ∈ m.aliases, m.aliasFaults a = []) ∧ m.widthFaults = [] := by
  simp only [Report.isOk, verify, List.isEmpty_iff, List.append_eq_nil_iff,
    List.flatMap_eq_nil_iff, List.map_eq_nil_iff, and_assoc]

end DataImage.Module
