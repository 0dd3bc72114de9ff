import DataImage.Proofs.Module.Ordered
import DataImage.Proofs.Module.Verifying
import DataImage.Proofs.Partial

/-!
# Modules with more declarations

A module may get more structs and functions after it was verified. What the verification accepted
it accepts then too (`Module.Declares.isOk_verify`): types that mention only the structs that were
there are compared as before, and the bound on the depth of a comparison only grows.
-/

namespace DataImage

theorem Storage.below_iff {k : Nat} {ts : List Storage} :
    Below k ts ↔ ∀ t ∈ ts, ∀ id ∈ t.structs, id.index < k := by
  induction ts with
  | nil => simp [Below, structsAll]
  | cons t ts ih => rw [below_cons, ih, List.forall_mem_cons]

namespace Constant

mutual

/-- The named structs that a constant mentions. -/
def structs : Constant → List StructId
  | .zeroed type => type.structs
  | .aggregate name fields => name.toList ++ structsAll fields
  | .array element elements => element.structs ++ structsAll elements
  | .int .. | .globalAddr _ | .functionAddr _ => []

/-- The named structs that constants mention. -/
def structsAll : List Constant → List StructId
  | [] => []
  | k :: ks => k.structs ++ structsAll ks

end

theorem mem_structsAll {id : StructId} {ks : List Constant} :
    id ∈ structsAll ks ↔ ∃ k ∈ ks, id ∈ k.structs := by
  induction ks with
  | nil => simp [structsAll]
  | cons k ks ih => simp [structsAll, ih]

mutual

/-- The type of a constant mentions no struct that the constant does not mention. -/
theorem structs_type_subset : (k : Constant) → k.type.structs ⊆ k.structs
  | .int .. | .globalAddr _ | .functionAddr _ => List.nil_subset _
  | .zeroed _ => List.Subset.refl _
  | .aggregate (some _) _ => List.cons_subset.2 ⟨List.mem_cons_self, List.nil_subset _⟩
  | .aggregate none fields => structsAll_types_subset fields
  | .array _ _ => List.subset_append_left _ _

theorem structsAll_types_subset : (ks : List Constant) →
    Storage.structsAll (types ks) ⊆ structsAll ks
  | [] => List.Subset.refl _
  | k :: ks => by
    rw [types, Storage.structsAll, structsAll]
    exact List.append_subset.2
      ⟨List.Subset.trans (structs_type_subset k) (List.subset_append_left _ _),
        List.Subset.trans (structsAll_types_subset ks) (List.subset_append_right _ _)⟩

end

end Constant

namespace Module

/-- `m'` has the globals of `m`, and its structs and functions start with those of `m`. -/
structure Declares (m m' : Module) : Prop where
  width : m'.nativeBits = m.nativeBits
  globals : m'.globals = m.globals
  structs : m.structs <+: m'.structs
  functions : m.functions <+: m'.functions

/-- Whether the live globals with contents mention declared structs only. -/
def Grounded (m : Module) : Prop :=
  ∀ e ∈ m.live, ∀ k, e.2.initializer = some k →
    ∀ id ∈ e.2.type.structs ++ k.structs, id.index < m.structs.length

/-- Whether opened structs that match in one comparison match in another one, as long as they
mention declared structs only. -/
def ImpliesBelow (m : Module) (f g : List Storage → List Storage → Bool) : Prop :=
  ∀ as bs, Storage.Below m.structs.length as → Storage.Below m.structs.length bs →
    f as bs = true → g as bs = true

namespace Declares

variable {m m' m'' : Module}

protected theorem refl (m : Module) : m.Declares m :=
  ⟨rfl, rfl, List.prefix_refl _, List.prefix_refl _⟩

protected theorem trans (h : m.Declares m') (h' : m'.Declares m'') : m.Declares m'' :=
  ⟨h'.width.trans h.width, h'.globals.trans h.globals, h.structs.trans h'.structs,
    h.functions.trans h'.functions⟩

/-- Declaring a struct adds at most this struct. -/
theorem declareStruct (m : Module) (name : String) (fields : List Storage) :
    m.Declares (m.declareStruct name fields).2 := by
  unfold Module.declareStruct
  dsimp only
  split
  · exact ⟨rfl, rfl, List.prefix_refl _, List.prefix_refl _⟩
  · exact ⟨rfl, rfl, List.prefix_append _ _, List.prefix_refl _⟩

/-- Declaring a function adds at most this function. -/
theorem declareFunction (m : Module) (name : String) (params : List Storage)
    (result : Option Storage) : m.Declares (m.declareFunction name params result).2 := by
  unfold Module.declareFunction
  dsimp only
  split
  · exact ⟨rfl, rfl, List.prefix_refl _, List.prefix_refl _⟩
  · exact ⟨rfl, rfl, List.prefix_refl _, List.prefix_append _ _⟩

theorem setAlias (m : Module) (name : String) (target : FunctionId) :
    m.Declares (m.setAlias name target) :=
  ⟨rfl, rfl, List.prefix_refl _, List.prefix_refl _⟩

section

variable (h : m.Declares m')

include h

theorem live_eq : m'.live = m.live := by
  rw [Module.live, Module.live, numbered, numbered, h.globals]

theorem global_eq (g : GlobalId) : m'.global g = m.global g := by
  rw [Module.global, Module.global, h.globals]

theorem struct_eq {id : StructId} (hid : id.index < m.structs.length) :
    m'.struct id = m.struct id := by
  have hx := List.getElem?_eq_getElem hid
  rw [Module.struct, Module.struct, List.getD_eq_getElem?_getD, List.getD_eq_getElem?_getD, hx,
    Partial.getElem?_of_prefix h.structs hx]

theorem fieldListCount_le (ts : List Storage) : m.fieldListCount ts ≤ m'.fieldListCount ts := by
  obtain ⟨r, hr⟩ := h.structs
  rw [fieldListCount, fieldListCount, ← hr, List.foldl_append, foldl_anonCounts r]
  exact Nat.le_add_right _ _

end

/-! ## Compatible types -/

section

variable {f g : List Storage → List Storage → Bool}

mutual

/-- Types that match still match when more structs are declared. -/
theorem compatibleWith (h : m.Declares m') (hm : m.Ordered) (hfg : ImpliesBelow m f g) :
    (expected actual : Storage) →
    (∀ id ∈ expected.structs, id.index < m.structs.length) →
    (∀ id ∈ actual.structs, id.index < m.structs.length) →
    m.compatibleWith f expected actual = true → m'.compatibleWith g expected actual = true
  | .int _, actual, _, _, hfits => by
    simp only [Module.compatibleWith, h.width] at hfits ⊢
    exact hfits
  | .ptr, _, _, _, hfits => hfits
  | .struct id, actual, he, ha, hfits => by
    have hid := he id (List.mem_singleton.2 rfl)
    cases actual with
    | anon fields =>
      simp only [Module.compatibleWith] at hfits ⊢
      rw [h.struct_eq hid]
      exact hfg _ _ (fun u hu => Nat.lt_trans (hm.below id u hu) hid) ha hfits
    | int bits | ptr | struct id' | array element count => exact hfits
  | .anon slots, actual, he, ha, hfits => by
    cases actual with
    | struct id =>
      have hid := ha id (List.mem_singleton.2 rfl)
      simp only [Module.compatibleWith] at hfits ⊢
      rw [h.struct_eq hid]
      exact hfg _ _ (fun u hu => Nat.lt_trans (hm.below id u hu) hid) he hfits
    | anon fields => exact compatibleAllWith h hm hfg slots fields he ha hfits
    | int bits | ptr | array element count => exact hfits
  | .array slot count, actual, he, ha, hfits => by
    cases actual with
    | array element n =>
      simp only [Module.compatibleWith, Bool.and_eq_true] at hfits ⊢
      exact ⟨hfits.1, compatibleWith h hm hfg slot element he ha hfits.2⟩
    | int bits | ptr | struct id | anon fields => exact hfits

theorem compatibleAllWith (h : m.Declares m') (hm : m.Ordered) (hfg : ImpliesBelow m f g) :
    (expected actual : List Storage) →
    Storage.Below m.structs.length expected → Storage.Below m.structs.length actual →
    m.compatibleAllWith f expected actual = true → m'.compatibleAllWith g expected actual = true
  | [], _, _, _, hfits => hfits
  | _ :: _, [], _, _, hfits => hfits
  | slot :: slots, field :: fields, he, ha, hfits => by
    obtain ⟨hslot, hslots⟩ := Storage.below_cons.1 he
    obtain ⟨hfield, hfields⟩ := Storage.below_cons.1 ha
    rw [Module.compatibleAllWith, Bool.and_eq_true] at hfits ⊢
    exact ⟨compatibleWith h hm hfg slot field hslot hfield hfits.1,
      compatibleAllWith h hm hfg slots fields hslots hfields hfits.2⟩

end

end

/-- Neither more structs nor a greater depth spoil a comparison. -/
theorem compatibleWithin (h : m.Declares m') (hm : m.Ordered) {depth depth' : Nat}
    (hle : depth ≤ depth') {as bs : List Storage} (has : Storage.Below m.structs.length as)
    (hbs : Storage.Below m.structs.length bs) (hfits : m.compatibleWithin depth as bs = true) :
    m'.compatibleWithin depth' as bs = true := by
  induction depth generalizing depth' as bs with
  | zero => cases hfits
  | succ depth ih =>
    cases depth' with
    | zero => omega
    | succ depth' =>
      rw [Module.compatibleWithin] at hfits ⊢
      refine h.compatibleAllWith hm (fun as bs has hbs => ?_) as bs has hbs hfits
      exact ih (Nat.le_of_succ_le_succ hle) has hbs

/-- **Compatible types stay compatible when more structs are declared.** -/
theorem compatible (h : m.Declares m') (hm : m.Ordered) {expected actual : Storage}
    (he : ∀ id ∈ expected.structs, id.index < m.structs.length)
    (ha : ∀ id ∈ actual.structs, id.index < m.structs.length)
    (hfits : m.compatible expected actual = true) : m'.compatible expected actual = true := by
  refine h.compatibleWith hm (fun as bs has hbs => ?_) expected actual he ha hfits
  refine h.compatibleWithin hm ?_ has hbs
  exact Nat.mul_le_mul (Nat.add_le_add (h.fieldListCount_le as) (h.fieldListCount_le bs))
    (Nat.add_le_add (h.fieldListCount_le as) (h.fieldListCount_le bs))

/-! ## Faults -/

mutual

/-- **Constants without faults stay so when structs and functions are declared.** -/
theorem constantFaults (h : m.Declares m') (hm : m.Ordered) :
    (k : Constant) → (∀ id ∈ k.structs, id.index < m.structs.length) →
    m.constantFaults k = [] → m'.constantFaults k = []
  | .int .., _, hfaults => hfaults
  | .zeroed _, _, _ => rfl
  | .aggregate (some id) fields, hk, hfaults => by
    obtain ⟨hid, hfits, hinner⟩ := constantFaults_named_eq_nil_iff.1 hfaults
    have hfields : ∀ k ∈ fields, ∀ u ∈ k.structs, u.index < m.structs.length :=
      fun k hmem u hu => hk u (List.mem_cons_of_mem _ (Constant.mem_structsAll.2 ⟨k, hmem, hu⟩))
    refine constantFaults_named_eq_nil_iff.2 ⟨Nat.lt_of_lt_of_le hid h.structs.length_le, ?_,
      constantsFaults h hm fields hfields hinner⟩
    rw [h.struct_eq hid]
    refine (Partial.forall₂_mem hfits).imp fun slot k hfit => ?_
    obtain ⟨hslot, hmem, hfit⟩ := hfit
    have hbelow := Storage.below_iff.1 (hm.below id) slot hslot
    exact h.compatible hm (fun u hu => Nat.lt_trans (hbelow u hu) hid)
      (fun u hu => hfields k hmem u (k.structs_type_subset hu)) hfit
  | .aggregate none fields, hk, hfaults => by
    refine constantFaults_anon_eq_nil_iff.2
      (constantsFaults h hm fields (fun k hmem u hu => hk u ?_)
        (constantFaults_anon_eq_nil_iff.1 hfaults))
    exact Constant.mem_structsAll.2 ⟨k, hmem, hu⟩
  | .array element elements, hk, hfaults => by
    have hall := constantFaults_array_eq_nil_iff.1 hfaults
    have helements : ∀ k ∈ elements, ∀ u ∈ k.structs, u.index < m.structs.length :=
      fun k hmem u hu =>
        hk u (List.mem_append_right _ (Constant.mem_structsAll.2 ⟨k, hmem, hu⟩))
    have hinner := constantsFaults h hm elements helements fun k hmem => (hall k hmem).2
    refine constantFaults_array_eq_nil_iff.2 fun k hmem => ⟨?_, hinner k hmem⟩
    exact h.compatible hm (fun u hu => hk u (List.mem_append_left _ hu))
      (fun u hu => helements k hmem u (k.structs_type_subset hu)) (hall k hmem).1
  | .globalAddr g, _, hfaults => by
    rw [constantFaults_globalAddr_eq_nil_iff] at hfaults ⊢
    rwa [h.globals, h.global_eq]
  | .functionAddr f, _, hfaults => by
    rw [constantFaults_functionAddr_eq_nil_iff] at hfaults ⊢
    exact Nat.lt_of_lt_of_le hfaults h.functions.length_le

theorem constantsFaults (h : m.Declares m') (hm : m.Ordered) :
    (ks : List Constant) →
    (∀ k ∈ ks, ∀ id ∈ k.structs, id.index < m.structs.length) →
    (∀ k ∈ ks, m.constantFaults k = []) → ∀ k ∈ ks, m'.constantFaults k = []
  | [], _, _ => List.forall_mem_nil _
  | k :: ks, hks, hfaults => by
    obtain ⟨hk, hks⟩ := List.forall_mem_cons.1 hks
    obtain ⟨hkf, hksf⟩ := List.forall_mem_cons.1 hfaults
    exact List.forall_mem_cons.2 ⟨constantFaults h hm k hk hkf, constantsFaults h hm ks hks hksf⟩

end

/-- **What was verified stays verified** when structs and functions are declared, with whatever
aliases of functions that are there. -/
theorem isOk_verify (h : m.Declares m') (hm : m.Ordered) (hgrounded : m.Grounded)
    (haliases : ∀ a ∈ m'.aliases, a.target.index < m'.functions.length)
    (hok : m.verify.isOk = true) : m'.verify.isOk = true := by
  obtain ⟨hglobals, -, hwidth⟩ := isOk_verify_iff.1 hok
  refine isOk_verify_iff.2 ⟨fun entry hlive => ?_, fun a ha => ?_, ?_⟩
  · rw [h.live_eq] at hlive
    obtain ⟨k, hk, hfits, hfaults⟩ := initializerFaults_eq_nil_iff.1 (hglobals entry hlive)
    have hall := hgrounded entry hlive k hk
    refine initializerFaults_eq_nil_iff.2 ⟨k, hk, ?_, h.constantFaults hm k ?_ hfaults⟩
    · exact h.compatible hm (fun u hu => hall u (List.mem_append_left _ hu))
        (fun u hu => hall u (List.mem_append_right _ (k.structs_type_subset hu))) hfits
    · exact fun u hu => hall u (List.mem_append_right _ hu)
  · rw [aliasFaults, if_neg (Nat.not_le.2 (haliases a ha))]
  · rwa [widthFaults, h.width]

end Declares

end Module

end DataImage
