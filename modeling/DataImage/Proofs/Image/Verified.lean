import DataImage.Proofs.Catalog.Conforming
import DataImage.Proofs.Image.Lowering
import DataImage.Proofs.Module.Verifying

/-!
# Verifying a coherent image

In a coherent image whose types have different names, constants written down from conforming
contents are without faults (`Image.constantFaults_eq_nil`): the struct of a type has the types of
the slots that the contents conform to.
-/

namespace DataImage.Image

variable {c : Catalog} {known : TypeId → Prop} {s : Image}

/-- The type of a constant is that of the value it was written down from. -/
theorem storage?_of_shape? {v : Value} {k : Constant} (hk : s.constant? v = some k) {slot : Shape}
    (hslot : v.shape? = some slot) : s.storage? slot = some k.type := by
  cases v with
  | int bits value signed =>
    obtain rfl := Option.some.inj hslot
    obtain rfl := Option.some.inj hk
    rfl
  | zeroed shape =>
    obtain rfl := Option.some.inj hslot
    obtain ⟨type, htype, rfl⟩ := Option.map_eq_some_iff.1 hk
    exact htype
  | named t fields =>
    obtain rfl := Option.some.inj hslot
    obtain ⟨id, ks, hid, -, rfl⟩ := constant?_named_eq_some_iff.1 hk
    rw [storage?, hid]
    rfl
  | anon fields => cases hslot
  | array element elements =>
    obtain rfl := Option.some.inj hslot
    obtain ⟨type, ks, htype, hks, rfl⟩ := constant?_array_eq_some_iff.1 hk
    rw [storage?, htype, (constants?_eq_some_iff.1 hks).length_eq]
    rfl
  | reference d =>
    obtain rfl := Option.some.inj hslot
    obtain ⟨g, -, rfl⟩ := Option.map_eq_some_iff.1 hk
    rfl
  | function m =>
    obtain rfl := Option.some.inj hslot
    obtain ⟨f, -, rfl⟩ := Option.map_eq_some_iff.1 hk
    rfl

variable (hwidth : s.module.nativeBits = c.pointerSize * 8)

include hwidth

/-- A value that fits a slot is compatible with it. -/
theorem compatible_of_fits {slot : Shape} {type : Storage} (htype : s.storage? slot = some type)
    {v : Value} {k : Constant} (hk : s.constant? v = some k) (hfits : c.Fits slot v) :
    s.module.compatible type k.type = true := by
  rcases hfits with hslot | ⟨hptr, rfl⟩
  · obtain rfl := Option.some.inj (htype.symm.trans (storage?_of_shape? hk hslot))
    exact Module.compatible_self _
  · obtain hptr := Option.some.inj (storage?_of_shape? hk hptr)
    obtain rfl := Option.some.inj htype
    rw [← hptr]
    exact Module.compatible_int_ptr hwidth.symm

/-- Values that fit slots one by one are compatible with them. -/
theorem compatible_of_forall₂ {slots : List Shape} {types : List Storage}
    (htypes : List.Forall₂ (fun slot type => s.storage? slot = some type) slots types)
    {vs : List Value} {ks : List Constant} (hks : s.constants? vs = some ks)
    (hfits : List.Forall₂ c.Fits slots vs) :
    List.Forall₂ (fun type k => s.module.compatible type k.type = true) types ks := by
  rw [constants?_eq_some_iff] at hks
  induction htypes generalizing vs ks with
  | nil =>
    cases hfits
    cases hks
    exact .nil
  | cons htype _ ih =>
    cases hfits with
    | cons hfit hfits =>
      cases hks with
      | cons hk hks => exact .cons (compatible_of_fits hwidth htype hk hfit) (ih hks hfits)

variable (hs : s.Coherent c known) (hnames : c.DistinctNames known)

include hs hnames

/-- **Conforming contents are written down without faults.** -/
theorem constantFaults_eq_nil {values : DescriptorId → Prop} {v : Value}
    (hv : c.Conforms values v) {k : Constant} (hk : s.constant? v = some k) :
    s.module.constantFaults k = [] := by
  have inside : ∀ {vs : List Value}, (∀ v ∈ vs, ∀ {k}, s.constant? v = some k →
      s.module.constantFaults k = []) → ∀ {ks : List Constant}, s.constants? vs = some ks →
        ∀ k ∈ ks, s.module.constantFaults k = [] := by
    intro vs ih ks hks k hmem
    obtain ⟨v, hv, hk⟩ :=
      Partial.exists_of_forall₂_right (constants?_eq_some_iff.1 hks) hmem
    exact ih v hv hk
  induction hv generalizing k with
  | int positive encoded range =>
    obtain rfl := Option.some.inj hk
    exact Module.constantFaults_int_eq_nil_iff.2 ⟨positive, encoded, range⟩
  | zeroed =>
    obtain ⟨type, -, rfl⟩ := Option.map_eq_some_iff.1 hk
    rfl
  | @named t fields slots body fit _ ih =>
    obtain ⟨id, ks, hid, hks, rfl⟩ := constant?_named_eq_some_iff.1 hk
    obtain ⟨hlt, slots', hbody, hfields, -⟩ := hs.toLaidOut.body hnames hid
    obtain rfl := Option.some.inj (hbody.symm.trans body)
    exact Module.constantFaults_named_eq_nil_iff.2
      ⟨hlt, compatible_of_forall₂ hwidth hfields hks fit, inside ih hks⟩
  | anon _ ih =>
    obtain ⟨ks, hks, rfl⟩ := constant?_anon_eq_some_iff.1 hk
    exact Module.constantFaults_anon_eq_nil_iff.2 (inside ih hks)
  | array fit _ ih =>
    obtain ⟨type, ks, htype, hks, rfl⟩ := constant?_array_eq_some_iff.1 hk
    refine Module.constantFaults_array_eq_nil_iff.2 fun k hmem => ⟨?_, inside ih hks k hmem⟩
    obtain ⟨v, hv, hk⟩ :=
      Partial.exists_of_forall₂_right (constants?_eq_some_iff.1 hks) hmem
    exact compatible_of_fits hwidth htype hk (Or.inl (fit v hv))
  | reference =>
    obtain ⟨g, hg, rfl⟩ := Option.map_eq_some_iff.1 hk
    exact Module.constantFaults_globalAddr_eq_nil_iff.2
      (hs.not_removed (Partial.mem_of_lookup_eq_some hg))
  | function =>
    obtain ⟨f, hf, rfl⟩ := Option.map_eq_some_iff.1 hk
    obtain ⟨-, x, hx, -⟩ := hs.functions _ _ hf
    exact Module.constantFaults_functionAddr_eq_nil_iff.2 (List.getElem?_eq_some_iff.1 hx).1

end DataImage.Image
