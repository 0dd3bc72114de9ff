import DataImage.Proofs.Catalog.Geometry
import DataImage.Proofs.Image.Verified

/-!
# What a verification has checked

If the constant that some contents were written down as has no faults (`Image.Faultless`), each slot
accepts the value that it holds (`Image.Accepts`). A slot for a type that is held by reference
accepts addresses only, and a slot for a type that is held in place accepts only an instance of that
very type (`Accepts.object_of_contents`): the contents of strings and arrays end in characters or
elements, for which no struct has room.
-/

namespace DataImage

/-! ## Open structs -/

namespace Module

variable {m : Module}

/-- Only an array accepts an array. -/
theorem array_of_compatibleWith {opened : List Storage → List Storage → Bool}
    {expected element : Storage} {count : Nat}
    (h : m.compatibleWith opened expected (.array element count) = true) :
    ∃ element' count', expected = .array element' count' := by
  cases expected with
  | array element' count' => exact ⟨element', count', rfl⟩
  | int bits => simp [compatibleWith] at h
  | ptr => simp [compatibleWith] at h
  | struct id => simp [compatibleWith] at h
  | anon fields => simp [compatibleWith] at h

/-- A struct that accepts a struct without name with an array among its fields has an array among
its own. -/
theorem array_of_compatible_anon {id : StructId} {fields : List Storage} {element : Storage}
    {count : Nat} (h : m.compatible (.struct id) (.anon fields) = true)
    (hmem : .array element count ∈ fields) :
    ∃ element' count', .array element' count' ∈ (m.struct id).fields := by
  have hopened : m.opened (m.struct id).fields fields = true := h
  unfold opened at hopened
  dsimp only at hopened
  generalize (m.fieldListCount (m.struct id).fields + m.fieldListCount fields) *
    (m.fieldListCount (m.struct id).fields + m.fieldListCount fields) = depth at hopened
  cases depth with
  | zero => cases hopened
  | succ depth =>
    obtain ⟨expected, hexpected, haccepts⟩ :=
      Partial.exists_of_forall₂_right (forall₂_of_compatibleAllWith hopened) hmem
    obtain ⟨element', count', rfl⟩ := array_of_compatibleWith haccepts
    exact ⟨element', count', hexpected⟩

end Module

/-! ## Contents with names -/

namespace Catalog

variable {c : Catalog} {part : DescriptorId → Option Value}

/-- Contents without name have an array among their fields. -/
def EndsInArray (v : Value) : Prop :=
  ∃ fields element elements, v = .anon fields ∧ .array element elements ∈ fields

theorem class?_form {o : ObjectValue} {base v : Value} {t : TypeId}
    (h : c.class? part o base t = some v) : v.shape? = some (.layout t) ∨ EndsInArray v := by
  obtain ⟨own, -, ⟨-, chars, hchars, rfl⟩ | ⟨-, -, rfl⟩⟩ := class?_eq_some_iff.1 h
  · obtain ⟨-, units, -, rfl⟩ := characters?_eq_some_iff.1 hchars
    exact Or.inr ⟨_, _, _, rfl, List.mem_append_right _ (List.mem_singleton.2 rfl)⟩
  · exact Or.inl rfl

theorem Chain.form {o : ObjectValue} {top v : Value} {t : TypeId} {ts : List TypeId}
    (ht : c.Chain t ts) (htop : top.shape? = some (.layout Core.object))
    (h : ts.foldlM (c.class? part o) top = some v) :
    v.shape? = some (.layout t) ∨ EndsInArray v := by
  cases ht with
  | root =>
    obtain rfl := Option.some.inj h
    exact Or.inl htop
  | derived =>
    rw [List.foldlM_append, Option.bind_eq_bind, Option.bind_eq_some_iff] at h
    obtain ⟨base, -, hlast⟩ := h
    rw [List.foldlM_cons, Option.bind_eq_bind, Option.bind_eq_some_iff] at hlast
    obtain ⟨v', hv', hlast⟩ := hlast
    obtain rfl := Option.some.inj hlast
    exact class?_form hv'

/-- The contents of a value have the type of the value, or have no name. -/
theorem SoundGeometry.valueAs?_form (hsound : c.SoundGeometry) (hc : c.Rooted) {w : Descriptor}
    {v : Value} (h : c.valueAs? part w w.context = some v) :
    EndsInArray v ∨ v.shape? = some (.layout w.context) ∧ ∃ o, w = .object o ∧
      ((c.typeDef o.context).kind = .reference ∨ (c.typeDef o.context).kind = .valueType) := by
  cases w with
  | array a =>
    obtain ⟨element, base, elements, -, -, -, -, rfl⟩ := array?_eq_some_iff.1 h
    exact Or.inl ⟨_, _, _, rfl, List.mem_cons_of_mem _ (List.mem_singleton.2 rfl)⟩
  | object o =>
    obtain ⟨a, top, ha, htop, hbelow⟩ := object?_eq_some_iff.1 h
    rcases kind_of_ancestry ha with hkind | hkind
    · obtain ⟨ts, hchain⟩ := hsound.rooted _ hkind
      obtain rfl := Except.ok.inj (ha.symm.trans (hchain.ancestry_eq hc))
      have htop' : top.shape? = some (.layout Core.object) := by
        obtain ⟨-, hheader⟩ | ⟨hne, -⟩ := top?_eq_some_iff.1 htop
        · obtain ⟨vtable, word, -, -, -, -, rfl⟩ := header?_eq_some_iff.1 hheader
          rfl
        · exact absurd rfl hne
      exact (hchain.form htop' hbelow).symm.imp_right fun hshape => ⟨hshape, o, rfl, Or.inl hkind⟩
    · obtain rfl := Except.ok.inj (ha.symm.trans (ancestry_of_valueType hkind))
      obtain rfl := Option.some.inj hbelow
      obtain ⟨hobject, -⟩ | ⟨-, -, fields, -, rfl⟩ := top?_eq_some_iff.1 htop
      · exact absurd hobject (hc.ne_object_of_valueType hkind)
      · exact Or.inr ⟨rfl, o, rfl, Or.inr hkind⟩

/-- A struct that is held in place has no arrays among its fields. -/
theorem ne_array_of_body? {t : TypeId} (ht : (c.typeDef t).isHeldByReference = false)
    {slots : List Shape} (hbody : c.body? t = some slots) {slot : Shape} (hslot : slot ∈ slots)
    (element : Shape) (count : Nat) : slot ≠ .array element count := by
  rintro rfl
  have shape : ∀ u, c.shapeOf u ≠ .array element count := by
    intro u
    rw [shapeOf]
    split <;> exact fun heq => by cases heq
  rcases kind_of_inPlace ht with hscalar | hkind
  · rw [body?_of_isScalar hscalar (fitsWidth_of_body? hscalar hbody)] at hbody
    obtain rfl := Option.some.inj hbody
    cases List.mem_singleton.1 hslot
  · rw [body?, hkind] at hbody
    obtain ⟨p, -, hp⟩ :=
      Partial.exists_of_forall₂_right (Partial.mapM_eq_some_iff.1 hbody) hslot
    obtain ⟨u, hu⟩ := exists_shapeOf_of_partShape? hp
    exact shape u hu.symm

end Catalog

/-! ## Checked contents -/

namespace Image

/-- Whether contents were written down as a constant without faults. -/
def Faultless (s : Image) (v : Value) : Prop :=
  ∃ k, s.constant? v = some k ∧ s.module.constantFaults k = []

/-- Whether contents were written down as a constant that may fill a slot. -/
def Accepts (s : Image) (slot : Shape) (v : Value) : Prop :=
  ∃ type k, s.storage? slot = some type ∧ s.constant? v = some k ∧
    s.module.compatible type k.type = true

variable {c : Catalog} {known : TypeId → Prop} {s : Image}

theorem faultless_of_constants? {vs : List Value} {ks : List Constant}
    (hks : s.constants? vs = some ks) (h : ∀ k ∈ ks, s.module.constantFaults k = []) :
    ∀ v ∈ vs, s.Faultless v := by
  intro v hv
  obtain ⟨k, hk, hvk⟩ :=
    Partial.exists_of_forall₂_right (constants?_eq_some_iff.1 hks).flip hv
  exact ⟨k, hvk, h k hk⟩

theorem Faultless.anon {fields : List Value} (h : s.Faultless (.anon fields)) :
    ∀ v ∈ fields, s.Faultless v := by
  obtain ⟨k, hk, hfaults⟩ := h
  obtain ⟨ks, hks, rfl⟩ := constant?_anon_eq_some_iff.1 hk
  exact faultless_of_constants? hks (Module.constantFaults_anon_eq_nil_iff.1 hfaults)

theorem Faultless.array {element : Shape} {elements : List Value}
    (h : s.Faultless (.array element elements)) :
    ∀ v ∈ elements, s.Accepts element v ∧ s.Faultless v := by
  obtain ⟨k, hk, hfaults⟩ := h
  obtain ⟨type, ks, htype, hks, rfl⟩ := constant?_array_eq_some_iff.1 hk
  have hall := Module.constantFaults_array_eq_nil_iff.1 hfaults
  intro v hv
  obtain ⟨k, hk, hvk⟩ :=
    Partial.exists_of_forall₂_right (constants?_eq_some_iff.1 hks).flip hv
  exact ⟨⟨type, k, htype, hvk, (hall k hk).1⟩, k, hvk, (hall k hk).2⟩

theorem Faultless.reference {d : DescriptorId} (h : s.Faultless (.reference d)) :
    ∃ g, s.global? d = some g := by
  obtain ⟨k, hk, -⟩ := h
  obtain ⟨g, hg, -⟩ := Option.map_eq_some_iff.1 hk
  exact ⟨g, hg⟩

variable (hs : s.LaidOut c known) (hnames : c.DistinctNames known)

include hs hnames

omit hs hnames in
theorem accepts_of_forall₂ {slots : List Shape} {types : List Storage}
    (htypes : List.Forall₂ (fun slot type => s.storage? slot = some type) slots types)
    {vs : List Value} {ks : List Constant} (hks : s.constants? vs = some ks)
    (hfits : List.Forall₂ (fun type k => s.module.compatible type k.type = true) types ks) :
    List.Forall₂ s.Accepts slots vs := by
  rw [constants?_eq_some_iff] at hks
  induction htypes generalizing vs ks with
  | nil =>
    cases hfits
    cases hks
    exact .nil
  | cons htype _ ih =>
    cases hfits with
    | cons hfit hfits =>
      cases hks with
      | cons hk hks => exact .cons ⟨_, _, htype, hk, hfit⟩ (ih hks hfits)

/-- The slots of a struct without faults accept what fills them. -/
theorem Faultless.named {t : TypeId} {fields : List Value} (h : s.Faultless (.named t fields)) :
    ∃ slots, c.body? t = some slots ∧ List.Forall₂ s.Accepts slots fields ∧
      ∀ v ∈ fields, s.Faultless v := by
  obtain ⟨k, hk, hfaults⟩ := h
  obtain ⟨id, ks, hid, hks, rfl⟩ := constant?_named_eq_some_iff.1 hk
  obtain ⟨-, hfits, hinner⟩ := Module.constantFaults_named_eq_nil_iff.1 hfaults
  obtain ⟨-, slots, hbody, hfields, -⟩ := hs.body hnames hid
  exact ⟨slots, hbody, accepts_of_forall₂ hfields hks hfits, faultless_of_constants? hks hinner⟩

omit hs hnames in
/-- Addresses fill the slots of types that are held by reference. -/
theorem Accepts.held {t : TypeId} {v : Value} (h : s.Accepts (c.shapeOf t) v)
    (hv : v.shape? = some .ptr) : (c.typeDef t).isHeldByReference = true := by
  obtain ⟨type, k, htype, hk, hfits⟩ := h
  obtain hptr := Option.some.inj (storage?_of_shape? hk hv)
  by_contra hheld
  rw [Catalog.shapeOf, if_neg hheld] at htype
  obtain ⟨id, -, rfl⟩ := Option.map_eq_some_iff.1 htype
  rw [← hptr] at hfits
  simp [Module.compatible, Module.compatibleWith] at hfits

/-- The slot of a type that is held in place accepts no other struct. -/
theorem Accepts.eq_of_layout {t u : TypeId} {v : Value} (h : s.Accepts (c.shapeOf t) v)
    (hv : v.shape? = some (.layout u)) : t = u ∧ (c.typeDef t).isHeldByReference = false := by
  obtain ⟨type, k, htype, hk, hfits⟩ := h
  have hstorage := storage?_of_shape? hk hv
  obtain ⟨id, hid, hstruct⟩ := Option.map_eq_some_iff.1 hstorage
  rw [← hstruct] at hfits
  rw [Catalog.shapeOf] at htype
  split at htype
  · obtain rfl := Option.some.inj htype
    simp [Module.compatible, Module.compatibleWith] at hfits
  · rename_i hheld
    obtain ⟨id', hid', rfl⟩ := Option.map_eq_some_iff.1 htype
    simp only [Module.compatible, Module.compatibleWith, Storage.struct.injEq,
      decide_eq_true_eq] at hfits
    obtain rfl := hfits
    exact ⟨hs.eq_of_lookup hnames hid' hid, Bool.eq_false_iff.2 hheld⟩

/-- No slot of a field or an element accepts the contents of a string or of an array. -/
theorem Accepts.not_endsInArray {t : TypeId} {v : Value} (h : s.Accepts (c.shapeOf t) v) :
    ¬ Catalog.EndsInArray v := by
  rintro ⟨fields, element, elements, rfl, hmem⟩
  obtain ⟨type, k, htype, hk, hfits⟩ := h
  obtain ⟨ks, hks, rfl⟩ := constant?_anon_eq_some_iff.1 hk
  obtain ⟨k, hk, hvk⟩ :=
    Partial.exists_of_forall₂_right (constants?_eq_some_iff.1 hks).flip hmem
  obtain ⟨etype, eks, -, -, rfl⟩ := constant?_array_eq_some_iff.1 hvk
  rw [Catalog.shapeOf] at htype
  split at htype
  · obtain rfl := Option.some.inj htype
    simp [Module.compatible, Module.compatibleWith, Constant.anon, Constant.type] at hfits
  · rename_i hheld
    obtain ⟨id, hid, rfl⟩ := Option.map_eq_some_iff.1 htype
    rw [Constant.anon, Constant.type, Constant.types_eq_map] at hfits
    obtain ⟨element', count', hmem'⟩ :=
      Module.array_of_compatible_anon hfits (List.mem_map_of_mem (f := Constant.type) hk)
    obtain ⟨-, slots, hbody, hslots, -⟩ := hs.body hnames hid
    obtain ⟨slot, hslot, hstorage⟩ := Partial.exists_of_forall₂_right hslots hmem'
    cases slot with
    | int bits => cases hstorage
    | ptr => cases hstorage
    | layout u =>
      obtain ⟨id', -, heq⟩ := Option.map_eq_some_iff.1 hstorage
      cases heq
    | array element'' count'' =>
      exact Catalog.ne_array_of_body? (Bool.eq_false_iff.2 hheld) hbody hslot _ _ rfl

/-- **What is put in place** in a slot is an instance of the value type of the slot. -/
theorem Accepts.object_of_contents (hsound : c.SoundGeometry) (hc : c.Rooted) {t : TypeId}
    {d : DescriptorId} {w : Descriptor} {v : Value} (hw : c.descriptor? d = some w)
    (hv : c.contents? d = some v) (h : s.Accepts (c.shapeOf t) v) :
    ∃ o, w = .object o ∧ o.context = t ∧ (c.typeDef t).kind = .valueType := by
  rw [Catalog.contents?_eq, hw, Option.bind_some] at hv
  rcases hsound.valueAs?_form hc hv with harray | ⟨hshape, o, rfl, hkind⟩
  · exact absurd harray (h.not_endsInArray hs hnames)
  · obtain ⟨rfl, hheld⟩ := h.eq_of_layout hs hnames hshape
    refine ⟨o, rfl, rfl, hkind.resolve_left fun hreference => ?_⟩
    rw [Descriptor.context, TypeDef.isHeldByReference, hreference] at hheld
    cases hheld

end Image

end DataImage
