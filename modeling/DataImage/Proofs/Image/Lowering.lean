import DataImage.Proofs.Catalog.Bytes
import DataImage.Proofs.Build.Resolve

/-!
# Lowering a coherent image

In a coherent image whose types have different names, structs are as large as the catalog says
(`Image.structSize_eq`), so constants have the bytes of the values they were written down from
(`Image.constantBytes_eq`), and a global has the blob of the value it stands for
(`Image.globalBlob_eq`).
-/

namespace DataImage

/-- No two types of a set have the same name. -/
def Catalog.DistinctNames (c : Catalog) (known : TypeId → Prop) : Prop :=
  ∀ t u, known t → known u → c.typeName t = c.typeName u → t = u

namespace Image

variable {c : Catalog} {known : TypeId → Prop} {s : Image}

/-! ## Structs -/

/-- The struct of a type has the body of the type. -/
theorem LaidOut.body (h : s.LaidOut c known) (hnames : c.DistinctNames known) {t : TypeId}
    {id : StructId} (hid : s.layouts.lookup t = some id) :
    id.index < s.module.structs.length ∧ ∃ slots, c.body? t = some slots ∧
      List.Forall₂ (fun slot type => s.storage? slot = some type) slots
        (s.module.struct id).fields ∧
      ∀ slot ∈ slots, ∀ u ∈ slot.layouts, ∃ id', s.layouts.lookup u = some id' ∧
        id'.index < id.index := by
  obtain ⟨ht, -, x, hx, hname⟩ := h.layouts t id hid
  obtain ⟨u, slots, hu, hbody, hfields, hinner⟩ := h.structs id.index x hx
  obtain ⟨hu', -, y, hy, hname'⟩ := h.layouts u ⟨id.index⟩ hu
  obtain rfl := Option.some.inj (hx.symm.trans hy)
  obtain rfl := hnames t u ht hu' (Option.some.inj (hname.symm.trans hname'))
  refine ⟨(List.getElem?_eq_some_iff.1 hx).1, slots, hbody, ?_, hinner⟩
  rwa [Module.struct, List.getD_eq_getElem?_getD, hx, Option.getD_some]

/-- Types with the same struct are the same. -/
theorem LaidOut.eq_of_lookup (h : s.LaidOut c known) (hnames : c.DistinctNames known)
    {t u : TypeId} {id : StructId} (ht : s.layouts.lookup t = some id)
    (hu : s.layouts.lookup u = some id) : t = u := by
  obtain ⟨hkt, -, x, hx, hname⟩ := h.layouts t id ht
  obtain ⟨hku, -, y, hy, hname'⟩ := h.layouts u id hu
  obtain rfl := Option.some.inj (hx.symm.trans hy)
  exact hnames t u hkt hku (Option.some.inj (hname.symm.trans hname'))

/-! ## Sizes -/

section

variable {layout : DataLayout} {size : StructId → Nat}

theorem sizeWith_storage? {slot : Shape} {type : Storage} (htype : s.storage? slot = some type)
    (hsize : ∀ u ∈ slot.layouts, ∀ id, s.layouts.lookup u = some id →
      c.layoutSize? u = some (size id)) :
    slot.size? layout.pointerBytes c.layoutSize? = some (layout.sizeWith size type) := by
  induction slot generalizing type with
  | int bits =>
    obtain rfl := Option.some.inj htype
    rfl
  | ptr =>
    obtain rfl := Option.some.inj htype
    rfl
  | layout u =>
    obtain ⟨id, hid, rfl⟩ := Option.map_eq_some_iff.1 htype
    exact hsize u List.mem_cons_self id hid
  | array element count ih =>
    obtain ⟨type', htype', rfl⟩ := Option.map_eq_some_iff.1 htype
    rw [Shape.size?, ih htype' hsize, Option.map_some, DataLayout.sizeWith]

theorem sizesWith_storage? {slots : List Shape} {types : List Storage}
    (htypes : List.Forall₂ (fun slot type => s.storage? slot = some type) slots types)
    (hsize : ∀ slot ∈ slots, ∀ u ∈ slot.layouts, ∀ id, s.layouts.lookup u = some id →
      c.layoutSize? u = some (size id)) :
    Shape.sizes? layout.pointerBytes c.layoutSize? slots =
      some (layout.sizesWith size types) := by
  induction htypes with
  | nil => rfl
  | cons htype _ ih =>
    rw [Shape.sizes?, sizeWith_storage? htype (hsize _ List.mem_cons_self), Option.bind_some,
      ih fun slot hslot => hsize slot (List.mem_cons_of_mem _ hslot), Option.map_some,
      DataLayout.sizesWith]

end

variable (h : s.LaidOut c known) (hnames : c.DistinctNames known)
  {layout : DataLayout} (hlayout : layout.pointerBytes = c.pointerSize)

include h hnames hlayout

/-- Structs hold structs of smaller position only. -/
theorem structSizeWithin_eq {depth : Nat} {t : TypeId} {id : StructId}
    (hid : s.layouts.lookup t = some id) (hdepth : id.index < depth) :
    c.layoutSize? t = some (layout.structSizeWithin s.module depth id) := by
  induction depth generalizing t id with
  | zero => exact absurd hdepth (Nat.not_lt_zero _)
  | succ depth ih =>
    obtain ⟨-, slots, hbody, hfields, hinner⟩ := h.body hnames hid
    rw [Catalog.layoutSize?_eq, hbody, Option.bind_some, ← hlayout,
      sizesWith_storage? hfields, DataLayout.structSizeWithin]
    intro slot hslot u hu id' hid'
    obtain ⟨id'', hid'', hlt⟩ := hinner slot hslot u hu
    obtain rfl := Option.some.inj (hid'.symm.trans hid'')
    exact ih hid' (by omega)

/-- **Structs are as large as the catalog says.** -/
theorem structSize_eq {t : TypeId} {id : StructId} (hid : s.layouts.lookup t = some id) :
    c.layoutSize? t = some (layout.structSize s.module id) :=
  structSizeWithin_eq h hnames hlayout hid (h.body hnames hid).1

theorem sizeOf_storage? {slot : Shape} {type : Storage} (htype : s.storage? slot = some type) :
    layout.sizeOf s.module type = c.shapeSize slot := by
  rw [Catalog.shapeSize, ← hlayout, sizeWith_storage? htype, Option.getD_some, DataLayout.sizeOf]
  exact fun u _ id hid => structSize_eq h hnames hlayout hid

omit h hnames hlayout in
theorem sizesWith_types {vs : List Value} {ks : List Constant}
    (ih : ∀ v ∈ vs, ∀ k, s.constant? v = some k → layout.sizeOf s.module k.type = c.valueSize v)
    (hks : s.constants? vs = some ks) :
    layout.sizesWith (layout.structSize s.module) (Constant.types ks) = c.valuesSize vs := by
  rw [constants?_eq_some_iff] at hks
  induction hks with
  | nil => rfl
  | cons hk _ rest =>
    have hsize := ih _ List.mem_cons_self _ hk
    rw [DataLayout.sizeOf] at hsize
    rw [Constant.types, DataLayout.sizesWith, Catalog.valuesSize, hsize,
      rest fun v hv => ih v (List.mem_cons_of_mem _ hv)]

/-- The type of a constant is as large as that of the value it was written down from. -/
theorem sizeOf_type {v : Value} {k : Constant} (hk : s.constant? v = some k) :
    layout.sizeOf s.module k.type = c.valueSize v := by
  induction v using Value.induct generalizing k with
  | int bits value signed =>
    obtain rfl := Option.some.inj hk
    rfl
  | zeroed shape =>
    obtain ⟨type, htype, rfl⟩ := Option.map_eq_some_iff.1 hk
    exact sizeOf_storage? h hnames hlayout htype
  | named t fields ih =>
    obtain ⟨id, ks, hid, -, rfl⟩ := constant?_named_eq_some_iff.1 hk
    have htype : s.storage? (.layout t) = some (.struct id) := by
      rw [storage?, hid, Option.map_some]
    exact sizeOf_storage? h hnames hlayout htype
  | anon fields ih =>
    obtain ⟨ks, hks, rfl⟩ := constant?_anon_eq_some_iff.1 hk
    exact sizesWith_types (fun f hf k => ih f hf) hks
  | array shape elements ih =>
    obtain ⟨element, ks, helement, hks, rfl⟩ := constant?_array_eq_some_iff.1 hk
    have hlen := (constants?_eq_some_iff.1 hks).length_eq
    have hsize := sizeOf_storage? h hnames hlayout helement
    rw [Constant.type, DataLayout.sizeOf, DataLayout.sizeWith, Catalog.valueSize, ← hlen]
    exact congrArg (elementsSize · _) hsize
  | reference d =>
    obtain ⟨g, -, rfl⟩ := Option.map_eq_some_iff.1 hk
    exact hlayout
  | function m =>
    obtain ⟨f, -, rfl⟩ := Option.map_eq_some_iff.1 hk
    exact hlayout

/-! ## Bytes -/

omit h hnames hlayout in
theorem Registered.globalName_eq (h : s.Registered c) {d : DescriptorId} {g : GlobalId}
    (hd : s.global? d = some g) : s.module.globalName (s.module.resolve g) = c.nameOf d := by
  obtain ⟨v, x, hv, hx, hstands⟩ := h.stands d g (Partial.mem_of_lookup_eq_some hd)
  have hglobal := Module.global_eq_of_getElem? hx
  rw [Module.resolve_of_live (by rw [hglobal, hstands.live]), Module.globalName, hglobal,
    Module.symbol, SymbolTable.name_eq_of_getElem? hstands.name, Catalog.nameOf, hv]

omit hnames hlayout in
theorem LaidOut.functionName_eq {m : MethodId} {f : FunctionId}
    (hm : s.declarations.lookup m = some f) : s.module.functionName f = c.methodSymbol m := by
  obtain ⟨-, x, hx, hname⟩ := h.functions m f hm
  rw [Module.functionName, Module.function, List.getD_eq_getElem?_getD, hx, Option.getD_some,
    Module.symbol, SymbolTable.name_eq_of_getElem? hname]

omit h hlayout

variable (hs : s.Coherent c known)

include hs

omit hnames hs in
theorem constantsBytes_of {kind : RelocationKind} {vs : List Value} {ks : List Constant}
    (ih : ∀ v ∈ vs, ∀ k, s.constant? v = some k → ∀ offset,
      s.module.constantBytes c.dataLayout kind offset k = c.valueBytes kind offset v)
    (hks : s.constants? vs = some ks) (offset : Nat) :
    s.module.constantsBytes c.dataLayout kind offset ks = c.valuesBytes kind offset vs := by
  rw [constants?_eq_some_iff] at hks
  induction hks generalizing offset with
  | nil => rfl
  | cons hk _ rest =>
    rw [Module.constantsBytes, Catalog.valuesBytes, ih _ List.mem_cons_self _ hk]
    refine bind_congr fun piece => ?_
    obtain ⟨bytes, relocations⟩ := piece
    dsimp only
    rw [rest fun v hv => ih v (List.mem_cons_of_mem _ hv)]

/-- **A constant has the bytes of the value it was written down from.** -/
theorem constantBytes_eq {v : Value} {k : Constant} (hk : s.constant? v = some k)
    (kind : RelocationKind) (offset : Nat) :
    s.module.constantBytes c.dataLayout kind offset k = c.valueBytes kind offset v := by
  induction v using Value.induct generalizing k offset with
  | int bits value signed =>
    obtain rfl := Option.some.inj hk
    rfl
  | zeroed shape =>
    obtain ⟨type, htype, rfl⟩ := Option.map_eq_some_iff.1 hk
    rw [Module.constantBytes_zeroed, Catalog.valueBytes,
      sizeOf_storage? hs.toLaidOut hnames rfl htype]
  | named t fields ih =>
    obtain ⟨id, ks, -, hks, rfl⟩ := constant?_named_eq_some_iff.1 hk
    exact constantsBytes_of (fun f hf k hk offset => ih f hf hk offset) hks offset
  | anon fields ih =>
    obtain ⟨ks, hks, rfl⟩ := constant?_anon_eq_some_iff.1 hk
    exact constantsBytes_of (fun f hf k hk offset => ih f hf hk offset) hks offset
  | array shape elements ih =>
    obtain ⟨element, ks, -, hks, rfl⟩ := constant?_array_eq_some_iff.1 hk
    exact constantsBytes_of (fun f hf k hk offset => ih f hf hk offset) hks offset
  | reference d =>
    obtain ⟨g, hg, rfl⟩ := Option.map_eq_some_iff.1 hk
    rw [Module.constantBytes, Catalog.valueBytes, hs.globalName_eq hg]
  | function m =>
    obtain ⟨f, hf, rfl⟩ := Option.map_eq_some_iff.1 hk
    rw [Module.constantBytes, Catalog.valueBytes, hs.functionName_eq hf]

/-- The global of a value with contents is of a type as large as the catalog says. -/
theorem sizeOf_global {d : DescriptorId} {g : GlobalId} {v : Descriptor} {w : Value}
    (hd : (d, g) ∈ s.entries) (hfilled : s.IsFilled g) (hv : c.descriptor? d = some v)
    (hw : c.contents? d = some w) :
    c.dataLayout.sizeOf s.module (s.module.global g).type = c.globalSize v w := by
  obtain ⟨v', x, hv', hx, hstands⟩ := hs.stands d g hd
  obtain rfl := Option.some.inj (hv.symm.trans hv')
  obtain ⟨y, hy, hk⟩ := hfilled
  obtain rfl := Option.some.inj (hx.symm.trans hy)
  obtain ⟨k, hk⟩ := Option.isSome_iff_exists.1 hk
  obtain ⟨w', hw', hwk, htype⟩ := hstands.filled k hk
  obtain rfl := Option.some.inj (hw.symm.trans hw')
  rw [Module.global_eq_of_getElem? hx, Catalog.globalSize]
  split
  · rename_i htakes
    rw [htype htakes, sizeOf_type hs.toLaidOut hnames rfl hwk]
  · rename_i htakes
    obtain ⟨id, hid, htyped⟩ := hstands.typed (Bool.eq_false_iff.2 htakes)
    have hstorage : s.storage? (.layout v.context) = some x.type := by
      rw [storage?, hid, Option.map_some, htyped]
    exact sizeOf_storage? hs.toLaidOut hnames rfl hstorage

/-- **A global with contents has the blob of the value it stands for.** -/
theorem globalBlob_eq {d : DescriptorId} {g : GlobalId} (hd : (d, g) ∈ s.entries)
    (hfilled : s.IsFilled g) (kind : RelocationKind) :
    ∃ v w, c.descriptor? d = some v ∧ c.contents? d = some w ∧
      s.module.globalBlob c.dataLayout kind (s.module.global g) = c.blobOf kind d v w := by
  obtain ⟨v, x, hv, hx, hstands⟩ := hs.stands d g hd
  have ⟨y, hy, hk⟩ := hfilled
  obtain rfl := Option.some.inj (hx.symm.trans hy)
  obtain ⟨k, hk⟩ := Option.isSome_iff_exists.1 hk
  obtain ⟨w, hw, hwk, -⟩ := hstands.filled k hk
  have hglobal := Module.global_eq_of_getElem? hx
  have hname : s.module.symbol x.name = c.globalName d v :=
    SymbolTable.name_eq_of_getElem? hstands.name
  have hsize : c.dataLayout.sizeOf? s.module x.type = word? (c.globalSize v w) := by
    rw [DataLayout.sizeOf?_eq, ← hglobal, sizeOf_global hnames hs hd hfilled hv hw]
  refine ⟨v, w, hv, hw, ?_⟩
  rw [hglobal, Module.globalBlob, Catalog.blobOf, hk]
  simp only [hname, constantBytes_eq hnames hs hwk, hsize, hstands.constant, Bool.not_not]

end Image

end DataImage
