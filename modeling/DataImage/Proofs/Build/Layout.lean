import DataImage.Proofs.Build.Runs

/-!
# Layouts of declared types

Laying a type out gives the struct with the body that the catalog says (`Build.layoutOf_runs`), and
leaves the globals of an image alone. Structs are found by their names, and a type that was laid out
keeps its struct.
-/

namespace DataImage

namespace Image

variable {c : Catalog} {known : TypeId → Prop} {s s' : Image}

/-- `s'` differs from `s` in its structs only. -/
structure SameUses (s s' : Image) : Prop where
  entries : s'.entries = s.entries
  declarations : s'.declarations = s.declarations

theorem SameUses.refl (s : Image) : s.SameUses s := ⟨rfl, rfl⟩

theorem SameUses.trans {s'' : Image} (h : s.SameUses s') (h' : s'.SameUses s'') :
    s.SameUses s'' :=
  ⟨h'.entries.trans h.entries, h'.declarations.trans h.declarations⟩

/-- The types in a shape that can be written down were laid out. -/
theorem exists_layout_of_storage? {shape : Shape} {type : Storage}
    (h : s.storage? shape = some type) {u : TypeId} (hu : u ∈ shape.layouts) :
    ∃ id, s.layouts.lookup u = some id := by
  induction shape generalizing type with
  | int bits => simp [Shape.layouts] at hu
  | ptr => simp [Shape.layouts] at hu
  | layout t =>
    obtain ⟨id, hid, -⟩ := Option.map_eq_some_iff.1 h
    obtain rfl := List.mem_singleton.1 hu
    exact ⟨id, hid⟩
  | array element count ih =>
    obtain ⟨type', htype, -⟩ := Option.map_eq_some_iff.1 h
    exact ih htype hu

/-! ## Declaring a struct -/

/-- The image with a type laid out as the struct at a position. -/
def putLayout (s : Image) (m : Module) (t : TypeId) (id : StructId) : Image :=
  { s with module := m, layouts := Keyed.put t id s.layouts }

/-- A type that was laid out has the struct of its name. -/
theorem LaidOut.name_eq (h : s.LaidOut c known) {table : SymbolTable}
    (htable : s.module.symbols.names <+: table.names) {t : TypeId} {n : SymbolId}
    (hn : table.names[n.index]? = some (c.typeName t)) {id : StructId}
    (hid : s.layouts.lookup t = some id) :
    ∃ x, s.module.structs[id.index]? = some x ∧ x.name = n := by
  obtain ⟨-, -, x, hx, hname⟩ := h.layouts t id hid
  exact ⟨x, hx, SymbolTable.eq_of_getElem? (Partial.getElem?_of_prefix htable hname) hn⟩

/-- A type that was laid out keeps its struct when a type is laid out as the struct of its name. -/
theorem LaidOut.lookup_put (h : s.LaidOut c known) {table : SymbolTable}
    (htable : s.module.symbols.names <+: table.names) {structs : List StructType}
    (hstructs : s.module.structs <+: structs) (hnames : (structs.map (·.name)).Nodup)
    {t : TypeId} {id : StructId} {y : StructType} (hy : structs[id.index]? = some y)
    (hname : table.names[y.name.index]? = some (c.typeName t)) {u : TypeId} {id' : StructId}
    (hu : s.layouts.lookup u = some id') : (Keyed.put t id s.layouts).lookup u = some id' := by
  rw [Keyed.lookup_put]
  split
  · rename_i hut
    subst hut
    obtain ⟨z, hz, hzname⟩ := h.name_eq htable hname hu
    have hz' := Partial.getElem?_of_prefix hstructs hz
    obtain ⟨hi, -⟩ := List.getElem?_eq_some_iff.1 hy
    have hindex : id.index = id'.index := by
      refine (List.getElem?_inj (by rwa [List.length_map]) hnames).1 ?_
      rw [List.getElem?_map, List.getElem?_map, hy, hz', Option.map_some, Option.map_some, hzname]
    cases id
    cases id'
    exact congrArg (some ∘ StructId.mk) hindex
  · exact hu

/-- Laying out a type as a struct of its name, which is the last one if it is new. -/
theorem Coherent.putLayout (h : s.Coherent c known) {table : SymbolTable}
    (htable : s.module.symbols.names <+: table.names) {t : TypeId} (ht : known t)
    {slots : List Shape} (hbody : c.body? t = some slots) {x : StructType}
    (hfields : List.Forall₂ (fun slot type => s.storage? slot = some type) slots x.fields)
    (hname : table.names[x.name.index]? = some (c.typeName t)) (new : List StructType)
    (id : StructId)
    (hnames : ((s.module.structs ++ new).map (·.name)).Nodup)
    (hid : ∃ y, (s.module.structs ++ new)[id.index]? = some y ∧ y.name = x.name)
    (hnew : new = [] ∨ new = [x] ∧ id.index = s.module.structs.length) :
    s.Grows (s.putLayout
      { s.module with symbols := table, structs := s.module.structs ++ new } t id) ∧
    (s.putLayout
      { s.module with symbols := table, structs := s.module.structs ++ new } t id).Coherent
        c known := by
  obtain ⟨y, hy, hyname⟩ := hid
  rw [← hyname] at hname
  have grows : s.Grows (s.putLayout
      { s.module with symbols := table, structs := s.module.structs ++ new } t id) :=
    { width := rfl
      aliases := rfl
      symbols := htable
      layouts := fun _ _ => h.lookup_put htable (List.prefix_append _ new) hnames hy hname
      declarations := fun _ _ h => h
      entries := List.prefix_refl _
      globals := List.prefix_refl _
      building := rfl }
  have inner : ∀ slot ∈ slots, ∀ u ∈ slot.layouts, ∃ id', s.layouts.lookup u = some id' := by
    intro slot hslot u hu
    obtain ⟨type, -, htype⟩ := Partial.exists_of_forall₂_right hfields.flip hslot
    exact exists_layout_of_storage? htype hu
  refine ⟨grows, ⟨⟨fun u id' hu => ?_, fun i z hz => ?_, hnames, fun m f hf => ?_⟩,
    h.toRegistered.extends grows.toExtends rfl rfl rfl⟩⟩
  · rw [Image.putLayout, Keyed.lookup_put] at hu
    split at hu
    · rename_i hut
      subst hut
      obtain rfl := Option.some.inj hu
      refine ⟨ht, Catalog.laid_iff.2 ⟨slots, hbody, fun slot hslot u hu => ?_⟩, y, hy, hname⟩
      obtain ⟨id', hid'⟩ := inner slot hslot u hu
      exact (h.layouts u id' hid').2.1
    · obtain ⟨hknown, hlaid, z, hz, hzname⟩ := h.layouts u id' hu
      exact ⟨hknown, hlaid, z, Partial.getElem?_of_prefix (List.prefix_append _ new) hz,
        grows.spells hzname⟩
  · rcases Nat.lt_or_ge i s.module.structs.length with hi | hi
    · rw [Image.putLayout, List.getElem?_append_left hi] at hz
      exact h.struct_extends grows.toExtends hz
    · rw [Image.putLayout, List.getElem?_append_right hi] at hz
      rcases hnew with rfl | ⟨rfl, hlast⟩
      · cases hz
      · obtain ⟨hlt, -⟩ := List.getElem?_eq_some_iff.1 hz
        rw [List.length_singleton] at hlt
        obtain rfl := List.mem_singleton.1 (List.mem_of_getElem? hz)
        have hindex : i = id.index := by omega
        refine ⟨t, slots, ?_, hbody, hfields.imp fun _ _ => grows.storage?, ?_⟩
        · rw [Image.putLayout, Keyed.lookup_put, if_pos rfl, hindex]
        · intro slot hslot u hu
          obtain ⟨id', hid'⟩ := inner slot hslot u hu
          obtain ⟨-, -, w, hw, -⟩ := h.layouts u id' hid'
          exact ⟨id', grows.layouts _ _ hid',
            Nat.lt_of_lt_of_le (List.getElem?_eq_some_iff.1 hw).1 hi⟩
  · obtain ⟨hm, z, hz, hzname⟩ := h.functions m f hf
    exact ⟨hm, z, hz, grows.spells hzname⟩

/-- **Declaring the struct of a type.** -/
theorem Coherent.declareStruct (h : s.Coherent c known) {t : TypeId} (ht : known t)
    {slots : List Shape} (hbody : c.body? t = some slots) {fields : List Storage}
    (hfields : List.Forall₂ (fun slot type => s.storage? slot = some type) slots fields) :
    ∃ id m, s.module.declareStruct (c.typeName t) fields = (id, m) ∧
      s.Grows (s.putLayout m t id) ∧ (s.putLayout m t id).Coherent c known := by
  have hprefix := s.module.symbols.names_prefix_intern (c.typeName t)
  have hname := s.module.symbols.getElem?_intern (c.typeName t)
  let x : StructType := ⟨(s.module.symbols.intern (c.typeName t)).1, fields⟩
  rw [Module.declareStruct, Module.intern_eq]
  simp only [Module.structOfSymbol?]
  cases hfind : s.module.structs.findIdx? (·.name = x.name) with
  | some i =>
    obtain ⟨hi, hxi, -⟩ := List.findIdx?_eq_some_iff_getElem.1 hfind
    have hput := h.putLayout hprefix ht hbody (x := x) hfields hname [] ⟨i⟩
      (by rw [List.append_nil]; exact h.structNames)
      ⟨_, by rw [List.append_nil]; exact List.getElem?_eq_getElem hi, of_decide_eq_true hxi⟩
      (Or.inl rfl)
    rw [List.append_nil] at hput
    exact ⟨⟨i⟩, _, rfl, hput⟩
  | none =>
    rw [List.findIdx?_eq_none_iff] at hfind
    refine ⟨⟨s.module.structs.length⟩, _, rfl,
      h.putLayout hprefix ht hbody (x := x) hfields hname _ _ ?_ ⟨x, by simp [x], rfl⟩
        (Or.inr ⟨rfl, rfl⟩)⟩
    rw [List.map_append, List.nodup_append']
    refine ⟨h.structNames, List.nodup_singleton _, ?_⟩
    intro n hn hn'
    obtain ⟨y, hy, rfl⟩ := List.mem_map.1 hn
    have := hfind y hy
    rw [decide_eq_false_iff_not] at this
    exact this (List.mem_singleton.1 hn')

/-! ## Declaring a function -/

/-- The image with a method declared as the function at a position. -/
def putDeclaration (s : Image) (mod : Module) (m : MethodId) (id : FunctionId) : Image :=
  { s with module := mod, declarations := Keyed.put m id s.declarations }

/-- Declaring a method that was not referred to as a function of its name. -/
theorem Coherent.putDeclaration (h : s.Coherent c known) {table : SymbolTable}
    (htable : s.module.symbols.names <+: table.names) {m : MethodId}
    (hnone : s.declarations.lookup m = none) (hm : c.Declarable m) (new : List FunctionDecl)
    (id : FunctionId) {x : FunctionDecl} (hx : (s.module.functions ++ new)[id.index]? = some x)
    (hname : table.names[x.name.index]? = some (c.methodSymbol m)) :
    s.Grows (s.putDeclaration
      { s.module with symbols := table, functions := s.module.functions ++ new } m id) ∧
    (s.putDeclaration
      { s.module with symbols := table, functions := s.module.functions ++ new } m id).Coherent
        c known := by
  have grows : s.Grows (s.putDeclaration
      { s.module with symbols := table, functions := s.module.functions ++ new } m id) :=
    { width := rfl
      aliases := rfl
      symbols := htable
      layouts := fun _ _ h => h
      declarations := fun m' id' hid => by
        rw [Image.putDeclaration, Keyed.lookup_put, if_neg]
        · exact hid
        · rintro rfl
          rw [hnone] at hid
          cases hid
      entries := List.prefix_refl _
      globals := List.prefix_refl _
      building := rfl }
  refine ⟨grows, ⟨⟨fun t id ht => ?_, fun i y hy => h.struct_extends grows.toExtends hy,
    h.structNames, fun m' id' hid => ?_⟩, h.toRegistered.extends grows.toExtends rfl rfl rfl⟩⟩
  · obtain ⟨hknown, hlaid, y, hy, hyname⟩ := h.layouts t id ht
    exact ⟨hknown, hlaid, y, hy, grows.spells hyname⟩
  · rw [Image.putDeclaration, Keyed.lookup_put] at hid
    split at hid
    · rename_i hmm
      subst hmm
      obtain rfl := Option.some.inj hid
      exact ⟨hm, x, hx, hname⟩
    · obtain ⟨hm', y, hy, hyname⟩ := h.functions m' id' hid
      exact ⟨hm', y, Partial.getElem?_of_prefix (List.prefix_append _ new) hy,
        grows.spells hyname⟩

/-- **Declaring the function of a method.** -/
theorem Coherent.declareFunction (h : s.Coherent c known) {m : MethodId}
    (hnone : s.declarations.lookup m = none) (hm : c.Declarable m) (params : List Storage)
    (result : Option Storage) :
    ∃ id mod, s.module.declareFunction (c.methodSymbol m) params result = (id, mod) ∧
      s.Grows (s.putDeclaration mod m id) ∧ (s.putDeclaration mod m id).Coherent c known := by
  have hprefix := s.module.symbols.names_prefix_intern (c.methodSymbol m)
  have hname := s.module.symbols.getElem?_intern (c.methodSymbol m)
  rw [Module.declareFunction, Module.intern_eq]
  dsimp only
  cases hfind : s.module.functions.findIdx?
      (·.name = (s.module.symbols.intern (c.methodSymbol m)).1) with
  | some i =>
    obtain ⟨hi, hxi, -⟩ := List.findIdx?_eq_some_iff_getElem.1 hfind
    rw [← of_decide_eq_true hxi] at hname
    have hput := h.putDeclaration hprefix hnone hm [] ⟨i⟩
      (by rw [List.append_nil]; exact List.getElem?_eq_getElem hi) hname
    rw [List.append_nil] at hput
    exact ⟨⟨i⟩, _, rfl, hput⟩
  | none =>
    exact ⟨⟨s.module.functions.length⟩, _, rfl,
      h.putDeclaration hprefix hnone hm [⟨_, params, result⟩] ⟨s.module.functions.length⟩
        List.getElem?_concat_length hname⟩

end Image

namespace Build

variable {c : Catalog} {known : TypeId → Prop} {s : Image}

/-! ## Laying out -/

section

variable {layout : TypeId → Build StructId} (hc : c.Closed known)
  (hlayout : ∀ u, known u → ∀ s, Image.Coherent c known s →
    Runs c known s (layout u) fun id s' => s'.layouts.lookup u = some id ∧ s.SameUses s')

include hlayout

theorem storageWith_runs {t : TypeId} (ht : known t) (hs : s.Coherent c known) :
    Runs c known s (storageWith c layout t) fun type s' =>
      s'.storage? (c.shapeOf t) = some type ∧ s.SameUses s' := by
  unfold storageWith Catalog.shapeOf
  split
  · exact Keeps.pure hs ⟨rfl, Image.SameUses.refl s⟩
  · refine (hlayout t ht s hs).bind fun id s' _ hs' hpost => ?_
    obtain ⟨hid, huses⟩ := hpost
    refine Keeps.pure hs' ⟨?_, huses⟩
    rw [Image.storage?, hid, Option.map_some]

include hc

theorem partStorage_runs (t : TypeId) (part : Part) (hs : s.Coherent c known) :
    Runs c known s (partStorage c layout t part) fun type s' =>
      (∃ slot, c.partShape? part = some slot ∧ s'.storage? slot = some type) ∧
        s.SameUses s' := by
  cases part with
  | padding =>
    exact (storageWith_runs hlayout hc.byte hs).imp fun type s' _ _ h => ⟨⟨_, rfl, h.1⟩, h.2⟩
  | field f =>
    exact (storageWith_runs hlayout (hc.fields f) hs).imp fun type s' _ _ h =>
      ⟨⟨_, rfl, h.1⟩, h.2⟩
  | zeroSized offset => exact Keeps.violate hs _
  | overflow offset => exact Keeps.overflow hs

theorem partStorages_runs (t : TypeId) (parts : List Part) (hs : s.Coherent c known) :
    Runs c known s (parts.mapM (partStorage c layout t)) fun types s' =>
      (∃ slots, c.partShapes? parts = some slots ∧
        List.Forall₂ (fun slot type => s'.storage? slot = some type) slots types) ∧
      s.SameUses s' := by
  induction parts generalizing s with
  | nil => exact Keeps.pure hs ⟨⟨[], rfl, .nil⟩, Image.SameUses.refl s⟩
  | cons part parts ih =>
    rw [List.mapM_cons]
    refine (partStorage_runs hc hlayout t part hs).bind
      fun type s₁ _ hs₁ hpost => ?_
    obtain ⟨⟨slot, hslot, htype⟩, huses⟩ := hpost
    refine (ih hs₁).bind fun types s₂ hgrows hs₂ hpost => ?_
    obtain ⟨⟨slots, hslots, htypes⟩, huses'⟩ := hpost
    refine Keeps.pure hs₂ ⟨⟨slot :: slots, ?_, .cons (hgrows.storage? htype) htypes⟩,
      huses.trans huses'⟩
    rw [Catalog.partShapes?] at hslots ⊢
    simp only [List.mapM_cons, hslot, hslots]
    rfl

theorem layoutFields_runs {t : TypeId} (ht : known t) (hs : s.Coherent c known) :
    Runs c known s (layoutFields c layout t) fun types s' =>
      (∃ slots, c.body? t = some slots ∧
        List.Forall₂ (fun slot type => s'.storage? slot = some type) slots types) ∧
      s.SameUses s' := by
  cases hkind : (c.typeDef t).kind with
  | scalar signed =>
    simp only [layoutFields, Catalog.body?, hkind]
    refine Keeps.bitWidth_bind hs fun hwidth => Keeps.pure hs ⟨⟨_, if_pos hwidth, ?_⟩, ?_⟩
    · exact .cons rfl .nil
    · exact Image.SameUses.refl s
  | valueType =>
    simp only [layoutFields, Catalog.body?, hkind]
    exact partStorages_runs hc hlayout t _ hs
  | reference =>
    by_cases hobject : t = Core.object
    · simp only [layoutFields, Catalog.body?, hkind, if_pos hobject]
      refine (hlayout _ hc.objectHeader s hs).bind fun id s' _ hs' hpost => ?_
      obtain ⟨hid, huses⟩ := hpost
      refine Keeps.pure hs' ⟨⟨_, rfl, .cons ?_ .nil⟩, huses⟩
      rw [Image.storage?, hid, Option.map_some]
    · simp only [layoutFields, Catalog.body?, hkind, if_neg hobject]
      cases hbase : (c.typeDef t).base with
      | none => exact Keeps.violate hs _
      | some base =>
        simp only
        refine (hlayout base (hc.bases t base ht hbase) s hs).bind
          fun id s₁ _ hs₁ hpost => ?_
        obtain ⟨hid, huses⟩ := hpost
        refine (partStorages_runs hc hlayout t _ hs₁).bind
          fun types s₂ hgrows hs₂ hpost => ?_
        obtain ⟨⟨slots, hslots, htypes⟩, huses'⟩ := hpost
        refine Keeps.pure hs₂ ⟨⟨.layout base :: slots, ?_, .cons ?_ htypes⟩, huses.trans huses'⟩
        · simp only [hslots, Option.map_some]
        · rw [Image.storage?, hgrows.layouts _ _ hid, Option.map_some]
  | array element =>
    simp only [layoutFields, Catalog.body?, hkind]
    refine (hlayout _ hc.array s hs).bind fun id s₁ _ hs₁ hpost => ?_
    obtain ⟨hid, huses⟩ := hpost
    refine (storageWith_runs hlayout (hc.elements t element ht hkind) hs₁).bind
      fun type s₂ hgrows hs₂ hpost => ?_
    obtain ⟨htype, huses'⟩ := hpost
    refine Keeps.pure hs₂ ⟨⟨_, rfl, .cons ?_ (.cons ?_ .nil)⟩, huses.trans huses'⟩
    · rw [Image.storage?, hgrows.layouts _ _ hid, Option.map_some]
    · rw [Image.storage?, htype, Option.map_some]

end

theorem layoutWithin_runs (hc : c.Closed known) (depth : Nat) :
    ∀ t, known t → ∀ s, Image.Coherent c known s →
      Runs c known s (layoutWithin c depth t) fun id s' =>
        s'.layouts.lookup t = some id ∧ s.SameUses s' := by
  induction depth with
  | zero => exact fun t _ s hs => Keeps.violate hs _
  | succ depth ih =>
    intro t ht s hs
    rw [layoutWithin]
    refine Keeps.get_bind ?_
    cases hlookup : s.layouts.lookup t with
    | some id => exact Keeps.pure hs ⟨hlookup, Image.SameUses.refl s⟩
    | none =>
      refine (layoutFields_runs hc ih ht hs).bind
        fun types s₁ _ hs₁ hpost => ?_
      obtain ⟨⟨slots, hbody, htypes⟩, huses⟩ := hpost
      obtain ⟨id, m, heq, hgrows, hs₂⟩ := hs₁.declareStruct ht hbody htypes
      unfold Keeps
      rw [run_bind (run_onModule _ _), heq, run_bind (run_modify _ _)]
      refine ⟨hgrows, hs₂, ?_, huses.entries, huses.declarations⟩
      rw [Keyed.lookup_put, if_pos rfl]

/-- **The struct of a type.** -/
theorem layoutOf_runs (hc : c.Closed known) {t : TypeId} (ht : known t)
    (hs : s.Coherent c known) :
    Runs c known s (layoutOf c t) fun id s' =>
      s'.layouts.lookup t = some id ∧ s.SameUses s' :=
  layoutWithin_runs hc _ t ht s hs

theorem storageOf_runs (hc : c.Closed known) {t : TypeId} (ht : known t)
    (hs : s.Coherent c known) :
    Runs c known s (storageOf c t) fun type s' =>
      s'.storage? (c.shapeOf t) = some type ∧ s.SameUses s' :=
  storageWith_runs (layoutWithin_runs hc _) ht hs

/-! ## Declaring methods -/

/-- A field or an element that was written down can be stored. -/
theorem stored_of_storage? (hs : s.Coherent c known) {t : TypeId} {type : Storage}
    (h : s.storage? (c.shapeOf t) = some type) : c.Stored t := by
  intro u hu
  obtain ⟨id, hid⟩ := Image.exists_layout_of_storage? h hu
  exact (hs.layouts u id hid).2.1

theorem storagesOf_runs (hc : c.Closed known) {ts : List TypeId} (hts : ∀ t ∈ ts, known t)
    (hs : s.Coherent c known) :
    Runs c known s (ts.mapM (storageOf c)) fun _ s' => (∀ t ∈ ts, c.Stored t) ∧ s.SameUses s' := by
  induction ts generalizing s with
  | nil => exact Keeps.pure hs ⟨fun t ht => absurd ht List.not_mem_nil, Image.SameUses.refl s⟩
  | cons t ts ih =>
    rw [List.mapM_cons]
    refine (storageOf_runs hc (hts t List.mem_cons_self) hs).bind
      fun type s₁ _ hs₁ hpost => ?_
    obtain ⟨htype, huses⟩ := hpost
    refine (ih (fun u hu => hts u (List.mem_cons_of_mem _ hu)) hs₁).bind
      fun types s₂ _ hs₂ hpost => ?_
    obtain ⟨hstored, huses'⟩ := hpost
    exact Keeps.pure hs₂ ⟨List.forall_mem_cons.2 ⟨stored_of_storage? hs₁ htype, hstored⟩,
      huses.trans huses'⟩

/-- **The declaration of a method.** -/
theorem declarationOf_runs (hc : c.Closed known) (m : MethodId) (hs : s.Coherent c known) :
    Runs c known s (declarationOf c m) fun id s' =>
      s'.declarations.lookup m = some id ∧ s'.entries = s.entries := by
  rw [declarationOf]
  refine Keeps.get_bind ?_
  cases hlookup : s.declarations.lookup m with
  | some id => exact Keeps.pure hs ⟨hlookup, rfl⟩
  | none =>
    refine (storagesOf_runs hc (hc.params m) hs).bind fun params s₁ _ hs₁ hpost => ?_
    obtain ⟨hparams, huses⟩ := hpost
    have hresult : Runs c known s₁ ((c.method m).result.mapM (storageOf c)) fun _ s' =>
        (∀ t ∈ (c.method m).result, c.Stored t) ∧ s₁.SameUses s' := by
      cases hr : (c.method m).result with
      | none =>
        exact Keeps.pure hs₁ ⟨fun t ht => absurd ht (Option.not_mem_none t), Image.SameUses.refl s₁⟩
      | some t =>
        rw [Option.mapM_some, map_eq_pure_bind]
        refine (storageOf_runs hc (hc.results m t hr) hs₁).bind
          fun type s₂ _ hs₂ hpost => ?_
        obtain ⟨htype, huses⟩ := hpost
        refine Keeps.pure hs₂ ⟨?_, huses⟩
        intro u hu
        obtain rfl := Option.some.inj hu
        exact stored_of_storage? hs₂ htype
    refine hresult.bind fun result s₂ _ hs₂ hpost => ?_
    obtain ⟨hresult, huses'⟩ := hpost
    have hnone : s₂.declarations.lookup m = none := by
      rw [huses'.declarations, huses.declarations, hlookup]
    obtain ⟨id, mod, heq, hgrows, hs₃⟩ :=
      hs₂.declareFunction hnone ⟨hparams, hresult⟩ params result
    unfold Keeps
    rw [run_bind (run_onModule _ _), heq, run_bind (run_modify _ _)]
    refine ⟨hgrows, hs₃, ?_, huses'.entries.trans huses.entries⟩
    rw [Keyed.lookup_put, if_pos rfl]

end Build

end DataImage
