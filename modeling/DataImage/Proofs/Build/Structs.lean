import DataImage.Proofs.Build.Order
import DataImage.Proofs.Build.Rebuild
import DataImage.Proofs.Catalog.Acyclic
import DataImage.Proofs.Catalog.Growing
import DataImage.Proofs.Module.GlobalNames

/-!
# One struct for each type

An image remembers the struct of a type by the type, while its module declares structs by their
names and keeps the first body that it was given for a name. The two agree because declared types
have different names: a struct is declared for one type only, so the body that is kept is the body
of that type.

`Image.IsStructOf` is what an image then says of a type and its struct, and `Call.structs_of_run` is
the statement for every sequence of calls: the struct that a call gives has the fields that the call
computed, and remains the struct of the type, and of no other one, over any further calls.
-/

namespace DataImage

variable {c : Catalog} {known : TypeId → Prop} {s s' : Image} {t : TypeId} {id : StructId}

/-- A struct is found by its name, if no two structs have the same. -/
theorem Module.findStruct?_eq_some {m : Module} (hnames : (m.structs.map (·.name)).Nodup)
    {x : StructType} (hx : m.structs[id.index]? = some x) {name : String}
    (hname : m.symbols.names[x.name.index]? = some name) : m.findStruct? name = some id := by
  have hfind := Partial.findIdx?_eq_some_of_nodup hnames hx
  rw [findStruct?, SymbolTable.find?_eq_some_iff.2 hname, Option.bind_some, structOfSymbol?, hfind]
  rfl

/-! ## Fields computed again -/

namespace Build

theorem partStorage_finds {part : Part} {slot : Shape} {type : Storage}
    (hslot : c.partShape? part = some slot) (htype : s.storage? slot = some type) :
    Finds s (partStorage c (layoutOf c) t part) type := by
  cases part with
  | padding =>
    obtain rfl := Option.some.inj hslot
    exact storageOf_finds htype
  | field f =>
    obtain rfl := Option.some.inj hslot
    exact storageOf_finds htype
  | zeroSized offset | overflow offset => cases hslot

theorem partStorages_finds {parts : List Part} {slots : List Shape} {types : List Storage}
    (hslots : c.partShapes? parts = some slots)
    (htypes : List.Forall₂ (fun slot type => s.storage? slot = some type) slots types) :
    Finds s (parts.mapM (partStorage c (layoutOf c) t)) types := by
  refine Finds.mapM ?_
  rw [Catalog.partShapes?, Partial.mapM_eq_some_iff] at hslots
  induction hslots generalizing types with
  | nil =>
    rw [List.forall₂_nil_left_iff] at htypes
    rw [htypes]
    exact .nil
  | cons hslot _ ih =>
    obtain ⟨type, types', htype, htypes', rfl⟩ := List.forall₂_cons_left_iff.1 htypes
    exact .cons (partStorage_finds hslot htype) (ih htypes')

/-- If the image has all types in the body of a type, computing the fields of its struct finds
them. -/
theorem layoutFields_finds {slots : List Shape} {types : List Storage}
    (hbody : c.body? t = some slots)
    (htypes : List.Forall₂ (fun slot type => s.storage? slot = some type) slots types) :
    Finds s (layoutFields c (layoutOf c) t) types := by
  have inner : ∀ {u type}, s.storage? (.layout u) = some type →
      ∃ id, Finds s (layoutOf c u) id ∧ type = .struct id := by
    intro u type htype
    obtain ⟨id, hid, rfl⟩ := Option.map_eq_some_iff.1 htype
    exact ⟨id, layoutOf_finds hid, rfl⟩
  cases hkind : (c.typeDef t).kind with
  | scalar signed =>
    simp only [layoutFields, Catalog.body?, hkind, Option.ite_none_right_eq_some] at hbody ⊢
    obtain ⟨hwidth, hslots⟩ := hbody
    obtain rfl := Option.some.inj hslots
    obtain ⟨type, rest, htype, hrest, rfl⟩ := List.forall₂_cons_left_iff.1 htypes
    obtain rfl := List.forall₂_nil_left_iff.1 hrest
    obtain rfl := Option.some.inj htype
    rw [bitWidth_eq, if_pos hwidth]
    exact Finds.pure s _
  | valueType =>
    simp only [layoutFields, Catalog.body?, hkind] at hbody ⊢
    exact partStorages_finds hbody htypes
  | reference =>
    by_cases hobject : t = Core.object
    · simp only [layoutFields, Catalog.body?, hkind, if_pos hobject] at hbody ⊢
      obtain rfl := Option.some.inj hbody
      obtain ⟨type, rest, htype, hrest, rfl⟩ := List.forall₂_cons_left_iff.1 htypes
      obtain rfl := List.forall₂_nil_left_iff.1 hrest
      obtain ⟨id, hid, rfl⟩ := inner htype
      exact hid.bind (Finds.pure s _)
    · simp only [layoutFields, Catalog.body?, hkind, if_neg hobject] at hbody ⊢
      cases hbase : (c.typeDef t).base with
      | none =>
        rw [hbase] at hbody
        cases hbody
      | some base =>
        simp only [hbase] at hbody ⊢
        obtain ⟨slots', hslots, rfl⟩ := Option.map_eq_some_iff.1 hbody
        obtain ⟨type, rest, htype, hrest, rfl⟩ := List.forall₂_cons_left_iff.1 htypes
        obtain ⟨id, hid, rfl⟩ := inner htype
        exact hid.bind ((partStorages_finds hslots hrest).bind (Finds.pure s _))
  | array element =>
    simp only [layoutFields, Catalog.body?, hkind] at hbody ⊢
    obtain rfl := Option.some.inj hbody
    obtain ⟨type, rest, htype, hrest, rfl⟩ := List.forall₂_cons_left_iff.1 htypes
    obtain ⟨type', rest', htype', hrest', rfl⟩ := List.forall₂_cons_left_iff.1 hrest
    obtain rfl := List.forall₂_nil_left_iff.1 hrest'
    obtain ⟨id, hid, rfl⟩ := inner htype
    obtain ⟨elements, helements, rfl⟩ := Option.map_eq_some_iff.1 htype'
    exact hid.bind ((storageOf_finds helements).bind (Finds.pure s _))

end Build

/-! ## The struct of a type -/

namespace Image

/-- Slots are written down in one way. -/
theorem eq_of_storages {slots : List Shape} {types types' : List Storage}
    (h : List.Forall₂ (fun slot type => s.storage? slot = some type) slots types)
    (h' : List.Forall₂ (fun slot type => s.storage? slot = some type) slots types') :
    types = types' :=
  Option.some.inj
    ((Partial.mapM_eq_some_iff.2 h).symm.trans (Partial.mapM_eq_some_iff.2 h'))

theorem LaidOut.structName_eq (h : s.LaidOut c known) (hid : s.layouts.lookup t = some id) :
    s.module.structName id = c.typeName t := by
  obtain ⟨-, -, x, hx, hname⟩ := h.layouts t id hid
  rw [Module.structName, Module.symbol, Module.struct, List.getD_eq_getElem?_getD, hx,
    Option.getD_some, SymbolTable.name_eq_of_getElem? hname]

theorem LaidOut.findStruct?_eq (h : s.LaidOut c known) (hid : s.layouts.lookup t = some id) :
    s.module.findStruct? (c.typeName t) = some id := by
  obtain ⟨-, -, x, hx, hname⟩ := h.layouts t id hid
  exact Module.findStruct?_eq_some h.structNames hx hname

/-- **The struct of a type stays as it is** in every later image. -/
theorem LaidOut.struct_eq (h : s.LaidOut c known) (h' : s'.LaidOut c known)
    (hnames : c.DistinctNames known) (hextends : s.Extends s')
    (hid : s.layouts.lookup t = some id) : s'.module.struct id = s.module.struct id := by
  have hid' := hextends.layouts t id hid
  obtain ⟨-, slots, hbody, hfields, -⟩ := h.body hnames hid
  obtain ⟨-, slots', hbody', hfields', -⟩ := h'.body hnames hid'
  obtain rfl := Option.some.inj (hbody.symm.trans hbody')
  have hsame := eq_of_storages hfields' (hfields.imp fun _ _ => hextends.storage?)
  obtain ⟨-, -, x, hx, hname⟩ := h.layouts t id hid
  obtain ⟨-, -, y, hy, hname'⟩ := h'.layouts t id hid'
  have hsymbol := SymbolTable.eq_of_getElem? hname' (hextends.spells hname)
  simp only [Module.struct, List.getD_eq_getElem?_getD, hx, hy, Option.getD_some] at hsame ⊢
  cases x
  cases y
  exact congrArg₂ _ hsymbol hsame

/-- What an image says of a declared type and its struct. -/
structure IsStructOf (c : Catalog) (s : Image) (t : TypeId) (id : StructId) : Prop where
  /-- Laying the type out again finds the struct. -/
  again : Build.layoutOf c t s = .ok id s
  /-- No other type has it. -/
  only : ∀ u, u.index < c.types.length → ∀ s', Build.layoutOf c u s = .ok id s' → u = t
  named : s.module.structName id = c.typeName t
  found : s.module.findStruct? (c.typeName t) = some id
  /-- The fields are the slots that the catalog says. -/
  body : ∃ slots, c.body? t = some slots ∧
    List.Forall₂ (fun slot type => s.storage? slot = some type) slots (s.module.struct id).fields
  /-- Computing the fields again gives those of the struct. -/
  fields : Build.layoutFields c (Build.layoutOf c) t s = .ok (s.module.struct id).fields s

end Image

namespace Build

variable (hc : c.Closed known) (hnames : c.DistinctNames known) (hs : s.Coherent c known)

include hc hnames hs

/-- A type that is laid out for the first time gets a struct with the fields computed for it, and
not an earlier one of its name. -/
theorem fields_of_layoutOf (ht : known t) (hnew : s.layouts.lookup t = none)
    (h : layoutOf c t s = .ok id s') :
    ∃ s₁, layoutFields c (layoutWithin c c.typeCount) t s =
      .ok (s'.module.struct id).fields s₁ := by
  have hbody := layoutFields_runs hc (layoutWithin_runs hc c.typeCount) ht hs
  rw [layoutOf, layoutWithin, run_bind (run_get s), hnew] at h
  dsimp only at h
  cases hfields : layoutFields c (layoutWithin c c.typeCount) t s with
  | error f s₁ =>
    rw [run_bind_error hfields] at h
    cases h
  | ok types s₁ =>
    obtain ⟨-, hs₁, ⟨slots, hslots, htypes⟩, -⟩ := hbody.of_ok hfields
    obtain ⟨id', m, hdeclare, hgrows, hs₂⟩ := hs₁.declareStruct ht hslots htypes
    rw [run_bind hfields, run_bind (run_onModule _ _), hdeclare, run_bind (run_modify _ _)] at h
    obtain ⟨rfl, rfl⟩ : id' = id ∧ s₁.putLayout m t id' = s' := EStateM.Result.ok.inj h
    have hid : (s₁.putLayout m t id').layouts.lookup t = some id' := by
      rw [Image.putLayout, Keyed.lookup_put, if_pos rfl]
    obtain ⟨-, slots', hslots', hstored, -⟩ := hs₂.toLaidOut.body hnames hid
    obtain rfl := Option.some.inj (hslots.symm.trans hslots')
    have hsame := Image.eq_of_storages hstored (htypes.imp fun _ _ => hgrows.storage?)
    exact ⟨s₁, by rw [hsame]⟩

end Build

namespace Image

/-- **A type and its struct** in a coherent image. -/
theorem Coherent.isStructOf
    (hc : c.Closed fun t => t.index < c.types.length)
    (hnames : c.DistinctNames fun t => t.index < c.types.length)
    (hs : s.Coherent c fun t => t.index < c.types.length) (hid : s.layouts.lookup t = some id) :
    s.IsStructOf c t id := by
  obtain ⟨-, slots, hbody, hfields, -⟩ := hs.body hnames hid
  refine ⟨Build.layoutOf_finds hid, fun u hu s' h => ?_, hs.structName_eq hid,
    hs.findStruct?_eq hid, ⟨slots, hbody, hfields⟩, Build.layoutFields_finds hbody hfields⟩
  obtain ⟨hgrows, hs', hid', -⟩ := (Build.layoutOf_runs hc hu hs).of_ok h
  exact hs'.toLaidOut.eq_of_lookup hnames hid' (hgrows.layouts t id hid)

end Image

namespace Call

/-- **Types and structs belong together one by one.** No two declared types have the same name, and
a name denotes the declared type that has it. So after whatever calls, whether they fail or not:

* Every struct is that of one declared type.
* A type that is laid out for the first time gets a struct with the fields computed for it.
* A struct that was given for a type stays as it is over any further calls, and remains the struct
  of this type and of no other one. -/
theorem structs_of_run (hc : c.Declared) :
    c.DistinctNames (fun t => t.index < c.types.length) ∧
    (∀ n t, c.findType? n = some t ↔ t.index < c.types.length ∧ c.typeName t = n) ∧
    ∀ (name : String) (calls : List Call) (before : Image), c.Scoped →
      (∀ call ∈ calls, ∀ t ∈ call.types, t.index < c.types.length) →
      before = run c calls (Image.new c name) →
      (∀ id : StructId, id.index < before.module.structs.length →
        ∃ t, t.index < c.types.length ∧ before.IsStructOf c t id) ∧
      ∀ t id s, t.index < c.types.length → Build.layoutOf c t before = .ok id s →
        (before.layouts.lookup t = none →
          ∃ s₁, Build.layoutFields c (Build.layoutWithin c c.typeCount) t before =
            .ok (s.module.struct id).fields s₁) ∧
        ∀ more : List Call, (∀ call ∈ more, ∀ t ∈ call.types, t.index < c.types.length) →
          (run c more s).module.struct id = s.module.struct id ∧
          (run c more s).IsStructOf c t id := by
  have hrooted := hc.wellDeclared.toRooted
  have hnames := hrooted.distinctNames
  refine ⟨hnames, fun n t => ?_, ?_⟩
  · rw [hrooted.findType?_eq_some_iff, Catalog.typeName, hrooted.typeDef_eq]
  rintro name calls before hs hcalls rfl
  have hclosed := hrooted.closed hs
  obtain ⟨-, hcoherent⟩ := run_coherent hclosed (Image.coherent_new c _ name) calls hcalls
  refine ⟨fun id hid => ?_, fun t id s ht h => ⟨fun hnew => ?_, fun more hmore => ?_⟩⟩
  · obtain ⟨t, -, ht, -⟩ := hcoherent.structs id.index _ (List.getElem?_eq_getElem hid)
    exact ⟨t, (hcoherent.layouts t id ht).1, hcoherent.isStructOf hclosed hnames ht⟩
  · exact Build.fields_of_layoutOf hclosed hnames hcoherent ht hnew h
  · obtain ⟨-, hs', hid, -⟩ := (Build.layoutOf_runs hclosed ht hcoherent).of_ok h
    obtain ⟨hsettles, hs''⟩ := run_coherent hclosed hs' more hmore
    exact ⟨hs'.toLaidOut.struct_eq hs''.toLaidOut hnames hsettles.toExtends hid,
      hs''.isStructOf hclosed hnames (hsettles.layouts t id hid)⟩

/-- The cell of the ring is laid out after a value that does not exist was asked for, and keeps its
struct when the array of cells is laid out and all values are written down. -/
theorem structs_of_run_ring :
    let calls : List Call := [.request ⟨99⟩, .layout Core.array]
    let more : List Call := [.layout ⟨19⟩, .request ⟨99⟩, .resolveAll]
    let before := run Catalog.ring calls (Image.new Catalog.ring "Ring")
    ∃ id s, Build.layoutOf Catalog.ring ⟨18⟩ before = .ok id s ∧
      (∃ s₁, Build.layoutFields Catalog.ring
        (Build.layoutWithin Catalog.ring Catalog.ring.typeCount) ⟨18⟩ before =
          .ok (s.module.struct id).fields s₁) ∧
      (run Catalog.ring more s).module.struct id = s.module.struct id ∧
      (run Catalog.ring more s).IsStructOf Catalog.ring ⟨18⟩ id := by
  intro calls more before
  have hrun : (Build.layoutOf Catalog.ring ⟨18⟩).succeedsWith before (fun _ _ => true) = true := by
    decide +kernel
  obtain ⟨id, s, h, -⟩ := Build.exists_of_succeedsWith hrun
  obtain ⟨-, -, himages⟩ := structs_of_run Catalog.ring_declared
  obtain ⟨-, hlater⟩ := himages "Ring" calls before (by decide +kernel) (by decide +kernel) rfl
  obtain ⟨hfields, hkept⟩ := hlater ⟨18⟩ id s (by decide +kernel) h
  exact ⟨id, s, h, hfields (by decide +kernel), hkept more (by decide +kernel)⟩

end Call

end DataImage
