import DataImage.Proofs.Catalog.Growing

/-!
# Virtual tables describe their types

Virtual tables are made along with classes and array types, and for any type on demand. As long as
no declaration puts another value in the place of one or changes it, a virtual table describes its
type (`Catalog.Describes`): it says how large an instance is and, for an array, how much holds an
element.

The declarations of a run are data (`Declaration`), and what they must not do is
`Declaration.Allowed`. A new virtual table is a new value, so no two types have the same
(`Catalog.OwnTables`), whatever is declared. `Declaration.described_of_run` is the statement for
every run: it names the state in the middle of a run, so that it also says what further declarations
leave as it is.
-/

namespace DataImage

/-- A declaration, with what it is made with. -/
inductive Declaration where
  /-- Declare an integer type. -/
  | scalar (name : String) (size : Nat) (signed : Bool)
  /-- Declare a value type. -/
  | valueType (name : String) (size : Nat)
  /-- Declare a class, with its virtual table. -/
  | derived (name : String) (base : TypeId) (size : Nat)
  /-- Declare the array type of an element type, with its virtual table. -/
  | arrayType (element : TypeId)
  /-- Declare a field. -/
  | field (owner : TypeId) (name : String) (offset : Nat) (type : TypeId)
  /-- Declare a method. -/
  | method (d : MethodDef)
  /-- Add a value. -/
  | value (v : Descriptor)
  /-- Add a string. -/
  | text (content : String)
  /-- Change a value. -/
  | change (d : DescriptorId) (f : Descriptor → Descriptor)
  /-- Add a code pointer. -/
  | codePointer (target : CodeTarget)
  /-- Make the virtual table of a type, if it has none. -/
  | vtable (t : TypeId)

namespace Declaration

/-- The catalog after a declaration. -/
def after (c : Catalog) : Declaration → Catalog
  | .scalar name size signed => (c.addScalar name size signed).2
  | .valueType name size => (c.addValueType name size).2
  | .derived name base size => (c.addClass name base size).2
  | .arrayType element => (c.addArrayType element).2
  | .field owner name offset type => (c.addField owner name offset type).2
  | .method d => (c.addMethod d).2
  | .value v => (c.addDescriptor v).2
  | .text content => (c.addString content).2
  | .change d f => c.updateDescriptor d f
  | .codePointer target => (c.addCodePointer target).2
  | .vtable t => (c.addVtable t).2

/-- The catalog after declarations. -/
def run (ds : List Declaration) (c : Catalog) : Catalog := ds.foldl after c

/-- Whether a declaration leaves virtual tables alone. What gets a virtual table or is made an
element must be declared. -/
def Allowed (c : Catalog) : Declaration → Prop
  | .arrayType t | .vtable t => t.index < c.types.length
  | .change d _ => ¬ c.IsTable d
  | .scalar .. | .valueType .. | .derived .. | .field .. | .method _ | .value _ | .text _
  | .codePointer _ => True

/-- Whether each declaration of a run is allowed at its time. -/
def AllAllowed (c : Catalog) : List Declaration → Prop
  | [] => True
  | x :: xs => x.Allowed c ∧ AllAllowed (x.after c) xs

instance (c : Catalog) (d : DescriptorId) : Decidable (c.IsTable d) :=
  decidable_of_iff (∃ e ∈ c.vtables, c.vtable? e.1 = some d)
    ⟨fun ⟨e, _, h⟩ => ⟨e.1, h⟩, fun ⟨t, h⟩ => ⟨(t, d), Partial.mem_of_lookup_eq_some h, h⟩⟩

instance (c : Catalog) (x : Declaration) : Decidable (x.Allowed c) :=
  match x with
  | .arrayType t | .vtable t => inferInstanceAs (Decidable (t.index < c.types.length))
  | .change d _ => inferInstanceAs (Decidable (¬ c.IsTable d))
  | .scalar .. | .valueType .. | .derived .. | .field .. | .method _ | .value _ | .text _
  | .codePointer _ => .isTrue trivial

instance decidableAllAllowed (c : Catalog) : (ds : List Declaration) → Decidable (AllAllowed c ds)
  | [] => .isTrue trivial
  | x :: xs =>
    have : Decidable (AllAllowed (x.after c) xs) := decidableAllAllowed (x.after c) xs
    inferInstanceAs (Decidable (_ ∧ _))

variable {c : Catalog}

/-- **What each declaration keeps holds after a run** of them. -/
theorem run_keeps {P : Catalog → Prop}
    (hstep : ∀ (c : Catalog) (x : Declaration), P c → x.Allowed c → P (x.after c)) (hc : P c)
    {ds : List Declaration} (hds : AllAllowed c ds) : P (run ds c) := by
  induction ds generalizing c with
  | nil => exact hc
  | cons x ds ih => exact ih (hstep c x hc hds.1) hds.2

theorem tabled_after (h : c.Tabled) {x : Declaration} (hx : x.Allowed c) : (x.after c).Tabled := by
  cases x with
  | scalar name size signed => exact h.addScalar name size signed
  | valueType name size => exact h.addValueType name size
  | derived name base size => exact h.addClass name base size
  | arrayType element => exact h.addArrayType element hx
  | field owner name offset type => exact h.addField owner name offset type
  | method d => exact h.addMethod d
  | value v => exact h.addDescriptor v
  | text content => exact h.addDescriptor _
  | change d f => exact h.updateDescriptor d f fun t ht => hx ⟨t, ht⟩
  | codePointer target => exact h.addCodePointer target
  | vtable t => exact h.addVtable t hx

end Declaration

namespace Catalog

variable {c c' c'' : Catalog} {t : TypeId} {d : DescriptorId}

/-! ## One virtual table for each type -/

/-- Whether each virtual table is a value and that of one type only. -/
structure OwnTables (c : Catalog) : Prop where
  inside : ∀ t d, c.vtable? t = some d → d.index < c.descriptors.length
  unique : ∀ t u d, c.vtable? t = some d → c.vtable? u = some d → t = u

namespace OwnTables

theorem congr (h : c.OwnTables) (hvtables : c'.vtables = c.vtables)
    (hlength : c.descriptors.length ≤ c'.descriptors.length) : c'.OwnTables where
  inside := fun t d hd => by
    rw [vtable?, hvtables] at hd
    exact Nat.lt_of_lt_of_le (h.inside t d hd) hlength
  unique := fun t u d ht hu => by
    rw [vtable?, hvtables] at ht hu
    exact h.unique t u d ht hu

/-- A new virtual table is a new value. -/
theorem addVtable (h : c.OwnTables) (t : TypeId) : (c.addVtable t).2.OwnTables := by
  cases ht : c.vtable? t with
  | some d => rwa [addVtable_of_eq_some ht]
  | none =>
    have hlookup := vtable?_addVtable ht
    have hlength : (c.addVtable t).2.descriptors.length = c.descriptors.length + 1 := by
      rw [addVtable_of_eq_none ht]
      exact List.length_append
    have hfresh : ∀ u, c.vtable? u ≠ some ⟨c.descriptors.length⟩ := fun u hu =>
      Nat.lt_irrefl _ (h.inside u _ hu)
    refine ⟨fun u d hd => ?_, fun u w d hu hw => ?_⟩
    · rw [hlookup] at hd
      rw [hlength]
      split at hd
      · rw [← Option.some.inj hd]
        exact Nat.lt_succ_self _
      · exact Nat.lt_succ_of_lt (h.inside u d hd)
    · rw [hlookup] at hu hw
      split at hu
      · rename_i heq
        split at hw
        · rename_i heq'
          rw [heq, heq']
        · rw [← Option.some.inj hu] at hw
          exact absurd hw (hfresh w)
      · split at hw
        · rw [← Option.some.inj hw] at hu
          exact absurd hu (hfresh u)
        · exact h.unique u w d hu hw

theorem declareType (h : c.OwnTables) (d : TypeDef) : (c.declareType d).2.OwnTables := by
  obtain ⟨types, heq⟩ := c.declareType_eq d
  rw [heq]
  exact h.congr rfl (Nat.le_refl _)

theorem addArrayType (h : c.OwnTables) (element : TypeId) :
    (c.addArrayType element).2.OwnTables := by
  cases hlookup : c.arrayTypes.lookup element with
  | some t => rwa [addArrayType_of_eq_some hlookup]
  | none =>
    have hwith : (c.withArrayType element).OwnTables :=
      (h.declareType (c.arrayDef element)).congr rfl (Nat.le_refl _)
    rw [addArrayType_of_eq_none hlookup]
    exact hwith.addVtable _

theorem new (p : Nat) : (Catalog.new p).OwnTables := by
  have hbare : OwnTables { pointerSize := p, types := Core.types p, fields := Core.fields p } :=
    ⟨fun _ _ hd => (nomatch hd), fun _ _ _ hd => (nomatch hd)⟩
  exact (((hbare.addVtable _).addVtable _).addVtable _).addVtable _

/-- **No declaration lets two types have one virtual table.** -/
theorem after (h : c.OwnTables) (x : Declaration) : (x.after c).OwnTables := by
  cases x with
  | scalar | valueType => exact h.declareType _
  | derived name base size => exact (h.declareType _).addVtable _
  | arrayType element => exact h.addArrayType element
  | field | method | codePointer => exact h.congr rfl (Nat.le_refl _)
  | value | text => exact h.congr rfl (List.prefix_append _ _).length_le
  | change => exact h.congr rfl (Nat.le_of_eq (List.length_modify ..).symm)
  | vtable t => exact h.addVtable t

end OwnTables

/-! ## What further declarations keep -/

/-- Whether types keep their kinds and sizes, and virtual tables stay where they are. -/
structure KeepsTables (c c' : Catalog) : Prop where
  types : c.Retains c'
  tables : ∀ t d, c.vtable? t = some d →
    c'.vtable? t = some d ∧ c'.descriptor? d = c.descriptor? d

namespace KeepsTables

protected theorem refl (c : Catalog) : c.KeepsTables c :=
  ⟨retains_of_types_eq rfl rfl, fun _ _ hd => ⟨hd, rfl⟩⟩

protected theorem trans (h : c.KeepsTables c') (h' : c'.KeepsTables c'') : c.KeepsTables c'' where
  types := h.types.trans h'.types
  tables := fun t d hd => by
    obtain ⟨hd', hv⟩ := h.tables t d hd
    obtain ⟨hd'', hv'⟩ := h'.tables t d hd'
    exact ⟨hd'', hv'.trans hv⟩

/-- Declarations that only add, and put no other value in the place of a virtual table. -/
theorem of_grows (hc : c.OwnTables) (h : c.Grows c')
    (hvtables : ∀ t d, c.vtable? t = some d → c'.vtable? t = some d) : c.KeepsTables c' where
  types := h.toRetains
  tables := fun t d hd => by
    obtain ⟨more, hmore⟩ := h.descriptors
    refine ⟨hvtables t d hd, ?_⟩
    rw [Catalog.descriptor?, Catalog.descriptor?, ← hmore,
      List.getElem?_append_left (hc.inside t d hd)]

end KeepsTables

theorem vtable?_addVtable_of_some {u : TypeId} (hd : c.vtable? t = some d) :
    (c.addVtable u).2.vtable? t = some d := by
  cases hu : c.vtable? u with
  | some e => rwa [addVtable_of_eq_some hu]
  | none =>
    rw [vtable?_addVtable hu, if_neg, hd]
    rintro rfl
    rw [hd] at hu
    cases hu

theorem vtable?_addArrayType {element : TypeId} (hd : c.vtable? t = some d) :
    (c.addArrayType element).2.vtable? t = some d := by
  cases hlookup : c.arrayTypes.lookup element with
  | some u => rwa [addArrayType_of_eq_some hlookup]
  | none =>
    rw [addArrayType_of_eq_none hlookup]
    exact vtable?_addVtable_of_some ((vtable?_declareType _ t).trans hd)

/-- **No declaration that is allowed touches a virtual table.** -/
theorem OwnTables.keepsTables (h : c.OwnTables) {x : Declaration} (hx : x.Allowed c) :
    c.KeepsTables (x.after c) := by
  cases x with
  | scalar | valueType =>
    exact .of_grows h (grows_declareType _) fun t d hd => (vtable?_declareType _ t).trans hd
  | derived name base size =>
    exact .of_grows h (grows_addClass name base size) fun t d hd =>
      vtable?_addVtable_of_some ((vtable?_declareType _ t).trans hd)
  | arrayType element =>
    exact .of_grows h (grows_addArrayType element) fun t d => vtable?_addArrayType
  | field owner name offset type =>
    exact .of_grows h (grows_addField owner name offset type) fun _ _ hd => hd
  | method d => exact .of_grows h (grows_addMethod d) fun _ _ hd => hd
  | value v => exact .of_grows h (grows_addDescriptor v) fun _ _ hd => hd
  | text content => exact .of_grows h (grows_addDescriptor _) fun _ _ hd => hd
  | change d f =>
    refine ⟨retains_of_types_eq rfl rfl, fun t e he => ⟨he, ?_⟩⟩
    refine descriptor?_updateDescriptor_of_ne ?_ f
    rintro rfl
    exact hx ⟨t, he⟩
  | codePointer target =>
    exact .of_grows h (.of_types_eq rfl rfl rfl List.prefix_rfl List.prefix_rfl) fun _ _ hd => hd
  | vtable u => exact .of_grows h (grows_addVtable u) fun _ _ => vtable?_addVtable_of_some

/-! ## What a virtual table says -/

/-- Whether an object is a virtual table that describes a type: a read-only value of its own, in
which the size of an instance is recorded and, if the type is an array, the size of what holds an
element, unless that takes no bytes. The fields are those that the class of virtual tables finds by
their names. -/
structure Describes (c : Catalog) (t : TypeId) (o : ObjectValue) : Prop where
  context : o.context = Core.vtable
  readOnly : o.isMutable = false
  notNested : o.nesting = none
  baseSize : ∃ f, c.findField? Core.vtable "BaseSize" = some f ∧
    o.fields.lookup f = some (.scalar (UInt64.ofNat (c.typeDef t).size))
  elementSize : ∃ f, c.findField? Core.vtable "ElementSize" = some f ∧
    ∀ payload, o.fields.lookup f = some payload ↔ ∃ e, (c.typeDef t).kind = .array e ∧
      c.holdingSize e ≠ 0 ∧ payload = .scalar (UInt64.ofNat (c.holdingSize e))

/-- What is said about the virtual tables of a catalog. -/
structure DescribesAll (c : Catalog) : Prop where
  /-- Classes and arrays have one. -/
  total : ∀ t, (c.typeDef t).kind = .reference ∨ (∃ e, (c.typeDef t).kind = .array e) →
    ∃ d, c.vtable? t = some d
  unique : ∀ t u d, c.vtable? t = some d → c.vtable? u = some d → t = u
  /-- Each one describes its type. -/
  described : ∀ t d, c.vtable? t = some d →
    ∃ o, c.descriptor? d = some (.object o) ∧ c.Describes t o

/-- What a virtual table records of elements. -/
theorem lookup_elementSize_table (t : TypeId) :
    (c.table t).fields.lookup Core.elementSize =
      if c.elementSize t = 0 then none else some (.scalar (UInt64.ofNat (c.elementSize t))) := by
  have hne : (Core.elementSize == Core.baseSize) = false := rfl
  simp only [table, List.lookup_cons, hne]
  split
  · rfl
  · exact List.lookup_cons_self

theorem Tabled.describes_table (h : c.Tabled) (t : TypeId) : c.Describes t (c.table t) := by
  have hc := h.declared.wellDeclared.toRooted
  have hsizes := h.tables.sizesFirst
  refine ⟨rfl, rfl, rfl, ⟨_, hc.findField?_baseSize hsizes, ?_⟩,
    ⟨_, hc.findField?_elementSize hsizes, fun payload => ?_⟩⟩
  · rw [hc.typeDef_eq]
    exact List.lookup_cons_self
  · rw [lookup_elementSize_table, elementSize, ← hc.typeDef_eq]
    cases hkind : (c.typeDef t).kind with
    | array e =>
      have hholding : (c.declaredType e).holdingSize c.pointerSize = c.holdingSize e := by
        rw [holdingSize, hc.typeDef_eq]
      simp only [hholding]
      split
      · rename_i hzero
        simp [hzero]
      · rename_i hzero
        rw [Option.some.injEq]
        constructor
        · rintro rfl
          exact ⟨e, rfl, hzero, rfl⟩
        · rintro ⟨e', he', -, rfl⟩
          rw [TypeKind.array.inj he']
    | scalar | reference | valueType => simp

theorem Tabled.describesAll (h : c.Tabled) (hown : c.OwnTables) : c.DescribesAll where
  total := fun t ht => by
    have hheld : (c.typeDef t).isHeldByReference = true := by
      rcases ht with ht | ⟨e, ht⟩ <;> rw [TypeDef.isHeldByReference, ht]
    obtain ⟨d, hd, -⟩ := h.tableAsMade hheld
    exact ⟨d, hd⟩
  unique := hown.unique
  described := fun t d hd => ⟨c.table t, h.tables.tables t d hd, h.describes_table t⟩

end Catalog

namespace Declaration

/-- **Virtual tables describe their types.** After every run of declarations that leaves virtual
tables alone, classes and arrays have a virtual table, no two types have the same, and each one
describes its type. Further declarations leave all virtual tables where they are and as they are,
along with the kinds and sizes of their types, whatever fields, types and values they add. -/
theorem described_of_run {p : Nat} {ds more : List Declaration} (hds : AllAllowed (.new p) ds)
    (hmore : AllAllowed (run ds (.new p)) more) :
    (run ds (.new p)).DescribesAll ∧ (run more (run ds (.new p))).DescribesAll ∧
      (run ds (.new p)).KeepsTables (run more (run ds (.new p))) := by
  have hstart : (Catalog.new p).Tabled ∧ (Catalog.new p).OwnTables := ⟨.new p, .new p⟩
  have hstep : ∀ (c : Catalog) (x : Declaration), c.Tabled ∧ c.OwnTables → x.Allowed c →
      (x.after c).Tabled ∧ (x.after c).OwnTables :=
    fun c x hc hx => ⟨tabled_after hc.1 hx, hc.2.after x⟩
  obtain ⟨htabled, hown⟩ := run_keeps hstep hstart hds
  obtain ⟨htabled', hown'⟩ := run_keeps hstep ⟨htabled, hown⟩ hmore
  refine ⟨htabled.describesAll hown, htabled'.describesAll hown', ?_⟩
  exact (run_keeps (P := fun c => c.OwnTables ∧ (run ds (.new p)).KeepsTables c)
    (fun c x hc hx => ⟨hc.1.after x, hc.2.trans (hc.1.keepsTables hx)⟩)
    ⟨hown, .refl _⟩ hmore).2

/-- A class of twelve bytes is declared, and once more in another way, and then its array type. -/
def nodes : List Declaration :=
  [.field Core.vtable "BaseSize" 0 Core.byte, .derived "Node" Core.object 12,
    .derived "Node" Core.string 40, .value (.object { context := ⟨18⟩, isMutable := true }),
    .arrayType ⟨18⟩]

/-- The value is changed, the class of virtual tables gets a field of a name that it has, an integer
type gets the name of the class, and an integer type and the array of arrays get virtual tables. -/
def others : List Declaration :=
  [.change ⟨5⟩ (·.withField Core.elementSize .null), .field Core.vtable "ElementSize" 4 Core.byte,
    .scalar "Node" 1 false, .vtable Core.int32, .arrayType ⟨19⟩]

/-- The virtual table of the array of nodes still records the sizes at the end. -/
theorem described_of_run_nodes :
    (run nodes (.new 4)).DescribesAll ∧ (run others (run nodes (.new 4))).DescribesAll ∧
      (run nodes (.new 4)).KeepsTables (run others (run nodes (.new 4))) ∧
      (run others (run nodes (.new 4))).vtable? ⟨19⟩ = some ⟨6⟩ ∧
      ∃ o, (run others (run nodes (.new 4))).descriptor? ⟨6⟩ = some (.object o) ∧
        o.fields = [(Core.baseSize, .scalar 12), (Core.elementSize, .scalar 4)] := by
  have hnodes : AllAllowed (.new 4) nodes := by decide +kernel
  have hothers : AllAllowed (run nodes (.new 4)) others := by decide +kernel
  obtain ⟨hall, hall', hkeeps⟩ := described_of_run hnodes hothers
  exact ⟨hall, hall', hkeeps, by decide +kernel, _, rfl, by decide +kernel⟩

end Declaration

end DataImage
