import DataImage.Proofs.Build.Rebuild
import DataImage.Proofs.Build.Verified
import DataImage.Proofs.Catalog.Acyclic
import DataImage.Proofs.Catalog.Sizes

/-!
# Sizes of structs in an image

What `Catalog.Sized` says of types, said of the structs that an image has for them and of the sizes
that are computed in words. A struct takes at least the declared size, and exactly this size if the
type is snug throughout; then its fields lie where they were declared, and the elements of an array
follow each other at the distance that the virtual table of the array records
(`Call.sizeOf_of_layoutOf`). A field that runs past the end of a value type makes the struct larger
than declared (`Call.sizeOf_ne_of_overrun`).
-/

namespace DataImage

variable {c : Catalog} {known : TypeId → Prop} {s s' : Image} {t : TypeId}

namespace Image

variable (hs : s.LaidOut c known) (hnames : c.DistinctNames known)

include hs hnames

/-- **The struct of a type** has the size that the catalog says. -/
theorem sizeOf?_struct (hsized : c.Sized t) {id : StructId}
    (hid : s.layouts.lookup t = some id) :
    (∀ n, c.dataLayout.sizeOf? s.module (.struct id) = some n → (c.typeDef t).size ≤ n) ∧
      ((c.typeDef t).size < UInt32.size →
        (c.dataLayout.sizeOf? s.module (.struct id) = some (c.typeDef t).size ↔
          c.SnugThroughout t)) := by
  obtain ⟨n, hn, hle, hiff⟩ := hsized
  have hsize : c.layoutSize? t = some (c.dataLayout.sizeOf s.module (.struct id)) :=
    structSize_eq hs hnames rfl hid
  obtain rfl := Option.some.inj (hn.symm.trans hsize)
  refine ⟨fun n h => (DataLayout.sizeOf?_eq_some_iff.1 h).1 ▸ hle, fun hword => ?_⟩
  rw [DataLayout.sizeOf?_eq_some_iff, hiff]
  exact and_iff_left (Nat.lt_trans hword (by decide))

/-- **What holds a value of a type** has the size that the catalog says. -/
theorem sizeOf?_slot (hsized : ∀ u ∈ (c.shapeOf t).layouts, c.Sized u) {storage : Storage}
    (hstorage : s.storage? (c.shapeOf t) = some storage) :
    (∀ n, c.dataLayout.sizeOf? s.module storage = some n → c.holdingSize t ≤ n) ∧
      (c.holdingSize t < UInt32.size →
        (c.dataLayout.sizeOf? s.module storage = some (c.holdingSize t) ↔
          ((c.typeDef t).isHeldByReference = false → c.SnugThroughout t))) := by
  obtain ⟨n, hn, hle, hiff⟩ := Catalog.exists_size?_shapeOf hsized
  have hsize : c.dataLayout.sizeOf s.module storage = n := by
    rw [sizeOf_storage? hs hnames rfl hstorage, Catalog.shapeSize, hn, Option.getD_some]
  refine ⟨fun k h => (DataLayout.sizeOf?_eq_some_iff.1 h).1 ▸ hsize ▸ hle, fun hword => ?_⟩
  rw [DataLayout.sizeOf?_eq_some_iff, hsize, hiff]
  exact and_iff_left (Nat.lt_trans hword (by decide))

/-- **The fields of a struct** lie where they were declared. -/
theorem exists_field (hc : c.Rooted) (harrays : c.ArraySizes) {id : StructId}
    (hid : s.layouts.lookup t = some id) (hinner : ∀ u, c.Includes t u → c.SnugThroughout u)
    {f : FieldId} (hf : .field f ∈ c.ownParts t) :
    ∃ before slot after, (s.module.struct id).fields = before ++ slot :: after ∧
      s.storage? (c.shapeOf (c.field f).type) = some slot ∧
      c.dataLayout.sizeOf? s.module (.anon before) = some (c.field f).offset := by
  obtain ⟨-, slots, hbody, hfields, hbefore⟩ := hs.body hnames hid
  have hlaid : ∀ slot ∈ slots, ∀ u ∈ slot.layouts, c.Laid u := by
    intro slot hslot u hu
    obtain ⟨id', hid', -⟩ := hbefore slot hslot u hu
    exact (hs.layouts u id' hid').2.1
  obtain ⟨front, rest, rfl, hsize⟩ := hc.exists_slot harrays hbody hlaid hinner hf
  obtain ⟨before, slot, after, heq, hfront, hslot⟩ := Partial.exists_of_forall₂_append_cons hfields
  refine ⟨before, slot, after, heq, hslot, ?_⟩
  have hstructs : ∀ slot ∈ front, ∀ u ∈ slot.layouts, ∀ id, s.layouts.lookup u = some id →
      c.layoutSize? u = some (c.dataLayout.structSize s.module id) :=
    fun _ _ _ _ _ hu => structSize_eq hs hnames rfl hu
  have hsizes : Shape.sizes? c.dataLayout.pointerBytes c.layoutSize? front =
      some (c.dataLayout.sizeOf s.module (.anon before)) := sizesWith_storage? hfront hstructs
  refine DataLayout.sizeOf?_eq_some_iff.2 ⟨Option.some.inj (hsizes.symm.trans hsize), ?_⟩
  exact Nat.lt_trans (Catalog.offset_of_mem_ownParts hf) (by decide)

end Image

namespace Catalog

/-- What the virtual table of an array type records as the size of an element: what holds an
element. Nothing is recorded if that takes no bytes. -/
theorem Tabled.recorded_elementSize (h : c.Tabled) {e : TypeId}
    (ht : (c.typeDef t).kind = .array e) :
    ∃ d table, c.vtable? t = some d ∧ c.descriptor? d = some (.object table) ∧
      (table.fields.lookup Core.elementSize).getD (.scalar 0) =
        .scalar (UInt64.ofNat (c.holdingSize e)) := by
  have hc := h.declared.wellDeclared.toRooted
  obtain ⟨d, hd, hv⟩ := h.tableAsMade (t := t) (by rw [TypeDef.isHeldByReference, ht])
  refine ⟨d, _, hd, hv, ?_⟩
  have hsize : c.elementSize t = c.holdingSize e := by
    rw [elementSize, ← hc.typeDef_eq, ht, holdingSize, hc.typeDef_eq]
  dsimp only [table]
  rw [hsize]
  split
  · rename_i hzero
    rw [hzero]
    rfl
  · rfl

end Catalog

namespace Call

/-- **Sizes in an image.** After whatever calls:

* The struct of a type takes at least the declared size, if its size is a word at all, and it takes
  exactly this size if and only if the type is snug throughout. If all types are whose structs it
  includes, then its own fields lie where they were declared.
* The elements of an array lie as far apart as what holds an element is large, or further, and
  exactly as far if and only if the element is a reference or its type is snug throughout.
* The virtual table that was made for an array type records the size of what holds an element. -/
theorem sizeOf_of_layoutOf (hc : c.Declared) (hs : c.Scoped) (name : String) (calls : List Call)
    (hcalls : ∀ call ∈ calls, ∀ t ∈ call.types, t.index < c.types.length) :
    (∀ t id s, t.index < c.types.length →
      Build.layoutOf c t (run c calls (Image.new c name)) = .ok id s →
      (∀ n, c.dataLayout.sizeOf? s.module (.struct id) = some n → (c.typeDef t).size ≤ n) ∧
      ((c.typeDef t).size < UInt32.size →
        (c.dataLayout.sizeOf? s.module (.struct id) = some (c.typeDef t).size ↔
          c.SnugThroughout t)) ∧
      ((∀ u, c.Includes t u → c.SnugThroughout u) → ∀ f, .field f ∈ c.ownParts t →
        ∃ before slot after, (s.module.struct id).fields = before ++ slot :: after ∧
          s.storage? (c.shapeOf (c.field f).type) = some slot ∧
          c.dataLayout.sizeOf? s.module (.anon before) = some (c.field f).offset)) ∧
    (∀ d a e k s, c.descriptor? d = some (.array a) → (c.typeDef a.context).kind = .array e →
      Build.contentsOf c d (run c calls (Image.new c name)) = .ok k s →
      ∃ base storage ks, k = .anon [base, .array storage ks] ∧
        s.storage? (c.shapeOf e) = some storage ∧
        (∀ n, c.dataLayout.sizeOf? s.module storage = some n → c.holdingSize e ≤ n) ∧
        (c.holdingSize e < UInt32.size →
          (c.dataLayout.sizeOf? s.module storage = some (c.holdingSize e) ↔
            ((c.typeDef e).isHeldByReference = false → c.SnugThroughout e)))) ∧
    (c.Tabled → ∀ t e, (c.typeDef t).kind = .array e →
      ∃ d table, c.vtable? t = some d ∧ c.descriptor? d = some (.object table) ∧
        (table.fields.lookup Core.elementSize).getD (.scalar 0) =
          .scalar (UInt64.ofNat (c.holdingSize e))) := by
  have hrooted := hc.wellDeclared.toRooted
  have hnames := hc.wellDeclared.distinctNames
  have hclosed := hc.wellDeclared.closed hs
  obtain ⟨-, hcoherent⟩ := run_coherent hclosed (Image.coherent_new c _ name) calls hcalls
  refine ⟨fun t id s ht h => ?_, fun d a e k s hd he h => ?_,
    fun htabled t e ht => htabled.recorded_elementSize ht⟩
  · obtain ⟨-, hs', hid, -⟩ := (Build.layoutOf_runs hclosed ht hcoherent).of_ok h
    have hsized := hrooted.sized hc.arraySizes (hs'.layouts t id hid).2.1
    obtain ⟨hle, hiff⟩ := Image.sizeOf?_struct hs'.toLaidOut hnames hsized hid
    exact ⟨hle, hiff, fun hinner f hf =>
      Image.exists_field hs'.toLaidOut hnames hrooted hc.arraySizes hid hinner hf⟩
  · obtain ⟨-, hs', v, hv, hk, -⟩ := (Build.contentsOf_runs hclosed d hcoherent).of_ok h
    rw [Catalog.contents?_eq, hd, Option.bind_some] at hv
    obtain ⟨e', base, elements, he', -, -, hstored, rfl⟩ := Catalog.array?_eq_some_iff.1 hv
    obtain rfl := TypeKind.array.inj (he.symm.trans he')
    obtain ⟨ks, hks, rfl⟩ := Image.constant?_anon_eq_some_iff.1 hk
    obtain ⟨b, rest, -, hrest, rfl⟩ := Image.constants?_cons_eq_some hks
    obtain ⟨x, hx, rfl⟩ := Image.constants?_singleton_eq_some hrest
    obtain ⟨storage, xs, hstorage, -, rfl⟩ := Image.constant?_array_eq_some_iff.1 hx
    have hsized : ∀ u ∈ (c.shapeOf e).layouts, c.Sized u :=
      fun u hu => hrooted.sized hc.arraySizes (hstored u hu)
    obtain ⟨hle, hiff⟩ := Image.sizeOf?_slot hs'.toLaidOut hnames hsized hstorage
    exact ⟨b, storage, xs, rfl, hstorage, hle, hiff⟩

end Call

/-! ## A cell that fits, and one that does not -/

theorem Catalog.ring_tabled : Catalog.ring.Tabled :=
  (((((Tabled.new 4).addValueType _ _).addArrayType _ (by decide +kernel)).addField _ _ _
    _).addDescriptor _).addDescriptor _

/-- A cell has room for its reference. -/
theorem Catalog.ring_snugThroughout : Catalog.ring.SnugThroughout ⟨18⟩ := by
  have hkind : (ring.typeDef ⟨18⟩).kind = .valueType := rfl
  have hparts : ring.ownParts ⟨18⟩ = [.field ⟨8⟩] := by decide +kernel
  refine snugThroughout_iff_fits.2
    ⟨fun base hbase => absurd hkind hbase.kind_ne_valueType, fun f hf => ?_,
      fun e he => by cases hkind.symm.trans he⟩
  rw [hparts] at hf
  obtain rfl := Part.field.inj (List.mem_singleton.1 hf)
  exact ⟨by decide +kernel, fun hheld => absurd hheld (by decide +kernel)⟩

/-- A value type of four bytes with a field of eight. -/
def Catalog.narrow : Catalog :=
  let narrow : TypeId := ⟨18⟩
  let int64 : TypeId := ⟨8⟩
  let c := ((new 4).addValueType "Narrow" 4).2
  (c.addField narrow "Wide" 0 int64).2

namespace Call

/-- In the image of the ring of one cell, the cell takes the four bytes that are declared, and so
does every element of the array. -/
theorem sizeOf_of_layoutOf_ring : ∃ id s k s',
    Build.layoutOf Catalog.ring ⟨18⟩ (Image.new Catalog.ring "Ring") = .ok id s ∧
    Catalog.ring.dataLayout.sizeOf? s.module (.struct id) = some 4 ∧
    Build.contentsOf Catalog.ring ⟨5⟩ (Image.new Catalog.ring "Ring") = .ok k s' ∧
    ∃ base storage ks, k = .anon [base, .array storage ks] ∧
      Catalog.ring.dataLayout.sizeOf? s'.module storage = some 4 ∧
      ∃ d table, Catalog.ring.vtable? ⟨19⟩ = some d ∧
        Catalog.ring.descriptor? d = some (.object table) ∧
        (table.fields.lookup Core.elementSize).getD (.scalar 0) = .scalar 4 := by
  have hlayout : (Build.layoutOf Catalog.ring ⟨18⟩).succeedsWith (Image.new Catalog.ring "Ring")
      (fun _ _ => true) = true := by decide +kernel
  have hcontents : (Build.contentsOf Catalog.ring ⟨5⟩).succeedsWith
      (Image.new Catalog.ring "Ring") (fun _ _ => true) = true := by decide +kernel
  obtain ⟨id, s, hid, -⟩ := Build.exists_of_succeedsWith hlayout
  obtain ⟨k, s', hk, -⟩ := Build.exists_of_succeedsWith hcontents
  obtain ⟨hstructs, harrays, htables⟩ := sizeOf_of_layoutOf Catalog.ring_declared
    (by decide +kernel) "Ring" [] (List.forall_mem_nil _)
  obtain ⟨-, hsize, -⟩ := hstructs ⟨18⟩ id s (by decide +kernel) hid
  have hword : (Catalog.ring.typeDef ⟨18⟩).size < UInt32.size := by decide +kernel
  have hheld : Catalog.ring.holdingSize ⟨18⟩ < UInt32.size := by decide +kernel
  obtain ⟨base, storage, ks, heq, -, -, hstride⟩ := harrays ⟨5⟩ _ ⟨18⟩ k s' rfl rfl hk
  obtain ⟨d, table, hd, hv, hrecorded⟩ := htables Catalog.ring_tabled ⟨19⟩ ⟨18⟩ rfl
  exact ⟨id, s, k, s', hid, (hsize hword).2 Catalog.ring_snugThroughout, hk, base, storage, ks,
    heq, (hstride hheld).2 fun _ => Catalog.ring_snugThroughout, d, table, hd, hv, hrecorded⟩

/-- **Structs do not always have the declared size**: a field can run past the end of its type. -/
theorem sizeOf_ne_of_overrun : ¬ ∀ c : Catalog, c.Declared → c.Scoped → c.Acyclic →
    ∀ t id s, t.index < c.types.length →
      (c.typeDef t).isScalar = true ∨ (c.typeDef t).kind = .valueType ∨
        (c.typeDef t).kind = .reference →
      Build.layoutOf c t (Image.new c "Image") = .ok id s →
      c.dataLayout.sizeOf? s.module (.struct id) = some (c.typeDef t).size := by
  intro h
  have hdeclared : Catalog.narrow.Declared :=
    ((Catalog.Declared.new 4).addValueType _ _).addField _ _ _ _
  have hacyclic : Catalog.narrow.Acyclic :=
    .of_order (by decide +kernel) (by decide +kernel) (by decide +kernel)
  have hrun : (Build.layoutOf Catalog.narrow ⟨18⟩).succeedsWith (Image.new Catalog.narrow "Image")
      (fun id s => Catalog.narrow.dataLayout.sizeOf? s.module (.struct id) == some 8) = true := by
    decide +kernel
  obtain ⟨id, s, hok, hsize⟩ := Build.exists_of_succeedsWith hrun
  have hclaim := h Catalog.narrow hdeclared (by decide +kernel) hacyclic ⟨18⟩ id s
    (by decide +kernel) (Or.inr (Or.inl rfl)) hok
  rw [eq_of_beq hsize] at hclaim
  cases hclaim

end Call

end DataImage
