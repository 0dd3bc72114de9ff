import DataImage.Proofs.Build.Rebuild
import DataImage.Proofs.Catalog.Lineage
import DataImage.Proofs.Module.Addresses

/-!
# Views of an object

An object can be laid out as its declared type and as each type that this one derives from. The
builder goes down the ancestry of the type in a loop; `objectContents_eq_bind` is the same by
recursion: first the view as the base, then the own fields of the class around it. Hence the view as
the base is the first field of the view as the class, with the same structs and globals
(`contentsAs_base`), and lowered it is the beginning (`Module.constantBytes_aggregate_cons`).

`Call.views_of_run` is what this means after any calls.
-/

namespace DataImage

namespace Catalog

variable {c : Catalog} {part : DescriptorId → Option Value}

/-- The contents of an object as a class are its contents as the base, with the class around. -/
theorem object?_of_wraps {o : ObjectValue} {t base : TypeId} (h : c.Wraps t base) {v : Value}
    (hv : c.object? part o t = some v) :
    ∃ w, c.object? part o base = some w ∧ c.class? part o w t = some v := by
  obtain ⟨a, top, ha, htop, hbelow⟩ := object?_eq_some_iff.1 hv
  obtain ⟨b, hb, rfl⟩ := h.ancestry_eq_ok_iff.1 ha
  rw [List.foldlM_append, Option.bind_eq_bind, Option.bind_eq_some_iff] at hbelow
  obtain ⟨w, hw, hclass⟩ := hbelow
  simp only [List.foldlM_cons, List.foldlM_nil, bind_pure] at hclass
  exact ⟨w, object?_eq_some_iff.2 ⟨b, top, hb, htop, hw⟩, hclass⟩

end Catalog

namespace Build

variable {c : Catalog} {contents : DescriptorId → Build Constant} {o : ObjectValue}
  {t base : TypeId}

/-- **The loop over the ancestry is a recursion on the bases.** -/
theorem objectContents_eq_bind (h : c.Wraps t base) {a : Ancestry} (ha : c.ancestry t = .ok a) :
    objectContents c contents o t =
      objectContents c contents o base >>= fun b => classContents c contents o b t := by
  obtain ⟨b, hb, rfl⟩ := h.ancestry_eq_ok_iff.1 ha
  unfold objectContents
  simp only [ha, hb, List.foldlM_append, List.foldlM_cons, List.foldlM_nil, bind_pure, bind_assoc]

end Build

namespace Module

variable {m : Module} {layout : DataLayout} {kind : RelocationKind}

/-- The bytes and relocations of the first field come first. -/
theorem constantBytes_aggregate_cons {offset : Nat} {name : Option StructId} {b : Constant}
    {rest : List Constant} {bytes : List UInt8} {relocations : List Relocation}
    (h : m.constantBytes layout kind offset (.aggregate name (b :: rest)) =
      .ok (bytes, relocations)) :
    ∃ bytes' relocations', m.constantBytes layout kind offset b = .ok (bytes', relocations') ∧
      bytes' <+: bytes ∧ relocations' <+: relocations := by
  rw [constantBytes] at h
  obtain ⟨first, last, hb, -, rfl, rfl⟩ := constantsBytes_cons_eq_ok_iff.1 h
  exact ⟨first.1, first.2, hb, List.prefix_append _ _, List.prefix_append _ _⟩

end Module

namespace Build

variable {c : Catalog} {s : Image} {d : DescriptorId} {o : ObjectValue} {t u : TypeId}

/-- **The first field of a view as a class** is the view as its base, which the image has. -/
theorem contentsAs_base (hs : s.Coherent c fun _ => True) (hd : c.descriptor? d = some (.object o))
    (hkind : (c.typeDef t).kind = .reference) (hne : t ≠ Core.object) {k : Constant} {s' : Image}
    (h : contentsAs c d t s = .ok k s') :
    s'.Coherent c (fun _ => True) ∧ (∃ a, c.ancestry t = .ok a) ∧
      ∃ base b, c.Wraps t base ∧ (∃ name rest, k = .aggregate name (b :: rest)) ∧
        contentsAs c d base s' = .ok b s' := by
  obtain ⟨-, hs', v, hv, hk, -⟩ := (contentsAs_runs c.closed_true trivial hs).of_ok h
  rw [Catalog.contentsAs?_eq, hd, Option.bind_some] at hv
  obtain ⟨a, -, ha, -⟩ := Catalog.object?_eq_some_iff.1 hv
  obtain ⟨base, wraps⟩ := Catalog.exists_wraps_of_ancestry ha hkind hne
  obtain ⟨w, hw, hclass⟩ := Catalog.object?_of_wraps wraps hv
  have again : ∀ b, s'.constant? w = some b → contentsAs c d base s' = .ok b s' := by
    intro b hb
    refine contentsAs_finds hs'.toRegistered d base w b ?_ hb
    rw [Catalog.contentsAs?_eq, hd]
    exact hw
  refine ⟨hs', ⟨a, ha⟩, base, ?_⟩
  obtain ⟨own, -, ⟨-, chars, -, rfl⟩ | ⟨-, -, rfl⟩⟩ := Catalog.class?_eq_some_iff.1 hclass
  · obtain ⟨ks, hks, rfl⟩ := Image.constant?_anon_eq_some_iff.1 hk
    obtain ⟨b, rest, hb, -, rfl⟩ := Image.constants?_cons_eq_some hks
    exact ⟨b, wraps, ⟨none, rest, rfl⟩, again b hb⟩
  · obtain ⟨id, ks, -, hks, rfl⟩ := Image.constant?_named_eq_some_iff.1 hk
    obtain ⟨b, rest, hb, -, rfl⟩ := Image.constants?_cons_eq_some hks
    exact ⟨b, wraps, ⟨some id, rest, rfl⟩, again b hb⟩

/-- **Every view is the beginning** of the views as types that derive from its type. -/
theorem contentsAs_ancestor (hs : s.Coherent c fun _ => True)
    (hd : c.descriptor? d = some (.object o)) (hu : Relation.ReflTransGen c.Wraps t u)
    {k : Constant} (h : contentsAs c d t s = .ok k s) :
    ∃ k', contentsAs c d u s = .ok k' s ∧ ∀ layout kind offset bytes relocations,
      s.module.constantBytes layout kind offset k = .ok (bytes, relocations) →
      ∃ bytes' relocations',
        s.module.constantBytes layout kind offset k' = .ok (bytes', relocations') ∧
        bytes' <+: bytes ∧ relocations' <+: relocations := by
  induction hu using Relation.ReflTransGen.head_induction_on generalizing k with
  | refl =>
    exact ⟨k, h, fun _ _ _ bytes relocations hk =>
      ⟨bytes, relocations, hk, List.prefix_rfl, List.prefix_rfl⟩⟩
  | head wraps _ ih =>
    obtain ⟨-, -, base, b, wraps', ⟨name, rest, rfl⟩, hb⟩ :=
      contentsAs_base hs hd wraps.1 wraps.2.1 h
    obtain rfl := wraps.base_unique wraps'
    obtain ⟨k', hk', hbytes⟩ := ih hb
    refine ⟨k', hk', fun layout kind offset bytes relocations hk => ?_⟩
    obtain ⟨bs, rs, hbs, hprefix, hprefix'⟩ := Module.constantBytes_aggregate_cons hk
    obtain ⟨bytes', relocations', hlower, hle, hle'⟩ := hbytes layout kind offset bs rs hbs
    exact ⟨bytes', relocations', hlower, hle.trans hprefix, hle'.trans hprefix'⟩

end Build

namespace Call

/-- **Views of an object.** When an object was built as a class other than the root, after whatever
calls, the class has a base, and building the object as the base gives the first field of what was
built and leaves the image as it is. The loop over the ancestry is the recursion on the bases, and
the object as any ancestor has the first bytes and relocations of the object as the class. -/
theorem views_of_run (c : Catalog) (name : String) (calls : List Call) {d : DescriptorId}
    {o : ObjectValue} (hd : c.descriptor? d = some (.object o)) {t : TypeId}
    (hkind : (c.typeDef t).kind = .reference) (hne : t ≠ Core.object) {k : Constant} {s : Image}
    (h : Build.contentsAs c d t (run c calls (Image.new c name)) = .ok k s) :
    ∃ base b, (c.typeDef t).base = some base ∧
      (∃ struct rest, k = .aggregate struct (b :: rest)) ∧
      Build.contentsAs c d base s = .ok b s ∧
      (∀ contents, Build.objectContents c contents o t =
        Build.objectContents c contents o base >>= fun b =>
          Build.classContents c contents o b t) ∧
      ∀ u, Relation.ReflTransGen c.Wraps t u → ∃ k', Build.contentsAs c d u s = .ok k' s ∧
        ∀ layout kind offset bytes relocations,
          s.module.constantBytes layout kind offset k = .ok (bytes, relocations) →
          ∃ bytes' relocations',
            s.module.constantBytes layout kind offset k' = .ok (bytes', relocations') ∧
            bytes' <+: bytes ∧ relocations' <+: relocations := by
  obtain ⟨-, hs⟩ := run_coherent c.closed_true (Image.coherent_new c _ name) calls
    fun _ _ _ _ => trivial
  obtain ⟨hs', ⟨a, ha⟩, base, b, wraps, hfirst, hb⟩ := Build.contentsAs_base hs hd hkind hne h
  have hwrites := ((Build.contentsAs_runs c.closed_true trivial hs).of_ok h).2.2
  have hagain := refinds_of_writes (fun _ hs => Build.contentsAs_finds hs d t) hwrites
    (Image.Extends.refl s) hs'.toRegistered
  exact ⟨base, b, wraps.2.2, hfirst, hb, fun _ => Build.objectContents_eq_bind wraps ha,
    fun u hu => Build.contentsAs_ancestor hs' hd hu hagain⟩

/-- The first of two nodes that refer to each other, and its view as an object of the root class. -/
theorem views_of_run_pair : ∃ k s,
    Build.contentsAs Catalog.pair ⟨5⟩ ⟨18⟩ (Image.new Catalog.pair "Pair") = .ok k s ∧
      ∃ b struct rest, k = .aggregate struct (b :: rest) ∧
        Build.contentsAs Catalog.pair ⟨5⟩ Core.object s = .ok b s := by
  have hrun : (Build.contentsAs Catalog.pair ⟨5⟩ ⟨18⟩).succeedsWith
      (Image.new Catalog.pair "Pair") (fun _ _ => true) = true := by decide +kernel
  obtain ⟨k, s, h, -⟩ := Build.exists_of_succeedsWith hrun
  obtain ⟨base, b, hbase, ⟨struct, rest, hk⟩, hb, -⟩ :=
    views_of_run Catalog.pair "Pair" [] (d := ⟨5⟩) rfl (t := ⟨18⟩) rfl (by decide) h
  obtain rfl : Core.object = base := Option.some.inj hbase
  exact ⟨k, s, h, b, struct, rest, hk, hb⟩

end Call

end DataImage
