import DataImage.Proofs.Build.Calls
import DataImage.Proofs.Catalog.Declared
import DataImage.Proofs.Catalog.Forms

/-!
# Building contents again

A value whose contents were built is written down in the image: every struct, global and function
in the constant has its position, and an image never takes a position back. So a second build of
the contents finds all that it asks for. `Build.Finds` says of a step that it does: it gives its
result and leaves the image as it was. There is one statement for each function of the builder, all
of the form `Refinds`: if the catalog says which value the step builds and the image has a constant
for the value, the step finds this constant.

`Call.rebuild_of_run` is what it means for sequences of calls: contents once built are built again
with the same positions and without any change, and the contents of every global are what building
its value gives.
-/

namespace DataImage

namespace Image

variable {s : Image}

/-! ## Constants taken apart -/

theorem constants?_cons_eq_some {v : Value} {vs : List Value} {ks : List Constant}
    (h : s.constants? (v :: vs) = some ks) :
    ∃ k ks', s.constant? v = some k ∧ s.constants? vs = some ks' ∧ ks = k :: ks' := by
  simp only [constants?_eq_some_iff] at h ⊢
  exact List.forall₂_cons_left_iff.1 h

theorem constants?_singleton_eq_some {v : Value} {ks : List Constant}
    (h : s.constants? [v] = some ks) : ∃ k, s.constant? v = some k ∧ ks = [k] := by
  obtain ⟨k, ks', hk, hks', rfl⟩ := constants?_cons_eq_some h
  obtain rfl := Option.some.inj hks'
  exact ⟨k, hk, rfl⟩

theorem constants?_append_eq_some {vs ws : List Value} {ks : List Constant}
    (h : s.constants? (vs ++ ws) = some ks) :
    ∃ ks₁ ks₂, s.constants? vs = some ks₁ ∧ s.constants? ws = some ks₂ ∧ ks = ks₁ ++ ks₂ := by
  induction vs generalizing ks with
  | nil => exact ⟨[], ks, rfl, h, rfl⟩
  | cons v vs ih =>
    obtain ⟨k, ks', hk, hks', rfl⟩ := constants?_cons_eq_some h
    obtain ⟨ks₁, ks₂, hks₁, hks₂, rfl⟩ := ih hks'
    exact ⟨k :: ks₁, ks₂, Build.constants?_cons hk hks₁, hks₂, rfl⟩

end Image

namespace Build

variable {α β : Type} {c : Catalog} {s : Image}

/-! ## Steps that find what they ask for -/

/-- A step that gives a result and leaves the image as it was. -/
def Finds (s : Image) (x : Build α) (a : α) : Prop := x s = .ok a s

namespace Finds

variable {x : Build α} {a : α} {f : α → Build β} {b : β}

protected theorem pure (s : Image) (a : α) : Finds s (pure a) a := rfl

protected theorem bind (hx : Finds s x a) (hf : Finds s (f a) b) : Finds s (x >>= f) b :=
  (run_bind hx f).trans hf

theorem get_bind {f : Image → Build β} (h : Finds s (f s) b) : Finds s (get >>= f) b := h

theorem within {d : DescriptorId} (h : Finds s x a) : Finds s (Build.within d x) a := by
  have hx : x s = .ok a s := h
  simp only [Finds, Build.within, hx]

theorem descriptor_bind {d : DescriptorId} {v : Descriptor} {f : Descriptor → Build β}
    (hd : c.descriptor? d = some v) (h : Finds s (f v) b) :
    Finds s (Build.descriptor c d >>= f) b := by
  rw [Build.descriptor, hd]
  exact h

protected theorem mapM {f : α → Build β} {l : List α} {bs : List β}
    (h : List.Forall₂ (fun a b => Finds s (f a) b) l bs) : Finds s (l.mapM f) bs := by
  induction h with
  | nil => exact Finds.pure s []
  | cons hb _ ih =>
    rw [List.mapM_cons]
    exact hb.bind (ih.bind (Finds.pure s _))

end Finds

/-! ## Positions -/

theorem layoutOf_finds {t : TypeId} {id : StructId} (h : s.layouts.lookup t = some id) :
    Finds s (layoutOf c t) id := by
  rw [layoutOf, layoutWithin]
  refine Finds.get_bind ?_
  rw [h]
  exact Finds.pure s id

theorem storageOf_finds {t : TypeId} {type : Storage}
    (h : s.storage? (c.shapeOf t) = some type) : Finds s (storageOf c t) type := by
  unfold storageOf storageWith
  unfold Catalog.shapeOf at h
  split
  · rename_i href
    rw [if_pos href] at h
    obtain rfl := Option.some.inj h
    exact Finds.pure s Storage.ptr
  · rename_i href
    rw [if_neg href] at h
    obtain ⟨id, hid, rfl⟩ := Option.map_eq_some_iff.1 h
    exact (layoutOf_finds hid).bind (Finds.pure s _)

theorem declarationOf_finds {m : MethodId} {id : FunctionId}
    (h : s.declarations.lookup m = some id) : Finds s (declarationOf c m) id := by
  rw [declarationOf]
  refine Finds.get_bind ?_
  rw [h]
  exact Finds.pure s id

theorem requestWith_finds (hs : s.Registered c) (contents : DescriptorId → Build Constant)
    {d : DescriptorId} {g : GlobalId} (h : s.global? d = some g) :
    Finds s (requestWith c contents d) g := by
  unfold requestWith
  refine Finds.get_bind ?_
  have hlive := hs.resolve (Partial.mem_of_lookup_eq_some h)
  rw [h]
  dsimp only
  rw [hlive]
  exact Finds.pure s g

/-! ## Integers and code -/

/-- A step that finds the constant of a value, if the image has a position for all that is in it. -/
def Refinds (s : Image) (x : Build Constant) (v? : Option Value) : Prop :=
  ∀ v k, v? = some v → s.constant? v = some k → Finds s x k

theorem mapM_finds {f : α → Build Constant} {v? : α → Option Value}
    (h : ∀ a, Refinds s (f a) (v? a)) {l : List α} {vs : List Value} {ks : List Constant}
    (hvs : l.mapM v? = some vs) (hks : s.constants? vs = some ks) : Finds s (l.mapM f) ks := by
  rw [Partial.mapM_eq_some_iff] at hvs
  rw [Image.constants?_eq_some_iff] at hks
  refine Finds.mapM ?_
  induction hvs generalizing ks with
  | nil =>
    rw [List.forall₂_nil_left_iff] at hks
    rw [hks]
    exact .nil
  | cons hv _ ih =>
    obtain ⟨k, ks', hk, hks', rfl⟩ := List.forall₂_cons_left_iff.1 hks
    exact .cons (h _ _ k hv hk) (ih hks')

theorem zero_finds {t : TypeId} {k : Constant}
    (hk : s.constant? (.zeroed (c.shapeOf t)) = some k) :
    Finds s (storageOf c t >>= fun type => pure (.zeroed type)) k := by
  obtain ⟨type, htype, rfl⟩ := Option.map_eq_some_iff.1 hk
  exact (storageOf_finds htype).bind (Finds.pure s _)

theorem scalar_finds (t : TypeId) (raw : UInt64) :
    Refinds s (scalar c t raw) (c.scalar? t raw) := by
  intro v k hv hk
  obtain ⟨hwidth, hv⟩ := Catalog.scalar?_eq_some_iff.1 hv
  unfold scalar
  dsimp only
  rw [if_neg]
  · rcases hv with ⟨hraw, -, rfl⟩ | ⟨hraw, hfits, -, rfl⟩
    · rw [if_pos hraw]
      exact zero_finds hk
    · rw [if_neg hraw, bitWidth_eq, if_pos hfits, pure_bind]
      obtain ⟨id, ks, hid, hks, rfl⟩ := Image.constant?_named_eq_some_iff.1 hk
      obtain ⟨i, hi, rfl⟩ := Image.constants?_singleton_eq_some hks
      obtain rfl := Option.some.inj hi
      exact (layoutOf_finds hid).bind (Finds.pure s _)
  · intro h
    simp only [Bool.and_eq_true, Bool.or_eq_true, decide_eq_true_eq] at h
    have := hwidth h.1
    omega

theorem codeContents_finds (t : TypeId) (place : Place) (p : CodePointerId) :
    Refinds s (codeContents c t place p) (c.code? t p) := by
  intro v k hv hk
  obtain ⟨m, hp, -, -, rfl⟩ := Catalog.code?_eq_some_iff.1 hv
  obtain ⟨id, ks, hid, hks, rfl⟩ := Image.constant?_named_eq_some_iff.1 hk
  obtain ⟨i, hi, rfl⟩ := Image.constants?_singleton_eq_some hks
  obtain ⟨f, hf, rfl⟩ := Option.map_eq_some_iff.1 hi
  unfold codeContents
  simp only [hp]
  exact (declarationOf_finds hf).bind ((layoutOf_finds hid).bind (Finds.pure s _))

theorem characters_finds (o : ObjectValue) : Refinds s (characters c o) (c.characters? o) := by
  intro v k hv hk
  obtain ⟨-, units, hunits, rfl⟩ := Catalog.characters?_eq_some_iff.1 hv
  obtain ⟨element, ks, helement, hks, rfl⟩ := Image.constant?_array_eq_some_iff.1 hk
  unfold characters
  exact (storageOf_finds helement).bind
    ((mapM_finds (fun unit => scalar_finds _ _) hunits hks).bind (Finds.pure s _))

/-! ## Fields and elements -/

section

variable {contents : DescriptorId → Build Constant} {part : DescriptorId → Option Value}
  (hs : s.Registered c) (hcontents : ∀ d, Refinds s (contents d) (part d))

include hs hcontents

theorem payloadContents_finds (t : TypeId) (place : Place) (payload : Payload) :
    Refinds s (payloadContents c contents t place payload) (c.payload? part t payload) := by
  intro v k hv hk
  cases payload with
  | null => exact scalar_finds t 0 v k hv hk
  | scalar raw =>
    simp only [payloadContents, Catalog.payload?] at hv ⊢
    split at hv
    · rename_i hscalar
      rw [if_pos hscalar]
      exact scalar_finds t raw v k hv hk
    · cases hv
  | descriptor d =>
    obtain ⟨w, hw, hv⟩ := Option.bind_eq_some_iff.1 hv
    refine Finds.descriptor_bind hw ?_
    split at hv
    · rename_i hnested
      rw [if_pos hnested]
      exact hcontents d v k hv hk
    · rename_i hnested
      rw [if_neg hnested]
      obtain rfl := Option.some.inj hv
      obtain ⟨g, hg, rfl⟩ := Option.map_eq_some_iff.1 hk
      exact (requestWith_finds hs contents hg).bind (Finds.pure s _)
  | code p => cases hv

theorem fieldContents_finds (o : ObjectValue) (f : FieldId) :
    Refinds s (fieldContents c contents o f) (c.held? part f (o.fields.lookup f)) := by
  intro v k hv hk
  have payload := fun p => payloadContents_finds hs hcontents (c.field f).type
    (.field (c.field f).name (c.typeName (c.field f).owner)) p v k
  unfold fieldContents
  dsimp only
  rcases hheld : o.fields.lookup f with _ | _ | raw | d | p
  · rw [hheld] at hv
    obtain ⟨-, rfl⟩ := Catalog.zero?_eq_some_iff.1 hv
    exact zero_finds hk
  · exact payload .null (by rwa [hheld] at hv) hk
  · exact payload (.scalar raw) (by rwa [hheld] at hv) hk
  · exact payload (.descriptor d) (by rwa [hheld] at hv) hk
  · rw [hheld] at hv
    simp only [Catalog.held?, Catalog.codeField?] at hv ⊢
    split at hv
    · rename_i htarget
      rw [if_pos htarget]
      exact codeContents_finds _ _ p v k hv hk
    · rename_i htarget
      rw [if_neg htarget]
      split at hv
      · rename_i hpointer
        rw [if_pos hpointer]
        obtain ⟨w, hw, hv⟩ := Option.bind_eq_some_iff.1 hv
        obtain ⟨-, rfl⟩ := Catalog.instance?_eq_some_iff.1 hv
        obtain ⟨id, ks, hid, hks, rfl⟩ := Image.constant?_named_eq_some_iff.1 hk
        obtain ⟨target, hk', rfl⟩ := Image.constants?_singleton_eq_some hks
        exact (codeContents_finds _ _ p w target hw hk').bind
          ((layoutOf_finds hid).bind (Finds.pure s _))
      · cases hv

theorem regionContents_finds (o : ObjectValue) (t : TypeId) (offset : Nat) {vs : List Value}
    {ks : List Constant} (hvs : c.regionValues? part o t offset = some vs)
    (hks : s.constants? vs = some ks) :
    Finds s (regionContents c contents o t offset) ks := by
  refine mapM_finds (fun p v k hv hk => ?_) hvs hks
  cases p with
  | padding => exact scalar_finds Core.byte paddingByte v k hv hk
  | field f => exact fieldContents_finds hs hcontents o f v k hv hk
  | zeroSized offset | overflow offset => cases hv

/-! ## Objects -/

omit hcontents in
theorem headerContents_finds (context : TypeId) (isMutable : Bool) :
    Refinds s (headerContents c contents context isMutable) (c.header? context isMutable) := by
  intro v k hv hk
  obtain ⟨vtable, word, hvtable, hword, -, -, rfl⟩ := Catalog.header?_eq_some_iff.1 hv
  obtain ⟨object, ks, hobject, hks, rfl⟩ := Image.constant?_named_eq_some_iff.1 hk
  obtain ⟨inner, hinner, rfl⟩ := Image.constants?_singleton_eq_some hks
  obtain ⟨header, ks', hheader, hks', rfl⟩ := Image.constant?_named_eq_some_iff.1 hinner
  obtain ⟨w, ks'', hw, hks'', rfl⟩ := Image.constants?_cons_eq_some hks'
  obtain ⟨address, haddress, rfl⟩ := Image.constants?_singleton_eq_some hks''
  obtain ⟨g, hg, rfl⟩ := Option.map_eq_some_iff.1 haddress
  unfold headerContents
  rw [hvtable]
  exact (scalar_finds _ _ word w hword hw).bind ((requestWith_finds hs contents hg).bind
    ((layoutOf_finds hheader).bind ((layoutOf_finds hobject).bind (Finds.pure s _))))

theorem topContents_finds (o : ObjectValue) (t : TypeId) :
    Refinds s (topContents c contents o t) (c.top? part o t) := by
  intro v k hv hk
  unfold topContents
  rcases Catalog.top?_eq_some_iff.1 hv with ⟨ht, hv⟩ | ⟨ht, -, fields, hfields, rfl⟩
  · rw [if_pos ht]
    exact headerContents_finds hs _ _ v k hv hk
  · rw [if_neg ht]
    obtain ⟨id, ks, hid, hks, rfl⟩ := Image.constant?_named_eq_some_iff.1 hk
    exact (regionContents_finds hs hcontents o t 0 hfields hks).bind
      ((layoutOf_finds hid).bind (Finds.pure s _))

/-- The constant of an instance has the constant of the base in it. -/
theorem classContents_finds {o : ObjectValue} {t : TypeId} {base v : Value}
    (hv : c.class? part o base t = some v) {k : Constant} (hk : s.constant? v = some k) :
    ∃ b, s.constant? base = some b ∧ Finds s (classContents c contents o b t) k := by
  obtain ⟨own, hown, hv⟩ := Catalog.class?_eq_some_iff.1 hv
  rcases hv with ⟨ht, ⟨chars, hchars, rfl⟩⟩ | ⟨ht, -, rfl⟩
  · obtain ⟨ks, hks, rfl⟩ := Image.constant?_anon_eq_some_iff.1 hk
    obtain ⟨ks₁, ks₂, hks₁, hks₂, rfl⟩ := Image.constants?_append_eq_some hks
    obtain ⟨b, ks', hb, hks', rfl⟩ := Image.constants?_cons_eq_some hks₁
    obtain ⟨last, hlast, rfl⟩ := Image.constants?_singleton_eq_some hks₂
    refine ⟨b, hb, (regionContents_finds hs hcontents o t _ hown hks').bind ?_⟩
    rw [if_pos ht]
    exact (characters_finds o chars last hchars hlast).bind (Finds.pure s _)
  · obtain ⟨id, ks, hid, hks, rfl⟩ := Image.constant?_named_eq_some_iff.1 hk
    obtain ⟨b, ks', hb, hks', rfl⟩ := Image.constants?_cons_eq_some hks
    refine ⟨b, hb, (regionContents_finds hs hcontents o t _ hown hks').bind ?_⟩
    rw [if_neg ht]
    exact (layoutOf_finds hid).bind (Finds.pure s _)

theorem foldlM_classContents_finds {o : ObjectValue} {below : List TypeId} {base v : Value}
    (hv : below.foldlM (c.class? part o) base = some v) {k : Constant}
    (hk : s.constant? v = some k) :
    ∃ b, s.constant? base = some b ∧ Finds s (below.foldlM (classContents c contents o) b) k := by
  induction below generalizing base with
  | nil =>
    obtain rfl := Option.some.inj hv
    exact ⟨k, hk, Finds.pure s k⟩
  | cons t below ih =>
    rw [List.foldlM_cons, Option.bind_eq_bind, Option.bind_eq_some_iff] at hv
    obtain ⟨w, hw, hv⟩ := hv
    obtain ⟨b, hb, hrest⟩ := ih hv
    obtain ⟨b', hb', hclass⟩ := classContents_finds hs hcontents hw hb
    refine ⟨b', hb', ?_⟩
    rw [List.foldlM_cons]
    exact hclass.bind hrest

theorem objectContents_finds (o : ObjectValue) (t : TypeId) :
    Refinds s (objectContents c contents o t) (c.object? part o t) := by
  intro v k hv hk
  obtain ⟨a, top, ha, htop, hv⟩ := Catalog.object?_eq_some_iff.1 hv
  obtain ⟨b, hb, hbelow⟩ := foldlM_classContents_finds hs hcontents hv hk
  unfold objectContents
  rw [ha]
  exact (topContents_finds hs hcontents o a.top top b htop hb).bind hbelow

/-! ## Arrays -/

theorem valueElements_finds {a : ArrayValue} {element : TypeId} {values : List Payload}
    (hlen : values.length = a.length) {vs : List Value}
    (hvs : values.mapM (c.payload? part element) = some vs) {ks : List Constant}
    (hks : s.constants? vs = some ks) :
    Finds s (valueElements c contents a element values) ks := by
  have hmap := List.mapM_map (l := values.zipIdx) (f := Prod.fst) (g := c.payload? part element)
  rw [List.zipIdx_map_fst] at hmap
  unfold valueElements
  rw [if_neg (not_not.2 hlen)]
  exact mapM_finds
    (fun x : Payload × Nat => payloadContents_finds hs hcontents element _ x.1)
    (hmap.symm.trans hvs) hks

omit hs hcontents in
theorem sourceElements_finds {a : ArrayValue} {element : TypeId} {source : List UInt64}
    (hlen : source.length = a.length)
    (hscalar : source = [] ∨ (c.typeDef element).isScalar = true) {vs : List Value}
    (hvs : source.mapM (c.scalar? element) = some vs) {ks : List Constant}
    (hks : s.constants? vs = some ks) : Finds s (sourceElements c a element source) ks := by
  have all := mapM_finds (fun raw => scalar_finds (s := s) element raw) hvs hks
  unfold sourceElements
  rw [if_neg (not_not.2 hlen)]
  cases source with
  | nil => exact all
  | cons first rest =>
    have hscalar := hscalar.resolve_left (List.cons_ne_nil first rest)
    simp only [hscalar]
    exact all

theorem arrayContents_finds (a : ArrayValue) :
    Refinds s (arrayContents c contents a) (c.array? part a) := by
  intro v k hv hk
  obtain ⟨element, base, elements, hkind, hbase, helements, -, rfl⟩ :=
    Catalog.array?_eq_some_iff.1 hv
  obtain ⟨header, length, hheader, hlength, -, rfl⟩ := Catalog.arrayBase?_eq_some_iff.1 hbase
  obtain ⟨ks, hks, rfl⟩ := Image.constant?_anon_eq_some_iff.1 hk
  obtain ⟨b, ks', hb, hks', rfl⟩ := Image.constants?_cons_eq_some hks
  obtain ⟨e, he, rfl⟩ := Image.constants?_singleton_eq_some hks'
  obtain ⟨layout, fs, hlayout, hfs, rfl⟩ := Image.constant?_named_eq_some_iff.1 hb
  obtain ⟨h, fs', hh, hfs', rfl⟩ := Image.constants?_cons_eq_some hfs
  obtain ⟨l, hl, rfl⟩ := Image.constants?_singleton_eq_some hfs'
  obtain ⟨storage, es, hstorage, hes, rfl⟩ := Image.constant?_array_eq_some_iff.1 he
  unfold arrayContents
  rw [hkind]
  refine (headerContents_finds hs _ _ header h hheader hh).bind
    ((scalar_finds _ _ length l hlength hl).bind ((layoutOf_finds hlayout).bind ?_))
  rcases Catalog.elements?_eq_some_iff.1 helements with
    ⟨values, hvalues, hlen, helements⟩ | ⟨hvalues, hlen, hscalar, helements⟩
  · rw [hvalues]
    exact (valueElements_finds hs hcontents hlen helements hes).bind
      ((storageOf_finds hstorage).bind (Finds.pure s _))
  · rw [hvalues]
    exact (sourceElements_finds hlen hscalar helements hes).bind
      ((storageOf_finds hstorage).bind (Finds.pure s _))

/-! ## Values -/

theorem valueContents_finds (v : Descriptor) (t : TypeId) :
    Refinds s (valueContents c contents v t) (c.valueAs? part v t) := by
  cases v with
  | object o => exact objectContents_finds hs hcontents o t
  | array a => exact arrayContents_finds hs hcontents a

omit hcontents

/-- Parts nest no deeper in the second build than the catalog says. -/
theorem contentsWithin_finds {rounds depth : Nat} (h : rounds ≤ depth) (d : DescriptorId)
    (t : TypeId) : Refinds s (contentsWithin c depth d t) (c.valueWithin rounds d t) := by
  induction rounds generalizing depth d t with
  | zero =>
    intro v k hv
    cases hv
  | succ rounds ih =>
    obtain ⟨depth, rfl⟩ := Nat.exists_eq_succ_of_ne_zero (Nat.ne_of_gt (Nat.lt_of_lt_of_le
      rounds.succ_pos h))
    intro v k hv hk
    rw [Catalog.valueWithin_succ, Option.bind_eq_some_iff] at hv
    obtain ⟨w, hw, hv⟩ := hv
    refine Finds.descriptor_bind hw (Finds.within ?_)
    refine valueContents_finds hs (fun e v k hv hk => ?_) w t v k hv hk
    obtain ⟨u, hu, hv⟩ := Option.bind_eq_some_iff.1 hv
    exact Finds.descriptor_bind hu (ih (Nat.le_of_succ_le_succ h) e u.context v k hv hk)

theorem contentsAs_finds (d : DescriptorId) (t : TypeId) :
    Refinds s (contentsAs c d t) (c.contentsAs? d t) :=
  contentsWithin_finds hs (Nat.le_mul_of_pos_left _ (Nat.succ_pos _)) d t

theorem contentsOf_finds (d : DescriptorId) :
    Refinds s (contentsOf c d) (c.contents? d) := by
  intro v k hv hk
  obtain ⟨w, hw, hv⟩ := Option.bind_eq_some_iff.1 hv
  exact Finds.descriptor_bind hw (contentsAs_finds hs d w.context v k hv hk)

end

end Build

namespace Call

variable {c : Catalog} {known : TypeId → Prop} {s s' : Image}

/-- A value that was built is built again with the same result, in any image that still has the
positions. -/
theorem refinds_of_writes {x : Build Constant} {v? : Option Value} {k : Constant} {s₀ : Image}
    (hx : ∀ s, Image.Registered c s → Build.Refinds s x v?) (h : Build.Writes c s₀ v? k s)
    (hextends : s.Extends s') (hs' : s'.Registered c) : x s' = .ok k s' := by
  obtain ⟨v, hv, hk, -⟩ := h
  exact hx s' hs' v k hv (hextends.constant? hk)

/-- The contents of a global are what building its value gives. -/
theorem contentsOf_eq_of_mem (hs : s.Coherent c known) {d : DescriptorId} {g : GlobalId}
    (hd : (d, g) ∈ s.entries) {k : Constant} (hk : (s.module.global g).initializer = some k) :
    Build.contentsOf c d s = .ok k s := by
  obtain ⟨v, -, -, hstands⟩ := hs.global_eq hd
  obtain ⟨w, hw, hwk, -⟩ := hstands.filled k hk
  exact Build.contentsOf_finds hs.toRegistered d w k hw hwk

/-- **Building contents again.** In every image that calls lead to, contents that were built once
are built again with the same structs, globals and functions after any further calls, whether
these fail or not, and the image is left as it is. The contents of every global are those that its
value is built with. -/
theorem rebuild_of_run (c : Catalog) (name : String) (calls more : List Call) :
    let s := run c calls (Image.new c name)
    (∀ d t k s', Build.contentsAs c d t s = .ok k s' →
      Build.contentsAs c d t (run c more s') = .ok k (run c more s')) ∧
    (∀ d k s', Build.contentsOf c d s = .ok k s' →
      Build.contentsOf c d (run c more s') = .ok k (run c more s')) ∧
    ∀ d g, (d, g) ∈ s.entries → ∀ k, (s.module.global g).initializer = some k →
      Build.contentsOf c d s = .ok k s := by
  obtain ⟨-, hs⟩ := run_coherent c.closed_true (Image.coherent_new c _ name) calls
    fun _ _ _ _ => trivial
  have further : ∀ s', Image.Coherent c (fun _ => True) s' →
      s'.Settles (run c more s') ∧ (run c more s').Coherent c fun _ => True :=
    fun s' hs' => run_coherent c.closed_true hs' more fun _ _ _ _ => trivial
  refine ⟨fun d t k s' hrun => ?_, fun d k s' hrun => ?_, fun d g hd k => ?_⟩
  · obtain ⟨-, hs', hwrites⟩ := (Build.contentsAs_runs c.closed_true trivial hs).of_ok hrun
    obtain ⟨hsettles, hs''⟩ := further s' hs'
    exact refinds_of_writes (fun _ h => Build.contentsAs_finds h d t) hwrites
      hsettles.toExtends hs''.toRegistered
  · obtain ⟨-, hs', hwrites⟩ := (Build.contentsOf_runs c.closed_true d hs).of_ok hrun
    obtain ⟨hsettles, hs''⟩ := further s' hs'
    exact refinds_of_writes (fun _ h => Build.contentsOf_finds h d) hwrites
      hsettles.toExtends hs''.toRegistered
  · exact contentsOf_eq_of_mem hs hd

/-- One of two nodes that refer to each other is built again after everything was filled and a
value that does not exist was asked for. -/
theorem rebuild_of_run_pair : ∃ k s,
    Build.contentsOf Catalog.pair ⟨5⟩ (Image.new Catalog.pair "Pair") = .ok k s ∧
      Build.contentsOf Catalog.pair ⟨5⟩ (run Catalog.pair [.resolveAll, .request ⟨99⟩] s) =
        .ok k (run Catalog.pair [.resolveAll, .request ⟨99⟩] s) := by
  have hrun : (Build.contentsOf Catalog.pair ⟨5⟩).succeedsWith (Image.new Catalog.pair "Pair")
      (fun _ _ => true) = true := by decide +kernel
  obtain ⟨k, s, h, -⟩ := Build.exists_of_succeedsWith hrun
  obtain ⟨-, again, -⟩ :=
    rebuild_of_run Catalog.pair "Pair" [] [.resolveAll, .request ⟨99⟩]
  exact ⟨k, s, h, again ⟨5⟩ k s h⟩

end Call

end DataImage
