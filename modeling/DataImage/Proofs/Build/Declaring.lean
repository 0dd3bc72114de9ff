import DataImage.Proofs.Build.Calls
import DataImage.Proofs.Build.Order
import DataImage.Proofs.Module.Declaring

/-!
# Steps that only declare

To lay a type out or to declare a method adds structs and functions to a module and nothing else
(`Build.declarationOf_declares`), also if it fails. In a coherent image this spoils no verification
(`Image.Coherent.isOk_verify`).
-/

namespace DataImage

/-! ## Structs of a coherent image -/

namespace Image

variable {c : Catalog} {known : TypeId → Prop} {s : Image}

/-- The structs in a type that was written down are those of types that were laid out. -/
theorem exists_layout_of_mem_structs {shape : Shape} {type : Storage}
    (h : s.storage? shape = some type) {id : StructId} (hid : id ∈ type.structs) :
    ∃ u ∈ shape.layouts, s.layouts.lookup u = some id := by
  induction shape generalizing type with
  | int bits =>
    obtain rfl := Option.some.inj h
    exact absurd hid List.not_mem_nil
  | ptr =>
    obtain rfl := Option.some.inj h
    exact absurd hid List.not_mem_nil
  | layout u =>
    obtain ⟨id', hid', rfl⟩ := Option.map_eq_some_iff.1 h
    obtain rfl := List.mem_singleton.1 hid
    exact ⟨u, List.mem_singleton.2 rfl, hid'⟩
  | array element count ih =>
    obtain ⟨type', htype, rfl⟩ := Option.map_eq_some_iff.1 h
    exact ih htype hid

/-- The structs in a constant that was written down are those of types that were laid out. -/
theorem exists_layout_of_mem_constant {v : Value} {k : Constant} (h : s.constant? v = some k)
    {id : StructId} (hid : id ∈ k.structs) : ∃ u, s.layouts.lookup u = some id := by
  have inside : ∀ {vs : List Value}, (∀ v ∈ vs, ∀ k, s.constant? v = some k →
      id ∈ k.structs → ∃ u, s.layouts.lookup u = some id) → ∀ {ks : List Constant},
      s.constants? vs = some ks → id ∈ Constant.structsAll ks →
        ∃ u, s.layouts.lookup u = some id := by
    intro vs ih ks hks hmem
    obtain ⟨k, hk, hid⟩ := Constant.mem_structsAll.1 hmem
    obtain ⟨v, hv, hvk⟩ := Partial.exists_of_forall₂_right (constants?_eq_some_iff.1 hks) hk
    exact ih v hv k hvk hid
  induction v using Value.induct generalizing k with
  | int bits value signed =>
    obtain rfl := Option.some.inj h
    exact absurd hid List.not_mem_nil
  | zeroed shape =>
    obtain ⟨type, htype, rfl⟩ := Option.map_eq_some_iff.1 h
    obtain ⟨u, -, hu⟩ := exists_layout_of_mem_structs htype hid
    exact ⟨u, hu⟩
  | named t fields ih =>
    obtain ⟨id', ks, hid', hks, rfl⟩ := constant?_named_eq_some_iff.1 h
    rcases List.mem_append.1 hid with hid | hid
    · obtain rfl := List.mem_singleton.1 hid
      exact ⟨t, hid'⟩
    · exact inside (fun v hv k hk hid => ih v hv hk hid) hks hid
  | anon fields ih =>
    obtain ⟨ks, hks, rfl⟩ := constant?_anon_eq_some_iff.1 h
    exact inside (fun v hv k hk hid => ih v hv hk hid) hks hid
  | array shape elements ih =>
    obtain ⟨element, ks, helement, hks, rfl⟩ := constant?_array_eq_some_iff.1 h
    rcases List.mem_append.1 hid with hid | hid
    · obtain ⟨u, -, hu⟩ := exists_layout_of_mem_structs helement hid
      exact ⟨u, hu⟩
    · exact inside (fun v hv k hk hid => ih v hv hk hid) hks hid
  | reference d =>
    obtain ⟨g, -, rfl⟩ := Option.map_eq_some_iff.1 h
    exact absurd hid List.not_mem_nil
  | function m =>
    obtain ⟨f, -, rfl⟩ := Option.map_eq_some_iff.1 h
    exact absurd hid List.not_mem_nil

/-- **The structs of an image mention earlier ones only.** -/
theorem LaidOut.ordered (h : s.LaidOut c known) : s.module.Ordered := by
  intro i x hx
  obtain ⟨t, slots, -, -, hfields, hinner⟩ := h.structs i x hx
  refine Storage.below_iff.2 fun type htype id hid => ?_
  obtain ⟨slot, hslot, hstorage⟩ := Partial.exists_of_forall₂_right hfields htype
  obtain ⟨u, hu, hlookup⟩ := exists_layout_of_mem_structs hstorage hid
  obtain ⟨id', hid', hlt⟩ := hinner slot hslot u hu
  obtain rfl := Option.some.inj (hlookup.symm.trans hid')
  exact hlt

theorem LaidOut.lt_of_lookup (h : s.LaidOut c known) {t : TypeId} {id : StructId}
    (hid : s.layouts.lookup t = some id) : id.index < s.module.structs.length := by
  obtain ⟨-, -, x, hx, -⟩ := h.layouts t id hid
  exact (List.getElem?_eq_some_iff.1 hx).1

/-- **The globals of an image mention its structs only.** -/
theorem Coherent.grounded (h : s.Coherent c known) : s.module.Grounded := by
  rintro ⟨g, x⟩ hlive k hk
  obtain ⟨hx, hnone⟩ := mem_live_iff.1 hlive
  obtain ⟨d, hd⟩ := h.live g.index x hx hnone
  obtain ⟨v, y, -, hy, hstands⟩ := h.stands d ⟨g.index⟩ hd
  obtain rfl := Option.some.inj (hx.symm.trans hy)
  obtain ⟨w, -, hwk, htype⟩ := hstands.filled k hk
  have hcontents : ∀ id ∈ k.structs, id.index < s.module.structs.length := by
    intro id hid
    obtain ⟨u, hu⟩ := exists_layout_of_mem_constant hwk hid
    exact h.lt_of_lookup hu
  intro id hid
  rcases List.mem_append.1 hid with hid | hid
  · cases htakes : v.takesTypeFromContents with
    | true =>
      rw [htype htakes] at hid
      exact hcontents id (k.structs_type_subset hid)
    | false =>
      obtain ⟨id', hid', htyped⟩ := hstands.typed htakes
      rw [htyped] at hid
      obtain rfl := List.mem_singleton.1 hid
      exact h.lt_of_lookup hid'
  · exact hcontents id hid

/-- **What was verified in a coherent image stays verified** when only structs and functions are
added, with whatever aliases of functions that are there. -/
theorem Coherent.isOk_verify (h : s.Coherent c known) {m : Module} (hm : s.module.Declares m)
    (haliases : ∀ a ∈ m.aliases, a.target.index < m.functions.length)
    (hok : s.module.verify.isOk = true) : m.verify.isOk = true :=
  hm.isOk_verify h.ordered h.grounded haliases hok

end Image

/-! ## Layouts and declarations -/

namespace Build

variable {α β : Type} {c : Catalog}

/-- A step that adds structs and functions to the module at most. -/
def OnlyDeclares (x : Build α) : Prop := ∀ s : Image, s.module.Declares (x.left s).module

namespace OnlyDeclares

protected theorem pure (a : α) : OnlyDeclares (pure a) := fun s => .refl s.module

protected theorem violate (v : Violation) : OnlyDeclares (Build.violate v : Build α) :=
  fun s => .refl s.module

protected theorem overflow : OnlyDeclares (Build.overflow : Build α) := fun s => .refl s.module

protected theorem bind {x : Build α} {f : α → Build β} (hx : OnlyDeclares x)
    (hf : ∀ a, OnlyDeclares (f a)) : OnlyDeclares (x >>= f) := by
  intro s
  have hxs := hx s
  unfold left at hxs ⊢
  cases h : x s with
  | ok a s' =>
    rw [h] at hxs
    rw [run_bind h]
    exact hxs.trans (hf a s')
  | error e s' =>
    rw [h] at hxs
    rw [run_bind_error h]
    exact hxs

theorem get_bind {f : Image → Build β} (hf : ∀ s, OnlyDeclares (f s)) : OnlyDeclares (get >>= f) :=
  fun s => hf s s

theorem onModule {f : Module → α × Module} (hf : ∀ m : Module, m.Declares (f m).2) :
    OnlyDeclares (Build.onModule f) :=
  fun s => hf s.module

theorem modify {f : Image → Image} (hf : ∀ s, (f s).module = s.module) :
    OnlyDeclares (modify f : Build Unit) := by
  intro s
  change s.module.Declares (f s).module
  rw [hf s]
  exact .refl s.module

theorem mapM {f : α → Build β} (hf : ∀ a, OnlyDeclares (f a)) (l : List α) :
    OnlyDeclares (l.mapM f) := by
  induction l with
  | nil => exact .pure []
  | cons a l ih =>
    rw [List.mapM_cons]
    exact (hf a).bind fun _ => ih.bind fun _ => .pure _

end OnlyDeclares

section

variable {layout : TypeId → Build StructId} (hlayout : ∀ u, OnlyDeclares (layout u))

include hlayout

theorem storageWith_declares (t : TypeId) : OnlyDeclares (storageWith c layout t) := by
  unfold storageWith
  split
  · exact .pure _
  · exact (hlayout t).bind fun _ => .pure _

theorem partStorage_declares (t : TypeId) (part : Part) :
    OnlyDeclares (partStorage c layout t part) := by
  cases part with
  | padding => exact storageWith_declares hlayout _
  | field f => exact storageWith_declares hlayout _
  | zeroSized offset => exact .violate _
  | overflow offset => exact .overflow

omit hlayout in
theorem bitWidth_declares (t : TypeId) : OnlyDeclares (bitWidth c t) := by
  rw [bitWidth_eq]
  split
  · exact .pure _
  · exact .overflow

theorem layoutFields_declares (t : TypeId) : OnlyDeclares (layoutFields c layout t) := by
  have parts : ∀ l, OnlyDeclares (List.mapM (partStorage c layout t) l) :=
    OnlyDeclares.mapM fun part => partStorage_declares hlayout t part
  unfold layoutFields
  dsimp only
  split
  · exact (bitWidth_declares t).bind fun _ => .pure _
  · exact parts _
  · split
    · exact (hlayout _).bind fun _ => .pure _
    · split
      · exact .violate _
      · exact (hlayout _).bind fun _ => (parts _).bind fun _ => .pure _
  · exact (hlayout _).bind fun _ => (storageWith_declares hlayout _).bind fun _ => .pure _

end

theorem layoutWithin_declares (depth : Nat) (t : TypeId) :
    OnlyDeclares (layoutWithin c depth t) := by
  induction depth generalizing t with
  | zero => exact .violate _
  | succ depth ih =>
    rw [layoutWithin]
    refine .get_bind fun s => ?_
    cases s.layouts.lookup t with
    | some id => exact .pure id
    | none =>
      refine (layoutFields_declares ih t).bind fun fields => ?_
      refine (OnlyDeclares.onModule fun m => .declareStruct m _ fields).bind fun id => ?_
      exact (OnlyDeclares.modify fun _ => rfl).bind fun _ => .pure id

theorem storageOf_declares (t : TypeId) : OnlyDeclares (storageOf c t) :=
  storageWith_declares (layoutWithin_declares _) t

/-- **To declare a method** adds structs and functions only. -/
theorem declarationOf_declares (m : MethodId) : OnlyDeclares (declarationOf c m) := by
  rw [declarationOf]
  refine .get_bind fun s => ?_
  cases s.declarations.lookup m with
  | some id => exact .pure id
  | none =>
    refine (OnlyDeclares.mapM storageOf_declares _).bind fun params => ?_
    have hresult : OnlyDeclares ((c.method m).result.mapM (storageOf c)) := by
      cases (c.method m).result with
      | none => exact .pure none
      | some t =>
        rw [Option.mapM_some, map_eq_pure_bind]
        exact (storageOf_declares t).bind fun _ => .pure _
    refine hresult.bind fun result => ?_
    refine (OnlyDeclares.onModule fun m' => .declareFunction m' _ params result).bind fun id => ?_
    exact (OnlyDeclares.modify fun _ => rfl).bind fun _ => .pure id

end Build

end DataImage
