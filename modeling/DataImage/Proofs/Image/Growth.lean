import DataImage.Proofs.Catalog.Value
import DataImage.Proofs.Module.Merging

/-!
# Positions in an image

An image gives positions to the declared types, the described values and the methods it has met.
`Image.constant?` writes a `Value` down with these positions, if it has all of them.

While contents are built an image only grows (`Image.Grows`): what has a position keeps it, and no
global that is there changes. Only the filling of placeholders changes globals, and then the image
still knows all that it knew before (`Image.Extends`) and globals with contents stay as they are
(`Image.Settles`).
-/

namespace DataImage.Image

/-! ## Growing images -/

/-- Whatever has a position in `s` has the same one in `s'`. -/
structure Extends (s s' : Image) : Prop where
  width : s'.module.nativeBits = s.module.nativeBits
  aliases : s'.module.aliases = s.module.aliases
  symbols : s.module.symbols.names <+: s'.module.symbols.names
  layouts : ∀ t id, s.layouts.lookup t = some id → s'.layouts.lookup t = some id
  declarations : ∀ m id, s.declarations.lookup m = some id → s'.declarations.lookup m = some id
  entries : s.entries <+: s'.entries

/-- `s'` comes from `s` by adding things only. -/
structure Grows (s s' : Image) : Prop extends Extends s s' where
  globals : s.module.globals <+: s'.module.globals
  building : s'.building = s.building

/-- `s'` comes from `s` without changing a global that has its contents. -/
structure Settles (s s' : Image) : Prop extends Extends s s' where
  initialized : ∀ (i : Nat) x, s.module.globals[i]? = some x → x.initializer.isSome = true →
    s'.module.globals[i]? = some x
  building : s'.building = s.building

variable {s s' s'' : Image}

theorem Extends.refl (s : Image) : s.Extends s :=
  ⟨rfl, rfl, List.prefix_refl _, fun _ _ h => h, fun _ _ h => h, List.prefix_refl _⟩

theorem Extends.trans (h : s.Extends s') (h' : s'.Extends s'') : s.Extends s'' :=
  ⟨h'.width.trans h.width, h'.aliases.trans h.aliases, h.symbols.trans h'.symbols,
    fun t id ht => h'.layouts t id (h.layouts t id ht),
    fun m id hm => h'.declarations m id (h.declarations m id hm), h.entries.trans h'.entries⟩

theorem Grows.refl (s : Image) : s.Grows s := ⟨Extends.refl s, List.prefix_refl _, rfl⟩

theorem Grows.trans (h : s.Grows s') (h' : s'.Grows s'') : s.Grows s'' :=
  ⟨h.toExtends.trans h'.toExtends, h.globals.trans h'.globals, h'.building.trans h.building⟩

theorem Grows.settles (h : s.Grows s') : s.Settles s' :=
  ⟨h.toExtends, fun _ _ hx _ => Partial.getElem?_of_prefix h.globals hx, h.building⟩

theorem Settles.refl (s : Image) : s.Settles s := (Grows.refl s).settles

theorem Settles.trans (h : s.Settles s') (h' : s'.Settles s'') : s.Settles s'' :=
  ⟨h.toExtends.trans h'.toExtends,
    fun i x hx hk => h'.initialized i x (h.initialized i x hx hk) hk,
    h'.building.trans h.building⟩

theorem Extends.global? (h : s.Extends s') {d : DescriptorId} {g : GlobalId}
    (hd : s.global? d = some g) : s'.global? d = some g := by
  obtain ⟨r, hr⟩ := h.entries
  rw [Image.global?, ← hr, List.lookup_append]
  rw [Image.global?] at hd
  rw [hd, Option.some_or]

/-! ## Values written down -/

/-- A shape with the positions of its structs. -/
def storage? (s : Image) : Shape → Option Storage
  | .int bits => some (.int bits)
  | .ptr => some .ptr
  | .layout t => (s.layouts.lookup t).map .struct
  | .array element count => (s.storage? element).map (.array · count)

mutual

/-- A value with the positions of the structs, globals and functions in it. -/
def constant? (s : Image) : Value → Option Constant
  | .int bits value signed => some (.int bits value signed)
  | .zeroed shape => (s.storage? shape).map .zeroed
  | .named t fields =>
    (s.layouts.lookup t).bind fun id => (s.constants? fields).map (.aggregate (some id))
  | .anon fields => (s.constants? fields).map (.aggregate none)
  | .array shape elements =>
    (s.storage? shape).bind fun element => (s.constants? elements).map (.array element)
  | .reference d => (s.global? d).map .globalAddr
  | .function m => (s.declarations.lookup m).map .functionAddr

/-- Values with positions, one by one. -/
def constants? (s : Image) : List Value → Option (List Constant)
  | [] => some []
  | v :: vs => (s.constant? v).bind fun k => (s.constants? vs).map (k :: ·)

end

theorem constants?_eq_some_iff {vs : List Value} {ks : List Constant} :
    s.constants? vs = some ks ↔ List.Forall₂ (fun v k => s.constant? v = some k) vs ks := by
  induction vs generalizing ks with
  | nil =>
    rw [constants?, List.forall₂_nil_left_iff, Option.some.injEq]
    exact eq_comm
  | cons v vs ih =>
    rw [constants?, Option.bind_eq_some_iff, List.forall₂_cons_left_iff]
    constructor
    · rintro ⟨k, hk, h⟩
      obtain ⟨ks', hks, rfl⟩ := Option.map_eq_some_iff.1 h
      exact ⟨k, ks', hk, ih.1 hks, rfl⟩
    · rintro ⟨k, ks', hk, hks, rfl⟩
      exact ⟨k, hk, Option.map_eq_some_iff.2 ⟨ks', ih.2 hks, rfl⟩⟩

theorem constant?_named_eq_some_iff {t : TypeId} {fields : List Value} {k : Constant} :
    s.constant? (.named t fields) = some k ↔
      ∃ id ks, s.layouts.lookup t = some id ∧ s.constants? fields = some ks ∧
        k = .named id ks := by
  rw [constant?, Option.bind_eq_some_iff]
  constructor
  · rintro ⟨id, hid, h⟩
    obtain ⟨ks, hks, rfl⟩ := Option.map_eq_some_iff.1 h
    exact ⟨id, ks, hid, hks, rfl⟩
  · rintro ⟨id, ks, hid, hks, rfl⟩
    exact ⟨id, hid, Option.map_eq_some_iff.2 ⟨ks, hks, rfl⟩⟩

theorem constant?_anon_eq_some_iff {fields : List Value} {k : Constant} :
    s.constant? (.anon fields) = some k ↔
      ∃ ks, s.constants? fields = some ks ∧ k = .anon ks := by
  rw [constant?, Option.map_eq_some_iff]
  exact exists_congr fun ks => and_congr_right fun _ => eq_comm

theorem constant?_array_eq_some_iff {shape : Shape} {elements : List Value} {k : Constant} :
    s.constant? (.array shape elements) = some k ↔
      ∃ element ks, s.storage? shape = some element ∧ s.constants? elements = some ks ∧
        k = .array element ks := by
  rw [constant?, Option.bind_eq_some_iff]
  constructor
  · rintro ⟨element, he, h⟩
    obtain ⟨ks, hks, rfl⟩ := Option.map_eq_some_iff.1 h
    exact ⟨element, ks, he, hks, rfl⟩
  · rintro ⟨element, ks, he, hks, rfl⟩
    exact ⟨element, he, Option.map_eq_some_iff.2 ⟨ks, hks, rfl⟩⟩

/-! ## Growing keeps what is written down -/

theorem Extends.storage? (h : s.Extends s') {shape : Shape} {t : Storage}
    (ht : s.storage? shape = some t) : s'.storage? shape = some t := by
  induction shape generalizing t with
  | int bits => exact ht
  | ptr => exact ht
  | layout u =>
    obtain ⟨id, hid, rfl⟩ := Option.map_eq_some_iff.1 ht
    exact Option.map_eq_some_iff.2 ⟨id, h.layouts u id hid, rfl⟩
  | array element count ih =>
    obtain ⟨t', ht', rfl⟩ := Option.map_eq_some_iff.1 ht
    exact Option.map_eq_some_iff.2 ⟨t', ih ht', rfl⟩

theorem constants?_mono_of {vs : List Value}
    (ih : ∀ v ∈ vs, ∀ k, s.constant? v = some k → s'.constant? v = some k) {ks : List Constant}
    (h : s.constants? vs = some ks) : s'.constants? vs = some ks := by
  rw [constants?_eq_some_iff] at h ⊢
  induction h with
  | nil => exact .nil
  | cons hk _ rest =>
    exact .cons (ih _ List.mem_cons_self _ hk) (rest fun v hv => ih v (List.mem_cons_of_mem _ hv))

theorem Extends.constant? (h : s.Extends s') {v : Value} {k : Constant}
    (hk : s.constant? v = some k) : s'.constant? v = some k := by
  induction v using Value.induct generalizing k with
  | int bits value signed => exact hk
  | zeroed shape =>
    obtain ⟨t, ht, rfl⟩ := Option.map_eq_some_iff.1 hk
    exact Option.map_eq_some_iff.2 ⟨t, h.storage? ht, rfl⟩
  | named t fields ih =>
    obtain ⟨id, ks, hid, hks, rfl⟩ := constant?_named_eq_some_iff.1 hk
    exact constant?_named_eq_some_iff.2
      ⟨id, ks, h.layouts t id hid, constants?_mono_of (fun f hf k => ih f hf) hks, rfl⟩
  | anon fields ih =>
    obtain ⟨ks, hks, rfl⟩ := constant?_anon_eq_some_iff.1 hk
    exact constant?_anon_eq_some_iff.2 ⟨ks, constants?_mono_of (fun f hf k => ih f hf) hks, rfl⟩
  | array shape elements ih =>
    obtain ⟨element, ks, he, hks, rfl⟩ := constant?_array_eq_some_iff.1 hk
    exact constant?_array_eq_some_iff.2
      ⟨element, ks, h.storage? he, constants?_mono_of (fun f hf k => ih f hf) hks, rfl⟩
  | reference d =>
    obtain ⟨g, hg, rfl⟩ := Option.map_eq_some_iff.1 hk
    exact Option.map_eq_some_iff.2 ⟨g, h.global? hg, rfl⟩
  | function m =>
    obtain ⟨f, hf, rfl⟩ := Option.map_eq_some_iff.1 hk
    exact Option.map_eq_some_iff.2 ⟨f, h.declarations m f hf, rfl⟩

theorem Extends.constants? (h : s.Extends s') {vs : List Value} {ks : List Constant}
    (hks : s.constants? vs = some ks) : s'.constants? vs = some ks :=
  constants?_mono_of (fun _ _ _ => h.constant?) hks

/-! ## Addresses -/

/-- **The addresses in a constant are those of the values referred to**, in the same order. -/
theorem globals_constant? {v : Value} {k : Constant} (h : s.constant? v = some k) :
    List.Forall₂ (fun d g => s.global? d = some g) v.references k.globals := by
  have all : ∀ {vs : List Value}, (∀ v ∈ vs, ∀ k, s.constant? v = some k →
      List.Forall₂ (fun d g => s.global? d = some g) v.references k.globals) →
      ∀ {ks : List Constant}, s.constants? vs = some ks →
        List.Forall₂ (fun d g => s.global? d = some g) (Value.referencesAll vs)
          (Constant.globalsAll ks) := by
    intro vs ih ks hks
    rw [constants?_eq_some_iff] at hks
    induction hks with
    | nil => exact .nil
    | cons hk _ rest =>
      rw [Value.referencesAll, Constant.globalsAll]
      exact List.rel_append (ih _ List.mem_cons_self _ hk)
        (rest fun v hv => ih v (List.mem_cons_of_mem _ hv))
  induction v using Value.induct generalizing k with
  | int bits value signed =>
    obtain rfl := Option.some.inj h
    exact .nil
  | zeroed shape =>
    obtain ⟨t, -, rfl⟩ := Option.map_eq_some_iff.1 h
    exact .nil
  | named t fields ih =>
    obtain ⟨id, ks, -, hks, rfl⟩ := constant?_named_eq_some_iff.1 h
    exact all (fun f hf k => ih f hf) hks
  | anon fields ih =>
    obtain ⟨ks, hks, rfl⟩ := constant?_anon_eq_some_iff.1 h
    exact all (fun f hf k => ih f hf) hks
  | array shape elements ih =>
    obtain ⟨element, ks, -, hks, rfl⟩ := constant?_array_eq_some_iff.1 h
    exact all (fun f hf k => ih f hf) hks
  | reference d =>
    obtain ⟨g, hg, rfl⟩ := Option.map_eq_some_iff.1 h
    exact .cons hg .nil
  | function m =>
    obtain ⟨f, -, rfl⟩ := Option.map_eq_some_iff.1 h
    exact .nil

theorem exists_reference_of_mem_globals {v : Value} {k : Constant} (h : s.constant? v = some k)
    {g : GlobalId} (hg : g ∈ k.globals) : ∃ d ∈ v.references, s.global? d = some g :=
  Partial.exists_of_forall₂_right (globals_constant? h) hg

theorem exists_global?_of_mem_references {v : Value} {k : Constant}
    (h : s.constant? v = some k) {d : DescriptorId} (hd : d ∈ v.references) :
    ∃ g ∈ k.globals, s.global? d = some g :=
  Partial.exists_of_forall₂_right (globals_constant? h).flip hd

end DataImage.Image
