import DataImage.Proofs.Image.Growth

/-!
# Coherent images

What holds of an image at every moment of a build, also after a step that failed.

* `Image.LaidOut`: each struct looks like the body of a declared type, and structs and functions
  have the names of what they were made for.
* `Image.Registered`: the values with a global and the live globals belong together one by one, and
  a global with contents holds what the catalog says about its value.
* `Image.Coherent` is both. The image of an empty module is coherent, and so is what comes from a
  coherent image by entering a global for a value (`Coherent.enter`), by changing the contents of
  one (`Coherent.change`), and by a global that is merged away at once (`Coherent.bury`).
-/

namespace DataImage

namespace Image

/-! ## The invariant -/

/-- Whether a symbol is written as `name`. -/
def Spells (s : Image) (n : SymbolId) (name : String) : Prop :=
  s.module.symbols.names[n.index]? = some name

/-- What is known about the structs and the functions of an image. -/
structure LaidOut (c : Catalog) (known : TypeId → Prop) (s : Image) : Prop where
  layouts : ∀ t id, s.layouts.lookup t = some id → known t ∧ c.Laid t ∧
    ∃ x, s.module.structs[id.index]? = some x ∧ s.Spells x.name (c.typeName t)
  structs : ∀ (i : Nat) x, s.module.structs[i]? = some x →
    ∃ t slots, s.layouts.lookup t = some ⟨i⟩ ∧ c.body? t = some slots ∧
    List.Forall₂ (fun slot type => s.storage? slot = some type) slots x.fields ∧
    ∀ slot ∈ slots, ∀ u ∈ slot.layouts, ∃ id, s.layouts.lookup u = some id ∧ id.index < i
  structNames : (s.module.structs.map (·.name)).Nodup
  functions : ∀ m id, s.declarations.lookup m = some id → c.Declarable m ∧
    ∃ x, s.module.functions[id.index]? = some x ∧ s.Spells x.name (c.methodSymbol m)

/-- Whether a global stands for a value. -/
structure Stands (c : Catalog) (s : Image) (d : DescriptorId) (v : Descriptor) (x : Global) :
    Prop where
  notNested : v.isNested = false
  live : x.mergedInto = none
  constant : x.constant = !v.isMutable
  name : s.Spells x.name (c.globalName d v)
  typed : v.takesTypeFromContents = false →
    ∃ id, s.layouts.lookup v.context = some id ∧ x.type = .struct id
  filled : ∀ k, x.initializer = some k → ∃ w, c.contents? d = some w ∧ s.constant? w = some k ∧
    (v.takesTypeFromContents = true → x.type = k.type)

/-- What is known about the globals of an image and the values they stand for. -/
structure Registered (c : Catalog) (s : Image) : Prop where
  distinct : (s.entries.map (·.1)).Nodup
  stands : ∀ d g, (d, g) ∈ s.entries → ∃ v x, c.descriptor? d = some v ∧
    s.module.globals[g.index]? = some x ∧ s.Stands c d v x
  live : ∀ (i : Nat) (x : Global), s.module.globals[i]? = some x → x.mergedInto = none →
    ∃ d, (d, ⟨i⟩) ∈ s.entries
  removed : ∀ (i : Nat) (x : Global), s.module.globals[i]? = some x → x.mergedInto ≠ none →
    x.initializer = none
  names : ∀ n g, (n, g) ∈ s.module.globalNames → ∃ d x, (d, g) ∈ s.entries ∧
    s.module.globals[g.index]? = some x ∧ x.name = n

/-- **The invariant of an image build.** -/
structure Coherent (c : Catalog) (known : TypeId → Prop) (s : Image) : Prop
    extends LaidOut c known s, Registered c s

variable {c : Catalog} {known : TypeId → Prop} {s s' : Image}

theorem coherent_new (c : Catalog) (known : TypeId → Prop) (name : String) :
    (Image.new c name).Coherent c known where
  layouts := fun _ _ h => by simp [Image.new] at h
  structs := fun _ _ h => by simp [Image.new] at h
  structNames := List.nodup_nil
  functions := fun _ _ h => by simp [Image.new] at h
  distinct := List.nodup_nil
  stands := fun _ _ h => by simp [Image.new] at h
  live := fun _ _ h => by simp [Image.new] at h
  removed := fun _ _ h => by simp [Image.new] at h
  names := fun _ _ h => by simp [Image.new] at h

/-! ## What carries over -/

theorem Extends.spells (h : s.Extends s') {n : SymbolId} {name : String} (hn : s.Spells n name) :
    s'.Spells n name :=
  Partial.getElem?_of_prefix h.symbols hn

theorem Stands.extends {d : DescriptorId} {v : Descriptor} {x : Global} (hx : s.Stands c d v x)
    (h : s.Extends s') : s'.Stands c d v x where
  notNested := hx.notNested
  live := hx.live
  constant := hx.constant
  name := h.spells hx.name
  typed := fun hv => by
    obtain ⟨id, hid, htype⟩ := hx.typed hv
    exact ⟨id, h.layouts _ _ hid, htype⟩
  filled := fun k hk => by
    obtain ⟨w, hw, hwk, htype⟩ := hx.filled k hk
    exact ⟨w, hw, h.constant? hwk, htype⟩

/-- What is known about a struct carries over. -/
theorem LaidOut.struct_extends (hs : s.LaidOut c known) (h : s.Extends s') {i : Nat}
    {x : StructType} (hx : s.module.structs[i]? = some x) :
    ∃ t slots, s'.layouts.lookup t = some ⟨i⟩ ∧ c.body? t = some slots ∧
      List.Forall₂ (fun slot type => s'.storage? slot = some type) slots x.fields ∧
      ∀ slot ∈ slots, ∀ u ∈ slot.layouts, ∃ id, s'.layouts.lookup u = some id ∧ id.index < i := by
  obtain ⟨t, slots, ht, hbody, hfields, hinner⟩ := hs.structs i x hx
  refine ⟨t, slots, h.layouts _ _ ht, hbody, hfields.imp fun _ _ => h.storage?, ?_⟩
  intro slot hslot u hu
  obtain ⟨id, hid, hlt⟩ := hinner slot hslot u hu
  exact ⟨id, h.layouts _ _ hid, hlt⟩

/-- A step that leaves structs and functions alone keeps what is known about them. -/
theorem LaidOut.extends (hs : s.LaidOut c known) (h : s.Extends s')
    (hlayouts : s'.layouts = s.layouts) (hdeclarations : s'.declarations = s.declarations)
    (hstructs : s'.module.structs = s.module.structs)
    (hfunctions : s'.module.functions = s.module.functions) : s'.LaidOut c known where
  layouts := fun t id hid => by
    rw [hlayouts] at hid
    obtain ⟨hknown, hlaid, x, hx, hname⟩ := hs.layouts t id hid
    exact ⟨hknown, hlaid, x, by rwa [hstructs], h.spells hname⟩
  structs := fun i x hx => by
    rw [hstructs] at hx
    exact hs.struct_extends h hx
  structNames := hstructs ▸ hs.structNames
  functions := fun m id hid => by
    rw [hdeclarations] at hid
    obtain ⟨hm, x, hx, hname⟩ := hs.functions m id hid
    exact ⟨hm, x, by rwa [hfunctions], h.spells hname⟩

/-- A step that leaves the globals alone keeps what is known about them. -/
theorem Registered.extends (hs : s.Registered c) (h : s.Extends s')
    (hentries : s'.entries = s.entries) (hglobals : s'.module.globals = s.module.globals)
    (hnames : s'.module.globalNames = s.module.globalNames) : s'.Registered c where
  distinct := hentries ▸ hs.distinct
  stands := fun d g hd => by
    rw [hentries] at hd
    obtain ⟨v, x, hv, hx, hstands⟩ := hs.stands d g hd
    exact ⟨v, x, hv, by rwa [hglobals], hstands.extends h⟩
  live := fun i x hx => by
    rw [hglobals] at hx
    rw [hentries]
    exact hs.live i x hx
  removed := fun i x hx => by
    rw [hglobals] at hx
    exact hs.removed i x hx
  names := fun n g hn => by
    rw [hnames] at hn
    rw [hentries, hglobals]
    exact hs.names n g hn

namespace Registered

variable (h : s.Registered c)
include h

/-- A global stands for one value only. -/
theorem eq_of_mem {d e : DescriptorId} {g : GlobalId} (hd : (d, g) ∈ s.entries)
    (he : (e, g) ∈ s.entries) : d = e := by
  obtain ⟨v, x, -, hx, hv⟩ := h.stands d g hd
  obtain ⟨w, y, -, hy, hw⟩ := h.stands e g he
  obtain rfl := Option.some.inj (hx.symm.trans hy)
  exact c.globalName_injective (Option.some.inj (hv.name.symm.trans hw.name))

/-- The globals of values are as many as the values. -/
theorem nodup_globals : (s.entries.map (·.2)).Nodup := by
  refine (List.Nodup.of_map _ h.distinct).map_on ?_
  rintro ⟨d, g⟩ hd ⟨e, g'⟩ he hg
  dsimp only at hg
  subst hg
  rw [h.eq_of_mem hd he]

theorem lt_of_mem {d : DescriptorId} {g : GlobalId} (hd : (d, g) ∈ s.entries) :
    g.index < s.module.globals.length := by
  obtain ⟨v, x, -, hx, -⟩ := h.stands d g hd
  exact (List.getElem?_eq_some_iff.1 hx).1

theorem global_eq {d : DescriptorId} {g : GlobalId} (hd : (d, g) ∈ s.entries) :
    ∃ v, c.descriptor? d = some v ∧
      s.module.globals[g.index]? = some (s.module.global g) ∧
      s.Stands c d v (s.module.global g) := by
  obtain ⟨v, x, hv, hx, hstands⟩ := h.stands d g hd
  rw [Module.global_eq_of_getElem? hx]
  exact ⟨v, hv, hx, hstands⟩

theorem not_removed {d : DescriptorId} {g : GlobalId} (hd : (d, g) ∈ s.entries) :
    g.index < s.module.globals.length ∧ (s.module.global g).isRemoved = false := by
  obtain ⟨v, -, -, hstands⟩ := h.global_eq hd
  exact ⟨h.lt_of_mem hd, by rw [Global.isRemoved, hstands.live, Option.isSome_none]⟩

/-- The name of a value without a global is free. -/
theorem not_taken {d : DescriptorId} (hd : s.global? d = none) (v : Descriptor) :
    ¬ s.module.Taken (c.globalName d v) := by
  rintro ⟨n, g, hg, hn⟩
  obtain ⟨e, x, he, hx, rfl⟩ := h.names n g hg
  obtain ⟨w, y, -, hy, hw⟩ := h.stands e g he
  obtain rfl := Option.some.inj (hx.symm.trans hy)
  obtain rfl := c.globalName_injective (Option.some.inj (hn.symm.trans hw.name))
  exact Partial.notMem_of_lookup_eq_none hd g he

theorem key_lt {e : SymbolId × GlobalId} (he : e ∈ s.module.globalNames) :
    e.1.index < s.module.symbols.names.length := by
  obtain ⟨d, x, hd, hx, hname⟩ := h.names e.1 e.2 he
  obtain ⟨v, y, -, hy, hv⟩ := h.stands d e.2 hd
  obtain rfl := Option.some.inj (hx.symm.trans hy)
  rw [← hname]
  exact (List.getElem?_eq_some_iff.1 hv.name).1

/-- A value has one free name at least: no value's name was ever changed. -/
theorem exists_free (d : DescriptorId) (v : Descriptor) :
    ∃ j, j ≤ s.module.globalNames.length ∧
      ¬ s.module.Taken (Module.candidateName (c.globalName d v) j) := by
  cases hnames : s.module.globalNames with
  | nil =>
    refine ⟨0, Nat.zero_le _, ?_⟩
    rintro ⟨n, g, hg, -⟩
    rw [hnames] at hg
    exact absurd hg List.not_mem_nil
  | cons e rest =>
    refine ⟨1, Nat.succ_le_succ (Nat.zero_le _), ?_⟩
    rintro ⟨n, g, hg, hn⟩
    obtain ⟨b, x, hb, hx, rfl⟩ := h.names n g hg
    obtain ⟨w, y, -, hy, hw⟩ := h.stands b g hb
    obtain rfl := Option.some.inj (hx.symm.trans hy)
    exact c.globalName_ne_candidateName b w _ 0 (Option.some.inj (hw.name.symm.trans hn))

/-- Contents refer to globals of values only. -/
theorem exists_entry_of_mention {i : Nat} {x : Global} (hx : s.module.globals[i]? = some x)
    {k : Constant} (hk : x.initializer = some k) {g : GlobalId} (hg : g ∈ k.globals) :
    ∃ d, (d, g) ∈ s.entries := by
  have hlive : x.mergedInto = none := by
    by_contra hne
    rw [h.removed i x hx hne] at hk
    cases hk
  obtain ⟨d, hd⟩ := h.live i x hx hlive
  obtain ⟨v, y, -, hy, hstands⟩ := h.stands d ⟨i⟩ hd
  obtain rfl := Option.some.inj (hx.symm.trans hy)
  obtain ⟨w, -, hwk, -⟩ := hstands.filled k hk
  obtain ⟨e, -, he⟩ := exists_reference_of_mem_globals hwk hg
  exact ⟨e, Partial.mem_of_lookup_eq_some he⟩

end Registered

/-! ## Entering a global -/

/-- The image with one more global at the end, under its name and for a value. -/
def enter (s : Image) (t : SymbolTable) (d : DescriptorId) (x : Global) : Image :=
  { s with
    module := { s.module with
      symbols := t
      globals := s.module.globals ++ [x]
      globalNames := (x.name, ⟨s.module.globals.length⟩) :: s.module.globalNames }
    entries := s.entries ++ [(d, ⟨s.module.globals.length⟩)] }

theorem grows_enter {t : SymbolTable} (ht : s.module.symbols.names <+: t.names)
    (d : DescriptorId) (x : Global) : s.Grows (s.enter t d x) where
  width := rfl
  aliases := rfl
  symbols := ht
  layouts := fun _ _ h => h
  declarations := fun _ _ h => h
  entries := List.prefix_append _ _
  globals := List.prefix_append _ _
  building := rfl

theorem Registered.enter (h : s.Registered c) {t : SymbolTable} {d : DescriptorId} {x : Global}
    {v : Descriptor} (ht : s.module.symbols.names <+: t.names) (hd : s.global? d = none)
    (hv : c.descriptor? d = some v) (hx : (s.enter t d x).Stands c d v x) :
    (s.enter t d x).Registered c where
  distinct := by
    rw [Image.enter, List.map_append, List.nodup_append']
    refine ⟨h.distinct, List.nodup_singleton _, ?_⟩
    rintro e he he'
    obtain rfl := List.mem_singleton.1 he'
    obtain ⟨⟨e, g⟩, hg, rfl⟩ := List.mem_map.1 he
    exact Partial.notMem_of_lookup_eq_none hd g hg
  stands := fun e g he => by
    rcases List.mem_append.1 he with he | he
    · obtain ⟨w, y, hw, hy, hstands⟩ := h.stands e g he
      exact ⟨w, y, hw, Partial.getElem?_of_prefix (grows_enter ht d x).globals hy,
        hstands.extends (grows_enter ht d x).toExtends⟩
    · obtain ⟨rfl, rfl⟩ := Prod.mk.inj (List.mem_singleton.1 he)
      exact ⟨v, x, hv, by simp [Image.enter], hx⟩
  live := fun i y hy hlive => by
    rcases Nat.lt_or_ge i s.module.globals.length with hi | hi
    · rw [Image.enter, List.getElem?_append_left hi] at hy
      obtain ⟨e, he⟩ := h.live i y hy hlive
      exact ⟨e, List.mem_append_left _ he⟩
    · have hlt := (List.getElem?_eq_some_iff.1 hy).1
      simp only [Image.enter, List.length_append, List.length_singleton] at hlt
      obtain rfl : i = s.module.globals.length := by omega
      exact ⟨d, List.mem_append_right _ (List.mem_singleton.2 rfl)⟩
  removed := fun i y hy hremoved => by
    rcases Nat.lt_or_ge i s.module.globals.length with hi | hi
    · rw [Image.enter, List.getElem?_append_left hi] at hy
      exact h.removed i y hy hremoved
    · rw [Image.enter, List.getElem?_append_right hi] at hy
      obtain rfl := List.mem_singleton.1 (List.mem_of_getElem? hy)
      exact absurd hx.live hremoved
  names := fun n g hn => by
    rcases List.mem_cons.1 hn with hn | hn
    · obtain ⟨rfl, rfl⟩ := Prod.mk.inj hn
      exact ⟨d, x, List.mem_append_right _ (List.mem_singleton.2 rfl), by simp [Image.enter], rfl⟩
    · obtain ⟨e, y, he, hy, hname⟩ := h.names n g hn
      exact ⟨e, y, List.mem_append_left _ he,
        Partial.getElem?_of_prefix (grows_enter ht d x).globals hy, hname⟩

theorem Coherent.enter (h : s.Coherent c known) {t : SymbolTable} {d : DescriptorId} {x : Global}
    {v : Descriptor} (ht : s.module.symbols.names <+: t.names) (hd : s.global? d = none)
    (hv : c.descriptor? d = some v) (hx : (s.enter t d x).Stands c d v x) :
    (s.enter t d x).Coherent c known where
  toLaidOut := h.toLaidOut.extends (grows_enter ht d x).toExtends rfl rfl rfl rfl
  toRegistered := h.toRegistered.enter ht hd hv hx

/-! ## Changing a global -/

/-- The image with a global changed. -/
def change (s : Image) (g : GlobalId) (f : Global → Global) : Image :=
  { s with module := s.module.updateGlobal g f }

theorem extends_change (s : Image) (g : GlobalId) (f : Global → Global) :
    s.Extends (s.change g f) :=
  ⟨rfl, rfl, List.prefix_refl _, fun _ _ h => h, fun _ _ h => h, List.prefix_refl _⟩

/-- What stands at a position after a change. -/
theorem getElem?_change {g : GlobalId} {f : Global → Global} {i : Nat} {y : Global}
    (hy : (s.change g f).module.globals[i]? = some y) :
    ∃ x, s.module.globals[i]? = some x ∧ y = if g.index = i then f x else x := by
  rw [change, Module.updateGlobal, List.getElem?_modify] at hy
  obtain ⟨x, hx, rfl⟩ := Option.map_eq_some_iff.1 hy
  exact ⟨x, hx, rfl⟩

theorem getElem?_change_of_eq_some {g : GlobalId} {i : Nat} {x : Global}
    (hx : s.module.globals[i]? = some x) (f : Global → Global) :
    (s.change g f).module.globals[i]? = some (if g.index = i then f x else x) := by
  rw [change, Module.updateGlobal, List.getElem?_modify, hx]
  rfl

/-- A global of a value may change as long as it still stands for the value. -/
theorem Registered.change (h : s.Registered c) {d : DescriptorId} {g : GlobalId} {v : Descriptor}
    (hd : (d, g) ∈ s.entries) (hv : c.descriptor? d = some v) {f : Global → Global}
    (hname : ∀ x, (f x).name = x.name)
    (hf : ∀ x, s.module.globals[g.index]? = some x → s.Stands c d v x → s.Stands c d v (f x)) :
    (s.change g f).Registered c := by
  have changed : ∀ i x, g.index = i → s.module.globals[i]? = some x →
      x.mergedInto = none ∧ s.Stands c d v (f x) := by
    rintro i x rfl hx
    obtain ⟨w, y, hw, hy, hstands⟩ := h.stands d g hd
    obtain rfl := Option.some.inj (hx.symm.trans hy)
    obtain rfl := Option.some.inj (hv.symm.trans hw)
    exact ⟨hstands.live, hf x hx hstands⟩
  refine ⟨h.distinct, ?_, ?_, ?_, ?_⟩
  · intro e g' he
    obtain ⟨w, x, hw, hx, hstands⟩ := h.stands e g' he
    refine ⟨w, _, hw, getElem?_change_of_eq_some hx f, ?_⟩
    split
    · rename_i hg
      obtain rfl : g = g' := by
        cases g
        cases g'
        exact congrArg _ hg
      obtain rfl := h.eq_of_mem hd he
      obtain rfl := Option.some.inj (hv.symm.trans hw)
      exact (hf x hx hstands).extends (extends_change s g f)
    · exact hstands.extends (extends_change s g f)
  · intro i y hy hlive
    obtain ⟨x, hx, rfl⟩ := getElem?_change hy
    split at hlive
    · rename_i hg
      exact h.live i x hx (changed i x hg hx).1
    · exact h.live i x hx hlive
  · intro i y hy hremoved
    obtain ⟨x, hx, rfl⟩ := getElem?_change hy
    split at hremoved
    · rename_i hg
      exact absurd (changed i x hg hx).2.live hremoved
    · rename_i hg
      rw [if_neg hg]
      exact h.removed i x hx hremoved
  · intro n g' hn
    obtain ⟨e, x, he, hx, hxn⟩ := h.names n g' hn
    refine ⟨e, _, he, getElem?_change_of_eq_some hx f, ?_⟩
    split
    · rw [hname, hxn]
    · exact hxn

theorem Coherent.change (h : s.Coherent c known) {d : DescriptorId} {g : GlobalId} {v : Descriptor}
    (hd : (d, g) ∈ s.entries) (hv : c.descriptor? d = some v) {f : Global → Global}
    (hname : ∀ x, (f x).name = x.name)
    (hf : ∀ x, s.module.globals[g.index]? = some x → s.Stands c d v x → s.Stands c d v (f x)) :
    (s.change g f).Coherent c known where
  toLaidOut := h.toLaidOut.extends (extends_change s g f) rfl rfl rfl rfl
  toRegistered := h.toRegistered.change hd hv hname hf

/-! ## Merging a global away -/

/-- The image with one more global at the end that was merged away. -/
def bury (s : Image) (t : SymbolTable) (x : Global) : Image :=
  { s with module := { s.module with symbols := t, globals := s.module.globals ++ [x] } }

theorem grows_bury {t : SymbolTable} (ht : s.module.symbols.names <+: t.names) (x : Global) :
    s.Grows (s.bury t x) where
  width := rfl
  aliases := rfl
  symbols := ht
  layouts := fun _ _ h => h
  declarations := fun _ _ h => h
  entries := List.prefix_refl _
  globals := List.prefix_append _ _
  building := rfl

theorem Registered.bury (h : s.Registered c) {t : SymbolTable} {x : Global}
    (ht : s.module.symbols.names <+: t.names) (hx : x.mergedInto ≠ none)
    (hk : x.initializer = none) : (s.bury t x).Registered c where
  distinct := h.distinct
  stands := fun e g he => by
    obtain ⟨w, y, hw, hy, hstands⟩ := h.stands e g he
    exact ⟨w, y, hw, Partial.getElem?_of_prefix (grows_bury ht x).globals hy,
      hstands.extends (grows_bury ht x).toExtends⟩
  live := fun i y hy hlive => by
    rcases Nat.lt_or_ge i s.module.globals.length with hi | hi
    · rw [Image.bury, List.getElem?_append_left hi] at hy
      exact h.live i y hy hlive
    · rw [Image.bury, List.getElem?_append_right hi] at hy
      obtain rfl := List.mem_singleton.1 (List.mem_of_getElem? hy)
      exact absurd hlive hx
  removed := fun i y hy hremoved => by
    rcases Nat.lt_or_ge i s.module.globals.length with hi | hi
    · rw [Image.bury, List.getElem?_append_left hi] at hy
      exact h.removed i y hy hremoved
    · rw [Image.bury, List.getElem?_append_right hi] at hy
      obtain rfl := List.mem_singleton.1 (List.mem_of_getElem? hy)
      exact hk
  names := fun n g hn => by
    obtain ⟨e, y, he, hy, hname⟩ := h.names n g hn
    exact ⟨e, y, he, Partial.getElem?_of_prefix (grows_bury ht x).globals hy, hname⟩

theorem Coherent.bury (h : s.Coherent c known) {t : SymbolTable} {x : Global}
    (ht : s.module.symbols.names <+: t.names) (hx : x.mergedInto ≠ none)
    (hk : x.initializer = none) : (s.bury t x).Coherent c known where
  toLaidOut := h.toLaidOut.extends (grows_bury ht x).toExtends rfl rfl rfl rfl
  toRegistered := h.toRegistered.bury ht hx hk

end Image

end DataImage
