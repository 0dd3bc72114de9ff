import DataImage.Proofs.Arm.Meaning
import DataImage.Proofs.Assembly.Compile
import DataImage.Proofs.Module.Relocations
import Mathlib.Data.Fintype.Defs

/-!
# What addresses in the image lead to

The contents of a global become a blob, the blob a part of a section, and each address in the
contents a relocation of that section (`Assembly.Finished.relocated`). Relocations go by names. The
names of globals differ from one another, but a function or the entry can have the name of a global,
and the entry that of a function. Then the entry comes first, and a global before a function
(`Assembly.bound_of_run`); where no name is used twice, a relocation is bound to what its address is
the address of.
-/

namespace DataImage

/-! ## Names of live globals -/

/-- **Live globals have different names.** -/
theorem Image.Registered.eq_of_globalName {c : Catalog} {s : Image} (h : s.Registered c)
    {g g' : GlobalId} {x x' : Global} (hx : (g, x) ∈ s.module.live) (hx' : (g', x') ∈ s.module.live)
    (hname : s.module.globalName g = s.module.globalName g') : g = g' := by
  have named : ∀ {g : GlobalId} {x : Global}, (g, x) ∈ s.module.live →
      ∃ d v, (d, g) ∈ s.entries ∧ s.module.globalName g = c.globalName d v := by
    intro g x hx
    obtain ⟨hget, hlive⟩ := Image.mem_live_iff.1 hx
    obtain ⟨d, hd⟩ := h.live g.index x hget hlive
    obtain ⟨v, y, -, hy, hstands⟩ := h.stands d g hd
    refine ⟨d, v, hd, ?_⟩
    rw [Module.globalName, Module.symbol, Module.global_eq_of_getElem? hy,
      SymbolTable.name_eq_of_getElem? hstands.name]
  obtain ⟨d, v, hd, hg⟩ := named hx
  obtain ⟨e, w, he, hg'⟩ := named hx'
  obtain rfl := Catalog.globalName_injective c (hg.symm.trans (hname.trans hg'))
  have hsame := List.inj_on_of_nodup_map h.distinct hd he rfl
  exact (Prod.mk.inj hsame).2

namespace Assembly

/-! ## Symbols of globals, functions and the entry -/

/-- The symbol of a live global marks the blob of the global. -/
def DataSymbol (m : Module) (o : ObjectFile) (g : GlobalId) (s : Symbol) : Prop :=
  ∃ x b, (g, x) ∈ m.live ∧ m.globalBlob (.ofModule m) .abs32 x = .ok b ∧
    o.Marks (Arm.blobPiece b) s

/-- The symbol of the entry marks the last body of the function that the image starts with. -/
def EntrySymbol (bodies : List FunctionBody) (o : ObjectFile) (entry start : String)
    (s : Symbol) : Prop :=
  ∃ f, bodies.reverse.find? (·.name = start) = some f ∧
    o.Marks { Arm.bodyPiece f with name := entry } s

/-- The contents of a live global hold an address at an offset. -/
def AddressAt (m : Module) (g : GlobalId) (n : Nat) (t : Address) : Prop :=
  ∃ x k, (g, x) ∈ m.live ∧ x.initializer = some k ∧
    (n, t) ∈ m.addresses (.ofModule m) 0 k

instance (m : Module) (g : GlobalId) (n : Nat) (t : Address) : Decidable (AddressAt m g n t) :=
  decidable_of_iff (∃ e ∈ m.live, e.1 = g ∧ ∃ k ∈ e.2.initializer,
      (n, t) ∈ m.addresses (.ofModule m) 0 k) <| by
    constructor
    · rintro ⟨⟨g, x⟩, hx, rfl, k, hk, ht⟩
      exact ⟨x, k, hx, hk, ht⟩
    · rintro ⟨x, k, hx, hk, ht⟩
      exact ⟨(g, x), hx, rfl, k, hk, ht⟩

/-- In the section of a global there is a relocation at a distance from the symbol of the global,
bound to a symbol of which something is true. -/
def RelocatedTo (m : Module) (o : ObjectFile) (g : GlobalId) (n : Nat)
    (p : Symbol → Prop) : Prop :=
  ∃ s home symbol, DataSymbol m o g s ∧ s.home = some home ∧
    o.Binds home (s.value.toNat + n) symbol ∧
    p symbol

/-- A symbol is what an address is the address of: the symbol of the global, or of a body of the
function, or an undefined symbol of the function's name when there is no body. -/
def AsNamed (m : Module) (bodies : List FunctionBody) (o : ObjectFile) :
    Address → Symbol → Prop
  | .global g, s => DataSymbol m o g s
  | .function f, s =>
    (∃ b ∈ bodies, b.name = m.functionName f ∧ o.Marks (Arm.bodyPiece b) s) ∨
      (∀ b ∈ bodies, b.name ≠ m.functionName f) ∧ s = (Arm.undefinedSymbol (m.functionName f)).entry

/-- What the relocation of an address is bound to. -/
inductive Bound (m : Module) (bodies : List FunctionBody) (o : ObjectFile)
    (entry start : String) : Address → Symbol → Prop where
  /-- The entry has the name. -/
  | entry {t : Address} {s : Symbol} (name : m.addressName t = entry)
      (symbol : EntrySymbol bodies o entry start s) : Bound m bodies o entry start t s
  /-- A global has the name of the function. -/
  | clash {f : FunctionId} {g : GlobalId} {s : Symbol} (noEntry : m.functionName f ≠ entry)
      (name : m.globalName g = m.functionName f) (symbol : DataSymbol m o g s) :
      Bound m bodies o entry start (.function f) s
  /-- Nothing else has the name. -/
  | named {t : Address} {s : Symbol} (noEntry : m.addressName t ≠ entry)
      (noClash : ∀ f, t = .function f → ∀ g x, (g, x) ∈ m.live →
        m.globalName g ≠ m.functionName f)
      (symbol : AsNamed m bodies o t s) : Bound m bodies o entry start t s

/-! ## From contents to relocations -/

variable {catalog : Catalog} {settings : Settings} {bodies : List FunctionBody}

/-- The blobs of a module for pointers of four bytes. -/
theorem lower_eq_ok {m : Module} (hbits : m.nativeBits = 32) {blobs : List Blob}
    (h : m.lower (.ofModule m) = .ok blobs) :
    List.Forall₂ (fun x b => m.globalBlob (.ofModule m) .abs32 x.2 = .ok b) m.live blobs := by
  have hkind : RelocationKind.ofPointerBytes? (DataLayout.ofModule m).pointerBytes =
      some .abs32 := by
    rw [DataLayout.ofModule, hbits]
    rfl
  rw [Module.lower, hkind] at h
  exact Partial.mapM_eq_ok_iff.1 h

/-- The global of a blob. -/
theorem name_of_mem_live {m : Module} {g : GlobalId} {x : Global} {b : Blob}
    (hx : (g, x) ∈ m.live) (hb : m.globalBlob (.ofModule m) .abs32 x = .ok b) :
    b.name = m.globalName g := by
  obtain ⟨k, -, hname, -⟩ := Module.globalBlob_eq hb
  rw [hname, Module.globalName, Module.global_eq_of_getElem? (Image.mem_live_iff.1 hx).1]

/-- A live global is not resolved to another one. -/
theorem addressName_of_mem_live {m : Module} {g : GlobalId} {x : Global} (hx : (g, x) ∈ m.live) :
    m.addressName (.global g) = m.globalName g := by
  obtain ⟨hget, hlive⟩ := Image.mem_live_iff.1 hx
  rw [Module.addressName, Module.resolve_of_live]
  rw [Module.global_eq_of_getElem? hget, hlive]

section

variable {s : Image} {blobs : List Blob} {entry start : String} {o : ObjectFile}
  (hs : s.Registered catalog)
  (hblobs : List.Forall₂ (fun x b => s.module.globalBlob (.ofModule s.module) .abs32 x.2 = .ok b)
    s.module.live blobs)

include hs hblobs

omit hs in
/-- A live global has a blob of its name. -/
theorem exists_blob {g : GlobalId} {x : Global} (hx : (g, x) ∈ s.module.live) :
    ∃ b ∈ blobs, s.module.globalBlob (.ofModule s.module) .abs32 x = .ok b ∧
      b.name = s.module.globalName g := by
  obtain ⟨b, hb, hblob⟩ := Partial.exists_of_forall₂_right hblobs.flip hx
  exact ⟨b, hb, hblob, name_of_mem_live hx hblob⟩

omit hs in
/-- A blob is that of a live global. -/
theorem exists_live {b : Blob} (hb : b ∈ blobs) :
    ∃ g x, (g, x) ∈ s.module.live ∧
      s.module.globalBlob (.ofModule s.module) .abs32 x = .ok b ∧
      s.module.globalName g = b.name := by
  obtain ⟨⟨g, x⟩, hx, hblob⟩ := Partial.exists_of_forall₂_right hblobs hb
  exact ⟨g, x, hx, hblob, (name_of_mem_live hx hblob).symm⟩

/-- What the name of an address means to the target is what its relocation should be bound to, as
far as names go. -/
theorem bound_of_means {t : Address} {symbol : Symbol}
    (hlive : ∀ g, t = .global g → ∃ x, (g, x) ∈ s.module.live)
    (hmeans : Arm.StandsFor bodies blobs [⟨entry, start⟩] o (s.module.addressName t) symbol) :
    Bound s.module bodies o entry start t symbol := by
  have noEntry : ([⟨entry, start⟩] : List SymbolAlias).reverse.find?
      (·.name = s.module.addressName t) = none → s.module.addressName t ≠ entry := by
    intro hnone hentry
    have := List.find?_eq_none.1 hnone _ (List.mem_reverse.2 List.mem_cons_self)
    exact this (decide_eq_true hentry.symm)
  have noGlobal : blobs.reverse.find? (·.name = s.module.addressName t) = none →
      ∀ g x, (g, x) ∈ s.module.live → s.module.globalName g ≠ s.module.addressName t := by
    intro hnone g x hx hname
    obtain ⟨b, hb, -, hbname⟩ := exists_blob hblobs hx
    have := List.find?_eq_none.1 hnone b (List.mem_reverse.2 hb)
    exact this (decide_eq_true (hbname.trans hname))
  -- an address of a global is the address of a live one, so something has its name
  have someGlobal : ∀ g, t = .global g →
      blobs.reverse.find? (·.name = s.module.addressName t) ≠ none := by
    rintro g rfl hnone
    obtain ⟨x, hx⟩ := hlive g rfl
    exact noGlobal hnone g x hx (addressName_of_mem_live hx).symm
  cases hmeans with
  | @aliased _ f _ last target covers =>
    have hname := List.find?_some last
    obtain rfl := List.mem_singleton.1 (List.mem_reverse.1 (List.mem_of_find?_eq_some last))
    have hentry : entry = s.module.addressName t := of_decide_eq_true hname
    refine .entry hentry.symm ⟨f, target, ?_⟩
    rw [hentry]
    exact covers
  | @blob b _ noAlias last covers =>
    have hname : b.name = s.module.addressName t := by simpa using List.find?_some last
    obtain ⟨g, x, hx, hblob, hgname⟩ :=
      exists_live hblobs (List.mem_reverse.1 (List.mem_of_find?_eq_some last))
    cases t with
    | global h =>
      obtain ⟨y, hy⟩ := hlive h rfl
      have hsame := hgname.trans (hname.trans (addressName_of_mem_live hy))
      obtain rfl := hs.eq_of_globalName hx hy hsame
      exact .named (noEntry noAlias) nofun ⟨x, b, hx, hblob, covers⟩
    | function f => exact .clash (noEntry noAlias) (hgname.trans hname) ⟨x, b, hx, hblob, covers⟩
  | @body f _ noAlias noBlob last covers =>
    have hname : f.name = s.module.addressName t := by simpa using List.find?_some last
    cases t with
    | global h => exact absurd noBlob (someGlobal h rfl)
    | function id =>
      refine .named (noEntry noAlias) (fun f' hf' => ?_) (.inl ⟨f, ?_, hname, covers⟩)
      · obtain rfl := Address.function.inj hf'
        exact noGlobal noBlob
      · exact List.mem_reverse.1 (List.mem_of_find?_eq_some last)
  | undefined noAlias noBlob noBody mem =>
    cases t with
    | global h => exact absurd noBlob (someGlobal h rfl)
    | function id =>
      refine .named (noEntry noAlias) (fun f' hf' => ?_) (.inr ⟨fun f hf hname => ?_, rfl⟩)
      · obtain rfl := Address.function.inj hf'
        exact noGlobal noBlob
      · have := List.find?_eq_none.1 noBody f (List.mem_reverse.2 hf)
        exact this (decide_eq_true hname)

end

section

variable {lib : Library} {v : lib.View} (hv : v.Lawful)

include hv

/-- **Addresses in a finished assembly** have relocations, bound to what their names stand for. -/
theorem Finished.relocated {a : Assembly lib.File}
    (h : Finished catalog settings (Arm.target lib) bodies a)
    (hs : a.image.Coherent catalog fun _ => True) (hbits : a.module.nativeBits = 32) :
    ∃ m blobs d file, catalog.findMethod? settings.bootstrapMethod = some m ∧
      a.module.lower (.ofModule a.module) = .ok blobs ∧
      Arm.draft lib bodies blobs [⟨settings.entrySymbol, catalog.methodSymbol m⟩] = .ok d ∧
      lib.write d = .ok file ∧ a.object = some file ∧
      ((v.contents d).FitsFile (lib.bytes file) → ∃ o, lib.read file = some o ∧
        ∀ g n t, AddressAt a.module g n t → RelocatedTo a.module o g n
          (Bound a.module bodies o settings.entrySymbol (catalog.methodSymbol m) t)) := by
  obtain ⟨m, id, -, blobs, file, hmethod, -, -, -, -, hlower, hemit, hobject⟩ := h.emitted
  have hblobs := lower_eq_ok hbits hlower
  obtain ⟨d, hdraft, hwrite⟩ := Arm.emit_eq_ok_iff.1 hemit
  obtain ⟨placed, aliasSymbols, undefinedNames, hplaces, hemitted⟩ := Arm.exists_emitted hv hdraft
  refine ⟨m, blobs, d, file, hmethod, hlower, hdraft, hwrite, hobject, fun hfits => ?_⟩
  obtain ⟨o, index, hread, hshown⟩ := hemitted.exists_shown hv hwrite hfits
  refine ⟨o, hread, fun g n t ⟨x, k, hx, hk, ht⟩ => ?_⟩
  obtain ⟨b, hb, hblob, -⟩ := exists_blob hblobs hx
  have hpiece : Arm.blobPiece b ∈ Arm.pieces bodies blobs :=
    List.mem_append_right _ (List.mem_map_of_mem hb)
  obtain ⟨s, hcovers, hrelocations⟩ := hshown.binds hplaces hemitted hpiece
  obtain ⟨k', hk', -, hlength, hmap, -⟩ := Module.globalBlob_eq hblob
  obtain rfl := Option.some.inj (hk.symm.trans hk')
  have hr : a.module.relocationOf .abs32 (n, t) ∈ b.relocations :=
    hmap ▸ List.mem_map_of_mem ht
  -- the address takes four bytes of the blob
  have hbytes : (DataLayout.ofModule a.module).pointerBytes = 4 := by
    rw [DataLayout.ofModule, hbits]
  have hwithin : n + 4 ≤ b.bytes.length := by
    have hend := (Module.addresses_within 0 k (n, t) ht).2
    rw [hbytes, Nat.zero_add] at hend
    exact hend.trans_eq hlength.symm
  have hlt : n < b.bytes.length :=
    Nat.lt_of_lt_of_le (Nat.lt_add_of_pos_right (by decide)) hwithin
  obtain ⟨symbol, hbinds, hmeans⟩ := hrelocations _ hr hlt
  refine ⟨s, _, symbol, ⟨x, b, hx, hblob, hcovers⟩, hcovers.home, hbinds,
    bound_of_means hs.toRegistered hblobs (fun h hh => ?_) hmeans⟩
  subst hh
  have hget := (Image.mem_live_iff.1 hx).1
  obtain ⟨e, he⟩ := hs.exists_entry_of_mention hget hk (Module.mem_globals_of_mem_addresses ht)
  obtain ⟨value, y, -, hy, hstands⟩ := hs.stands e h he
  exact ⟨y, Image.mem_live_iff.2 ⟨hy, hstands.live⟩⟩

/-- **What the addresses in an object lead to.** After a compile that goes through with validation,
the object is the file that the library writes from what it was told. If the file has room for this,
a reader finds in it, for each address in the contents of a live global, a relocation in the section
of the global, as far from the global's symbol as the address from the start of the contents. It is
bound to the symbol of what the address is the address of, unless names collide: the symbol of the
entry has all relocations of its name, and the symbol of a global those of a function of the same
name. -/
theorem bound_of_run {start a' : Assembly lib.File}
    (h : Assembly.new catalog settings (Arm.target lib) = .ok start) (actions : List Action)
    (hvalidate : (run actions start).settings.validate = true)
    (hcompile : compile (run actions start) = .ok () a') :
    ∃ m blobs d file, catalog.findMethod? settings.bootstrapMethod = some m ∧
      a'.module.lower (.ofModule a'.module) = .ok blobs ∧
      Arm.draft lib (actions.filterMap Action.body?) blobs
        [⟨settings.entrySymbol, catalog.methodSymbol m⟩] = .ok d ∧
      lib.write d = .ok file ∧ a'.object = some file ∧
      ((v.contents d).FitsFile (lib.bytes file) → ∃ o, lib.read file = some o ∧
        ∀ g n t, AddressAt a'.module g n t → RelocatedTo a'.module o g n
          (Bound a'.module (actions.filterMap Action.body?) o settings.entrySymbol
            (catalog.methodSymbol m) t)) := by
  obtain ⟨hfunctions, -, hpointer⟩ := fresh_of_new h
  have hrun := (Sound.of_new h).run actions
  have hfinished := hrun.finished hvalidate hcompile
  rw [functions_run, hfunctions, List.nil_append] at hfinished
  have hsound := hrun.compile
  rw [left, hcompile] at hsound
  exact hfinished.relocated hv hsound.coherent (hsound.width.trans hpointer.symm)

end

/-- In the object of two nodes, whatever address they hold is bound as its name says. -/
theorem bound_of_run_pair : ∃ a' m file o,
    compile (run [.materialize ⟨5⟩, .addFunction startBody] pairAssembly) = .ok () a' ∧
    pairWithStart.findMethod? "Bootstrap_Initialization" = some m ∧ a'.object = some file ∧
    Arm.library.read file = some o ∧
    ∀ g n t, AddressAt a'.module g n t → RelocatedTo a'.module o g n
      (Bound a'.module [startBody] o "main" (pairWithStart.methodSymbol m) t) := by
  obtain ⟨hvalidate, -⟩ := compile_pairAssembly
  have hrun : (run [.materialize ⟨5⟩, .addFunction startBody] pairAssembly).compilesWith
      (fun _ (o : ObjectFile) => decide o.HasRoom) = true := by decide +kernel
  obtain ⟨a', file, hcompile, hobject, hroom⟩ := exists_of_compilesWith hrun
  obtain ⟨m, blobs, d, file', hmethod, -, -, hwrite, hobject', haddresses⟩ :=
    bound_of_run Arm.lawful new_pairAssembly [.materialize ⟨5⟩, .addFunction startBody]
      hvalidate hcompile
  obtain rfl : file = file' := Option.some.inj (hobject.symm.trans hobject')
  obtain rfl : d.finish = file := Except.ok.inj hwrite
  obtain ⟨o, hread, hbound⟩ :=
    haddresses (Arm.Draft.fits_of_hasRoom (of_decide_eq_true hroom))
  exact ⟨a', m, d.finish, o, hcompile, hmethod, hobject, hread, hbound⟩

/-! ## Names that collide -/

/-- All relocations at a distance from the data symbols of a name are bound to symbols of a type. -/
def BindsOnly (o : ObjectFile) (name : String) (n : Nat) (type : SymbolType) : Prop :=
  ∀ s ∈ o.symbols, s.type = .object → s.name = name →
    ∀ sec ∈ o.sections, s.home = some sec.kind →
      ∀ r ∈ sec.relocations, r.offset.toNat = s.value.toNat + n →
        ∀ symbol ∈ o.symbols[r.symbol]?, symbol.type = type

instance (o : ObjectFile) (name : String) (n : Nat) (type : SymbolType) :
    Decidable (BindsOnly o name n type) := by
  unfold BindsOnly
  infer_instance

/-- Where relocations are bound to symbols of one type only, they are not bound to what has another
type. -/
theorem not_relocatedTo_of_bindsOnly {m : Module} {o : ObjectFile} {g : GlobalId} {n : Nat}
    {type : SymbolType} (h : BindsOnly o (m.globalName g) n type) {p : Symbol → Prop}
    (hp : ∀ s, p s → s.type ≠ type) : ¬ RelocatedTo m o g n p := by
  rintro ⟨s, home, symbol, ⟨x, b, hx, hblob, hcovers⟩, hhome, hbinds, hsymbol⟩
  obtain ⟨sec, hsec, rfl, r, hr, hoffset, hget⟩ := hbinds
  have hname := hcovers.name.trans (name_of_mem_live hx hblob)
  exact hp symbol hsymbol
    (h s hcovers.mem hcovers.type hname sec hsec hhome r hr hoffset symbol hget)

/-- The symbol of a global is one of data. -/
theorem type_of_dataSymbol {m : Module} {o : ObjectFile} {g : GlobalId} {s : Symbol}
    (h : DataSymbol m o g s) : s.type = .object := by
  obtain ⟨x, b, -, -, hcovers⟩ := h
  exact hcovers.type

/-- Of a function without a body nothing is known. -/
theorem type_of_asNamed_function {m : Module} {o : ObjectFile} {f : FunctionId} {s : Symbol}
    (hbodies : ∀ b ∈ bodies, b.name ≠ m.functionName f) (h : AsNamed m bodies o (.function f) s) :
    s.type = .unknown := by
  rcases h with ⟨b, hb, hname, -⟩ | ⟨-, rfl⟩
  · exact absurd hname (hbodies b hb)
  · rfl

/-- Two nodes that refer to each other and to two functions of another program, which have the names
of the nodes. -/
def clashing : Catalog :=
  let node : TypeId := ⟨18⟩
  let next : FieldId := ⟨8⟩
  let run : FieldId := ⟨9⟩
  let c := ((Catalog.new 4).addClass "Node" Core.object 16).2
  let c := (c.addField node "Next" 8 node).2
  let c := (c.addField node "Run" 12 Core.codePointer).2
  let c := (c.addMethod { name := "Bootstrap_Initialization", owner := node }).2
  let c := (c.addMethod { name := "Node_6", owner := node, isExternal := true }).2
  let c := (c.addMethod { name := "Node_5", owner := node, isExternal := true }).2
  let c := (c.addCodePointer (.method ⟨1⟩)).2
  let c := (c.addCodePointer (.method ⟨2⟩)).2
  let c := (c.addDescriptor (.object
    { context := node, isMutable := true,
      fields := [(next, .descriptor ⟨6⟩), (run, .code ⟨0⟩)] })).2
  (c.addDescriptor (.object
    { context := node, isMutable := false,
      fields := [(next, .descriptor ⟨5⟩), (run, .code ⟨1⟩)] })).2

/-- The assembly of these nodes, with an entry that has the name of the first. -/
def clashingAssembly : Assembly Arm.library.File where
  catalog := clashing
  settings := { entrySymbol := "Node_5" }
  target := Arm.target Arm.library
  image := Image.new clashing "image"

theorem new_clashingAssembly :
    Assembly.new clashing { entrySymbol := "Node_5" } (Arm.target Arm.library) =
      .ok clashingAssembly :=
  new_eq_ok rfl rfl (by decide +kernel)

/-- **Where names collide, addresses lead elsewhere.** The second node refers to the first, and the
relocation is bound to the entry. So is that of its function, which has no body. The relocation of
the function of the first node is bound to the second node. -/
theorem not_relocated_clashing : ∃ a' file o,
    Assembly.new clashing { entrySymbol := "Node_5" } (Arm.target Arm.library) =
      .ok clashingAssembly ∧
    (run [.materialize ⟨5⟩, .addFunction startBody] clashingAssembly).settings.validate = true ∧
    compile (run [.materialize ⟨5⟩, .addFunction startBody] clashingAssembly) = .ok () a' ∧
    a'.object = some file ∧ Arm.library.read file = some o ∧
    (AddressAt a'.module ⟨2⟩ 8 (.global ⟨0⟩) ∧
      ¬ RelocatedTo a'.module o ⟨2⟩ 8 (AsNamed a'.module [startBody] o (.global ⟨0⟩))) ∧
    (AddressAt a'.module ⟨2⟩ 12 (.function ⟨1⟩) ∧
      ¬ RelocatedTo a'.module o ⟨2⟩ 12 (AsNamed a'.module [startBody] o (.function ⟨1⟩))) ∧
    (AddressAt a'.module ⟨0⟩ 12 (.function ⟨0⟩) ∧
      ¬ RelocatedTo a'.module o ⟨0⟩ 12 (AsNamed a'.module [startBody] o (.function ⟨0⟩))) := by
  have hvalidate : (run [.materialize ⟨5⟩, .addFunction startBody]
      clashingAssembly).settings.validate = true := by decide +kernel
  have hrun : (run [.materialize ⟨5⟩, .addFunction startBody] clashingAssembly).compilesWith
      (fun a' (o : ObjectFile) => decide
        ((AddressAt a'.module ⟨2⟩ 8 (.global ⟨0⟩) ∧
            AddressAt a'.module ⟨2⟩ 12 (.function ⟨1⟩) ∧
            AddressAt a'.module ⟨0⟩ 12 (.function ⟨0⟩)) ∧
          (BindsOnly o (a'.module.globalName ⟨2⟩) 8 .func ∧
            BindsOnly o (a'.module.globalName ⟨2⟩) 12 .func ∧
            BindsOnly o (a'.module.globalName ⟨0⟩) 12 .object) ∧
          ((∀ b ∈ [startBody], b.name ≠ a'.module.functionName ⟨1⟩) ∧
            ∀ b ∈ [startBody], b.name ≠ a'.module.functionName ⟨0⟩))) = true := by
    decide +kernel
  obtain ⟨a', (o : ObjectFile), hcompile, hobject, hcheck⟩ := exists_of_compilesWith hrun
  obtain ⟨⟨hnext, hrun₁, hrun₂⟩, ⟨hbinds, hbinds₁, hbinds₂⟩, hbody₁, hbody₂⟩ :=
    of_decide_eq_true hcheck
  refine ⟨a', o, o, new_clashingAssembly, hvalidate, hcompile, hobject, rfl, ⟨hnext, ?_⟩,
    ⟨hrun₁, ?_⟩, ⟨hrun₂, ?_⟩⟩
  · refine not_relocatedTo_of_bindsOnly hbinds fun s hs => ?_
    rw [type_of_dataSymbol hs]
    decide
  · refine not_relocatedTo_of_bindsOnly hbinds₁ fun s hs => ?_
    rw [type_of_asNamed_function hbody₁ hs]
    decide
  · refine not_relocatedTo_of_bindsOnly hbinds₂ fun s hs => ?_
    rw [type_of_asNamed_function hbody₂ hs]
    decide

end Assembly

end DataImage
