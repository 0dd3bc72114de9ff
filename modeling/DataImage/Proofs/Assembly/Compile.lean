import DataImage.Arm.Emission
import DataImage.Arm.Writer
import DataImage.Proofs.Assembly.Actions
import DataImage.Proofs.Build.Sweep
import Mathlib.Data.List.Induction

/-!
# What a compile leaves

A compile that goes through with validation leaves a finished assembly (`Assembly.Finished`): all
values have their contents, a verification finds nothing in the module as it then stands, the entry
is the only alias, the object is that of this module, and to compile once more changes nothing. The
entry is given after the verification, but it only adds to what was verified
(`Assembly.Sound.entered`). Nothing but such a compile touches the object
(`Assembly.finished_of_run`).
-/

namespace DataImage

/-! ## Giving the entry twice -/

theorem SymbolTable.intern_intern (t : SymbolTable) (name : String) :
    (t.intern name).2.intern name = t.intern name := by
  have hmem : name ∈ (t.intern name).2.names :=
    List.mem_of_getElem? (t.getElem?_intern name)
  have hname := t.getElem?_intern name
  rw [intern, dif_pos hmem]
  refine Prod.ext (eq_of_getElem? ?_ hname) rfl
  rw [List.getElem?_eq_getElem (List.idxOf_lt_length_of_mem hmem), List.getElem_idxOf]

namespace Module

variable {m : Module} {name : String} {f : FunctionId}

/-- If no other name has an alias, then afterwards neither. -/
theorem aliases_setAlias
    (h : ∀ a ∈ m.aliases, m.symbols.names[a.name.index]? = some name) :
    (m.setAlias name f).aliases = [⟨(m.symbols.intern name).1, f⟩] := by
  have hnone : m.aliases.filter (·.name ≠ (m.symbols.intern name).1) = [] := by
    rw [List.filter_eq_nil_iff]
    intro a ha
    have hsame := SymbolTable.eq_of_getElem?
      (Partial.getElem?_of_prefix (m.symbols.names_prefix_intern name) (h a ha))
      (m.symbols.getElem?_intern name)
    simp [hsame]
  rw [setAlias, intern_eq]
  dsimp only
  rw [hnone, List.nil_append]

/-- An alias that is there is not set again. -/
theorem setAlias_setAlias : (m.setAlias name f).setAlias name f = m.setAlias name f := by
  have hsymbols : (m.setAlias name f).symbols = (m.symbols.intern name).2 := rfl
  have hothers : (m.setAlias name f).aliases.filter (·.name ≠ (m.symbols.intern name).1) =
      m.aliases.filter (·.name ≠ (m.symbols.intern name).1) := by
    rw [setAlias, intern_eq, List.filter_append, List.filter_filter]
    simp
  rw [setAlias, intern_eq, hsymbols, SymbolTable.intern_intern]
  dsimp only
  rw [hothers]
  rfl

end Module

namespace Assembly

variable {Object : Type} {catalog : Catalog} {settings : Settings} {target : Target Object}
  {a a' start : Assembly Object}

/-- The body of a function that an action adds. -/
def Action.body? : Action → Option FunctionBody
  | .addFunction f => some f
  | _ => none

/-- What is true once a compile went through with validation, given the bodies of functions that
were added. -/
structure Finished (catalog : Catalog) (settings : Settings) (target : Target Object)
    (bodies : List FunctionBody) (a : Assembly Object) : Prop where
  /-- Every value with a global has its contents. -/
  filled : ∀ e ∈ a.image.entries, a.module.isPlaceholder e.2 = false
  pending : a.image.pending = 0
  /-- The module with its entry has no faults. -/
  verified : a.module.verify.isOk = true
  /-- The entry symbol stands for the declaration of the bootstrap method and has no other use, and
  the object is what the target makes of the module. -/
  emitted : ∃ m id n blobs object,
    catalog.findMethod? settings.bootstrapMethod = some m ∧
    Build.declarationOf catalog m a.image = .ok id a.image ∧
    a.module.aliases = [{ name := n, target := id }] ∧
    a.module.symbol n = settings.entrySymbol ∧
    a.module.functionName id = catalog.methodSymbol m ∧
    a.module.lower (.ofModule a.module) = .ok blobs ∧
    target.emit bodies blobs [⟨settings.entrySymbol, catalog.methodSymbol m⟩] = .ok object ∧
    a.object = some object
  /-- One more compile changes nothing. -/
  again : compile a = .ok () a

/-! ## A compile that goes through -/

theorem emit_eq_ok_iff {object : Object} : a.emit = .ok object ↔
    ∃ blobs, a.module.lower (.ofModule a.module) = .ok blobs ∧
      a.target.emit a.functions blobs (symbolAliases a.module) = .ok object := by
  unfold emit
  cases a.module.lower (.ofModule a.module) with
  | error e => simp
  | ok blobs => cases h : a.target.emit a.functions blobs (symbolAliases a.module) <;> simp [h]

theorem declarationOf_eq {c : Catalog} {m : MethodId} {id : FunctionId} {s : Image}
    (hid : s.declarations.lookup m = some id) : Build.declarationOf c m s = .ok id s := by
  rw [Build.declarationOf, Build.run_bind (Build.run_get s), hid]
  rfl

/-- In an image whose values all have their contents, filling fills nothing. -/
theorem resolveAll_eq {c : Catalog} {known : TypeId → Prop} {s : Image} (hc : c.Closed known)
    (hs : s.Coherent c known) (hfilled : ∀ d g, (d, g) ∈ s.entries → s.IsFilled g) :
    Build.resolveAll c s = .ok 0 s :=
  (Build.resolveAll_eq_ok_iff hc hs).2 ⟨[], .done (hs.nextPlaceholder?_eq_none hfilled), rfl⟩

/-- What the declaration of a method leaves of an image whose values all have their contents. -/
theorem Sound.declared (h : Sound catalog settings target a)
    (hfilled : ∀ d g, (d, g) ∈ a.image.entries → a.image.IsFilled g) {m : MethodId}
    {id : FunctionId} {s : Image} (hdeclare : Build.declarationOf catalog m a.image = .ok id s) :
    (∀ d g, (d, g) ∈ s.entries → s.IsFilled g) ∧ s.declarations.lookup m = some id := by
  obtain ⟨hgrows, -, hid, hentries⟩ :=
    (Build.declarationOf_runs catalog.closed_true m h.coherent).of_ok hdeclare
  refine ⟨fun d g hd => ?_, hid⟩
  rw [hentries] at hd
  exact hgrows.settles.isFilled (hfilled d g hd)

theorem setEntry_setEntry (a : Assembly Object) (id : FunctionId) :
    (a.setEntry id).setEntry id = a.setEntry id := by
  have hmodule : (a.module.setAlias a.settings.entrySymbol id).setAlias a.settings.entrySymbol id =
      a.module.setAlias a.settings.entrySymbol id := Module.setAlias_setAlias
  change { a.setEntry id with image := { a.image with module :=
    (a.module.setAlias a.settings.entrySymbol id).setAlias a.settings.entrySymbol id } } = _
  rw [hmodule]
  rfl

/-- A compile of a module that has its entry already makes the object again. -/
theorem Sound.compile_eq (h : Sound catalog settings target a)
    (hvalidate : a.settings.validate = true)
    (hfilled : ∀ d g, (d, g) ∈ a.image.entries → a.image.IsFilled g)
    (hverified : a.module.verify.isOk = true) {m : MethodId} {id : FunctionId} {object : Object}
    (hmethod : catalog.findMethod? settings.bootstrapMethod = some m)
    (hid : a.image.declarations.lookup m = some id) (hentry : a.setEntry id = a)
    (hemit : a.emit = .ok object) :
    Assembly.compile a = .ok () { a with object := some object } := by
  have hsame : a.withImage a.image = a := rfl
  rw [← h.catalog_eq, ← h.bootstrapMethod] at hmethod
  rw [compile_eq_finish (resolveAll_eq a.catalog.closed_true (h.catalog_eq ▸ h.coherent) hfilled),
    if_pos hvalidate, hsame, finish_eq_emit hverified hmethod (declarationOf_eq hid), hsame, hentry,
    hemit]

/-- **What the entry adds to a verified assembly** once its function is declared: it is the only
alias, and the module stays as verified. -/
theorem Sound.entered (h : Sound catalog settings target a) (hverify : a.module.verify.isOk = true)
    {m : MethodId} {id : FunctionId} {s : Image}
    (hdeclare : Build.declarationOf catalog m a.image = .ok id s) :
    Sound catalog settings target ((a.withImage s).setEntry id) ∧
      ((a.withImage s).setEntry id).module.verify.isOk = true ∧
      ∃ n, ((a.withImage s).setEntry id).module.aliases = [{ name := n, target := id }] ∧
        ((a.withImage s).setEntry id).module.symbol n = settings.entrySymbol ∧
        ((a.withImage s).setEntry id).module.functionName id = catalog.methodSymbol m ∧
        symbolAliases ((a.withImage s).setEntry id).module =
          [⟨settings.entrySymbol, catalog.methodSymbol m⟩] := by
  obtain ⟨hgrows, hs, hid, -⟩ :=
    (Build.declarationOf_runs catalog.closed_true m h.coherent).of_ok hdeclare
  obtain ⟨-, x, hx, -⟩ := hs.functions m id hid
  have hlt : id.index < s.module.functions.length := (List.getElem?_eq_some_iff.1 hx).1
  have hdeclares : a.module.Declares s.module := by
    have hleft := Build.declarationOf_declares (c := catalog) m a.image
    rwa [Build.left, hdeclare] at hleft
  have hdeclared := h.withImage hgrows.settles hs
  have hsound := hdeclared.setEntry id
  have haliases : (s.module.setAlias a.settings.entrySymbol id).aliases =
      [⟨(s.module.symbols.intern a.settings.entrySymbol).1, id⟩] :=
    Module.aliases_setAlias (h.entrySymbol ▸ hdeclared.aliases)
  have hname : (s.module.setAlias a.settings.entrySymbol id).functionName id =
      catalog.methodSymbol m := hsound.coherent.toLaidOut.functionName_eq hid
  have hentry : (s.module.setAlias a.settings.entrySymbol id).symbol
      (s.module.symbols.intern a.settings.entrySymbol).1 = settings.entrySymbol := by
    rw [← h.entrySymbol]
    exact SymbolTable.name_eq_of_getElem? (s.module.symbols.getElem?_intern _)
  have hverified : (s.module.setAlias a.settings.entrySymbol id).verify.isOk = true := by
    refine h.coherent.isOk_verify (hdeclares.trans (.setAlias _ _ _)) ?_ hverify
    rw [haliases]
    exact List.forall_mem_singleton.2 hlt
  refine ⟨hsound, hverified, _, haliases, hentry, hname, ?_⟩
  change (s.module.setAlias a.settings.entrySymbol id).aliases.map _ = _
  rw [haliases, List.map_singleton]
  change [SymbolAlias.mk ((s.module.setAlias a.settings.entrySymbol id).symbol _)
    ((s.module.setAlias a.settings.entrySymbol id).functionName id)] = _
  rw [hentry, hname]

/-- **What a compile that goes through leaves.** -/
theorem Sound.finished (h : Sound catalog settings target a)
    (hvalidate : a.settings.validate = true) (hcompile : Assembly.compile a = .ok () a') :
    Finished catalog settings target a.functions a' := by
  have hways := compiles a
  rw [hcompile] at hways
  cases hways with
  | filled _ hno =>
    rw [hvalidate] at hno
    cases hno
  | @emitted n s s₁ m id object hfill _ hverify hmethod hdeclare hemit =>
    -- the image is filled, then the bootstrap method is declared, then the entry is given
    obtain ⟨hsettles, hs⟩ := h.resolveAll hfill
    have hresolved := h.withImage hsettles hs
    rw [h.catalog_eq] at hfill hdeclare hmethod
    rw [h.bootstrapMethod] at hmethod
    obtain ⟨-, -, hfilled, -⟩ :=
      (Build.resolveAll_advances catalog.closed_true h.coherent).of_ok hfill
    obtain ⟨hfilled₁, hid⟩ := hresolved.declared hfilled hdeclare
    obtain ⟨hsound, hverified, name, haliases, hentry, hname, hsymbols⟩ :=
      hresolved.entered hverify hdeclare
    have hsound : Sound catalog settings target
        { (a.withImage s₁).setEntry id with object := some object } :=
      hsound.congr rfl rfl rfl rfl rfl
    obtain ⟨blobs, hlower, htarget⟩ := emit_eq_ok_iff.1 hemit
    refine ⟨fun e he => ?_, hsound.coherent.pending_eq_zero hfilled₁, hverified,
      ⟨m, id, name, blobs, object, hmethod, declarationOf_eq hid, haliases, hentry, hname, hlower,
        ?_, rfl⟩, ?_⟩
    · exact (hsound.coherent.isFilled_iff he).1 (hfilled₁ _ _ he)
    · rw [← h.target_eq, ← hsymbols]
      exact htarget
    · refine hsound.compile_eq hvalidate hfilled₁ hverified hmethod hid ?_ hemit
      exact congrArg (fun b : Assembly Object => { b with object := some object })
        (setEntry_setEntry (a.withImage s₁) id)

/-! ## What leaves the object alone -/

/-- A compile that fails or does not validate leaves the object as it was. -/
theorem object_compile (h : ∀ a', a.settings.validate = true → Assembly.compile a ≠ .ok () a') :
    (left compile a).object = a.object := by
  have hways := compiles a
  unfold left
  generalize hresult : compile a = result at hways
  cases hways with
  | emitted _ hvalidate _ _ _ _ => exact absurd hresult (h _ hvalidate)
  | unfilled _ | filled _ _ | faulty _ _ _ | unstarted _ _ _ _ | undeclared _ _ _ _ _
  | unemitted _ _ _ _ _ _ => rfl

/-- No other action touches the object. -/
theorem object_after {action : Action} (h : action ≠ .compile) :
    (a.after action).object = a.object := by
  cases action with
  | compile => exact absurd rfl h
  | materialize d =>
    rw [after_materialize]
    rfl
  | call _ | addFunction _ | setPosition _ _ | disableValidation => rfl

theorem functions_after (a : Assembly Object) (action : Action) :
    (a.after action).functions = a.functions ++ action.body?.toList := by
  cases action with
  | compile =>
    have hways := compiles a
    rw [after, left]
    generalize compile a = result at hways
    cases hways <;> exact (List.append_nil _).symm
  | materialize d =>
    rw [after_materialize]
    exact (List.append_nil _).symm
  | addFunction f => rfl
  | call _ | setPosition _ _ | disableValidation => exact (List.append_nil _).symm

/-- The functions of an assembly are those that were added, in the same order. -/
theorem functions_run (actions : List Action) (a : Assembly Object) :
    (run actions a).functions = a.functions ++ actions.filterMap Action.body? := by
  induction actions generalizing a with
  | nil => exact (List.append_nil _).symm
  | cons action actions ih =>
    rw [run, List.foldl_cons, ← run, ih, functions_after, List.append_assoc]
    cases action <;> rfl

/-- Where all pointers have the same width there is a new assembly. -/
theorem new_eq_ok
    (hstart : start =
      { catalog, settings, target
        image := Image.new catalog settings.imageName })
    (hsettings : settings.nativeBits = target.pointerBits)
    (htarget : target.pointerBits = catalog.pointerSize * 8) :
    Assembly.new catalog settings target = .ok start := by
  rw [hstart, Assembly.new, if_neg (not_not.2 (hsettings.trans htarget)),
    if_neg (not_not.2 htarget)]

/-- A new assembly has no functions and no object; its target has the pointers of its catalog. -/
theorem fresh_of_new (h : Assembly.new catalog settings target = .ok start) :
    start.functions = [] ∧ start.object = none ∧ target.pointerBits = catalog.pointerSize * 8 := by
  unfold Assembly.new at h
  dsimp only at h
  split at h
  · cases h
  · split at h
    · cases h
    · rename_i hpointer
      obtain rfl := Except.ok.inj h
      exact ⟨rfl, rfl, not_not.1 hpointer⟩

/-- **What compiles do over a whole run.** Whatever was done to an assembly, a compile that goes
through with validation leaves it finished, with the bodies that were added. A compile that fails or
does not validate leaves the object as it was, and so does every other action; before the first
compile that goes through with validation there is no object. -/
theorem finished_of_run (h : Assembly.new catalog settings target = .ok start)
    (actions : List Action) :
    let a := run actions start
    (∀ a', a.settings.validate = true → compile a = .ok () a' →
      Finished catalog settings target (actions.filterMap Action.body?) a') ∧
    (∀ f a', compile a = .error f a' → a'.object = a.object) ∧
    (a.settings.validate = false → (left compile a).object = a.object) ∧
    (∀ action, action ≠ .compile → (a.after action).object = a.object) ∧
    ((∀ before rest, actions = before ++ .compile :: rest →
        (run before start).settings.validate = true →
        ∀ a', compile (run before start) ≠ .ok () a') → a.object = none) := by
  have hstart := Sound.of_new h
  obtain ⟨hfunctions, hobject, -⟩ := fresh_of_new h
  refine ⟨fun a' hvalidate hcompile => ?_, fun f a' hcompile => ?_, fun hvalidate => ?_,
    fun action => object_after, fun hnone => ?_⟩
  · have hfinished := (hstart.run actions).finished hvalidate hcompile
    rwa [functions_run, hfunctions, List.nil_append] at hfinished
  · have hsame := object_compile (a := run actions start) fun a'' _ hok => by
      rw [hcompile] at hok
      cases hok
    rwa [left, hcompile] at hsame
  · refine object_compile fun a' htrue => ?_
    rw [hvalidate] at htrue
    cases htrue
  · -- from the last action to the first
    induction actions using List.reverseRecOn with
    | nil => exact hobject
    | append_singleton actions action ih =>
      have hbefore : (run actions start).object = none := by
        refine ih fun before rest heq => hnone before (rest ++ [action]) ?_
        rw [heq, List.append_assoc, List.cons_append]
      rw [run_append]
      by_cases hcompile : action = .compile
      · rw [hcompile] at hnone ⊢
        exact (object_compile fun a' hvalidate => hnone actions [] rfl hvalidate a').trans hbefore
      · exact (object_after hcompile).trans hbefore

/-- Whether a compile goes through and leaves an assembly and an object that pass a check. -/
def compilesWith (a : Assembly Object) (check : Assembly Object → Object → Bool) : Bool :=
  match compile a with
  | .ok _ a' => a'.object.any (check a')
  | .error _ _ => false

theorem exists_of_compilesWith {check : Assembly Object → Object → Bool}
    (h : a.compilesWith check = true) :
    ∃ a' object, compile a = .ok () a' ∧ a'.object = some object ∧ check a' object = true := by
  unfold compilesWith at h
  cases hcompile : compile a with
  | error f a' =>
    rw [hcompile] at h
    cases h
  | ok u a' =>
    rw [hcompile] at h
    obtain ⟨object, hobject, hcheck⟩ := (Option.any_eq_true _ _).1 h
    exact ⟨a', object, rfl, hobject, hcheck⟩

/-- Two nodes that refer to each other, and a method to start with. -/
def pairWithStart : Catalog :=
  (Catalog.pair.addMethod { name := "Bootstrap_Initialization", owner := ⟨18⟩ }).2

/-- The bootstrap method, which returns at once. -/
def startBody : FunctionBody where
  name := "Node::Bootstrap_Initialization_0"
  code := [0x1e, 0xff, 0x2f, 0xe1]

/-- The assembly of the nodes with nothing in it. -/
def pairAssembly : Assembly Arm.library.File where
  catalog := pairWithStart
  settings := {}
  target := Arm.target Arm.library
  image := Image.new pairWithStart "image"

theorem new_pairAssembly :
    Assembly.new pairWithStart {} (Arm.target Arm.library) = .ok pairAssembly :=
  new_eq_ok rfl rfl (by decide +kernel)

/-- With both nodes and the body of the bootstrap method, the compile goes through. -/
theorem compile_pairAssembly :
    (run [.materialize ⟨5⟩, .addFunction startBody] pairAssembly).settings.validate = true ∧
      ∃ a', compile (run [.materialize ⟨5⟩, .addFunction startBody] pairAssembly) = .ok () a' := by
  have hok : (run [.materialize ⟨5⟩, .addFunction startBody] pairAssembly).compilesWith
      (fun _ _ => true) = true := by decide +kernel
  obtain ⟨a', -, hcompile, -⟩ := exists_of_compilesWith hok
  exact ⟨by decide +kernel, a', hcompile⟩

/-- Both nodes, the bootstrap method and its body make an object. -/
theorem finished_of_run_pair : ∃ a',
    compile (run [.materialize ⟨5⟩, .addFunction startBody] pairAssembly) = .ok () a' ∧
    Finished pairWithStart {} (Arm.target Arm.library) [startBody] a' := by
  obtain ⟨hvalidate, a', hcompile⟩ := compile_pairAssembly
  obtain ⟨hfinished, -⟩ := finished_of_run new_pairAssembly
    [.materialize ⟨5⟩, .addFunction startBody]
  exact ⟨a', hcompile, hfinished a' hvalidate hcompile⟩

end Assembly

end DataImage
