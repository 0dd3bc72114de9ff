import DataImage.Assembly
import DataImage.Proofs.Build.Declaring

/-!
# Sequences of actions on an assembly

Whoever makes an object works on an assembly in any order, and goes on after actions that fail.
`Assembly.Compiles` lists the ways that a compile can go. Every action keeps the image coherent and
gives no function an alias but the entry (`Assembly.Sound`, `Assembly.Sound.run`).
-/

namespace DataImage

/-! ## Aliases -/

namespace Image

variable {c : Catalog} {known : TypeId → Prop} {s : Image} {t : SymbolTable}
  {aliases : List FunctionAlias}

/-- The image with more symbols and with other aliases. -/
def realias (s : Image) (t : SymbolTable) (aliases : List FunctionAlias) : Image :=
  { s with module := { s.module with symbols := t, aliases } }

theorem storage?_realias (shape : Shape) :
    (s.realias t aliases).storage? shape = s.storage? shape := by
  induction shape with
  | int bits => rfl
  | ptr => rfl
  | layout u => rfl
  | array element count ih => rw [storage?, storage?, ih]

theorem constant?_realias (v : Value) :
    (s.realias t aliases).constant? v = s.constant? v := by
  have inside : ∀ {vs : List Value},
      (∀ v ∈ vs, (s.realias t aliases).constant? v = s.constant? v) →
      (s.realias t aliases).constants? vs = s.constants? vs := by
    intro vs ih
    induction vs with
    | nil => rfl
    | cons v vs hrest =>
      obtain ⟨hv, hvs⟩ := List.forall_mem_cons.1 ih
      rw [constants?, constants?, hv, hrest hvs]
  induction v using Value.induct with
  | int bits value signed => rfl
  | zeroed shape => rw [constant?, constant?, storage?_realias]
  | named u fields ih =>
    rw [constant?, constant?, inside ih]
    rfl
  | anon fields ih => rw [constant?, constant?, inside ih]
  | array shape elements ih => rw [constant?, constant?, inside ih, storage?_realias]
  | reference d => rfl
  | function m => rfl

theorem spells_realias (ht : s.module.symbols.names <+: t.names) {n : SymbolId} {name : String}
    (h : s.Spells n name) : (s.realias t aliases).Spells n name :=
  Partial.getElem?_of_prefix ht h

/-- What is known about an image has nothing to do with its aliases. -/
theorem Coherent.realias (h : s.Coherent c known) (ht : s.module.symbols.names <+: t.names)
    (aliases : List FunctionAlias) : (s.realias t aliases).Coherent c known where
  layouts := fun u id hid => by
    obtain ⟨hknown, hlaid, x, hx, hname⟩ := h.layouts u id hid
    exact ⟨hknown, hlaid, x, hx, spells_realias ht hname⟩
  structs := by
    simp only [storage?_realias]
    exact h.structs
  structNames := h.structNames
  functions := fun m id hid => by
    obtain ⟨hm, x, hx, hname⟩ := h.functions m id hid
    exact ⟨hm, x, hx, spells_realias ht hname⟩
  distinct := h.distinct
  stands := fun d g hd => by
    obtain ⟨v, x, hv, hx, hstands⟩ := h.stands d g hd
    refine ⟨v, x, hv, hx, hstands.notNested, hstands.live, hstands.constant,
      spells_realias ht hstands.name, hstands.typed, ?_⟩
    simp only [constant?_realias]
    exact hstands.filled
  live := h.live
  removed := h.removed
  names := h.names

end Image

namespace Assembly

variable {Object α β : Type} {a a' : Assembly Object}

/-! ## Running steps -/

/-- The assembly with another image. -/
def withImage (a : Assembly Object) (s : Image) : Assembly Object := { a with image := s }

theorem run_bind {x : Step Object α} {r : α} (hx : x a = .ok r a') (f : α → Step Object β) :
    (x >>= f) a = f r a' := by
  simp only [bind, EStateM.bind, hx]

theorem run_bind_error {x : Step Object α} {e : Failure} (hx : x a = .error e a')
    (f : α → Step Object β) : (x >>= f) a = .error e a' := by
  simp only [bind, EStateM.bind, hx]

theorem run_get (a : Assembly Object) : (get : Step Object (Assembly Object)) a = .ok a a := rfl

theorem run_modify (f : Assembly Object → Assembly Object) (a : Assembly Object) :
    (modify f : Step Object Unit) a = .ok () (f a) := rfl

theorem run_discard {x : Step Object α} {r : α} (hx : x a = .ok r a') :
    (discard x) a = .ok () a' := by
  change EStateM.map _ x a = _
  simp only [EStateM.map, hx]

theorem run_discard_error {x : Step Object α} {f : Failure} (hx : x a = .error f a') :
    (discard x) a = .error f a' := by
  change EStateM.map _ x a = _
  simp only [EStateM.map, hx]

theorem run_onImage {x : Build α} {r : α} {s : Image} (hx : x a.image = .ok r s) :
    (onImage x : Step Object α) a = .ok r (a.withImage s) := by
  simp only [onImage, hx, withImage]

theorem run_onImage_error {x : Build α} {f : Failure} {s : Image} (hx : x a.image = .error f s) :
    (onImage x : Step Object α) a = .error f (a.withImage s) := by
  simp only [onImage, hx, withImage]

/-! ## The ways of a compile -/

section

variable {n : Nat} {s : Image} {f : Failure}

theorem compile_eq_error (hfill : Build.resolveAll a.catalog a.image = .error f s) :
    compile a = .error f (a.withImage s) := by
  rw [compile, run_bind (run_get a)]
  exact run_bind_error (run_discard_error (run_onImage_error hfill)) _

theorem compile_eq_finish (hfill : Build.resolveAll a.catalog a.image = .ok n s) :
    compile a =
      if a.settings.validate then finish (a.withImage s) else .ok () (a.withImage s) := by
  rw [compile, run_bind (run_get a), run_bind (run_discard (run_onImage hfill)),
    run_bind (run_get _)]
  change (if a.settings.validate = true then _ else _ : Step Object Unit) _ = _
  split <;> rfl

theorem finish_eq_faulty (hverify : a.module.verify.isOk = false) :
    finish a = .error { cause := .verification a.module.verify } a := by
  rw [finish, run_bind (run_get a)]
  dsimp only
  rw [hverify]
  rfl

variable (hverify : a.module.verify.isOk = true)

include hverify

theorem finish_eq_unstarted
    (hmethod : a.catalog.findMethod? a.settings.bootstrapMethod = none) :
    finish a = .error { cause := .missingBootstrap a.settings.bootstrapMethod } a := by
  rw [finish, run_bind (run_get a)]
  dsimp only
  rw [hverify, hmethod]
  rfl

variable {m : MethodId} (hmethod : a.catalog.findMethod? a.settings.bootstrapMethod = some m)

include hmethod

theorem finish_eq_undeclared (hdeclare : Build.declarationOf a.catalog m a.image = .error f s) :
    finish a = .error f (a.withImage s) := by
  rw [finish, run_bind (run_get a)]
  dsimp only
  rw [hverify, hmethod]
  exact run_bind_error (run_onImage_error hdeclare) _

theorem finish_eq_emit {id : FunctionId}
    (hdeclare : Build.declarationOf a.catalog m a.image = .ok id s) :
    finish a = match ((a.withImage s).setEntry id).emit with
      | .error f => .error f ((a.withImage s).setEntry id)
      | .ok object => .ok () { (a.withImage s).setEntry id with object := some object } := by
  rw [finish, run_bind (run_get a)]
  dsimp only
  rw [hverify, hmethod]
  refine (run_bind (run_onImage hdeclare) _).trans ?_
  refine (run_bind (run_modify _ _) _).trans ?_
  rw [run_bind (run_get _)]
  cases ((a.withImage s).setEntry id).emit <;> rfl

end

/-- The ways of a compile, with its result and the assembly that it leaves. -/
inductive Compiles (a : Assembly Object) :
    EStateM.Result Failure (Assembly Object) Unit → Prop where
  /-- A placeholder cannot be filled. -/
  | unfilled {f : Failure} {s : Image} (hfill : Build.resolveAll a.catalog a.image = .error f s) :
      Compiles a (.error f (a.withImage s))
  /-- Nothing but the image was asked for. -/
  | filled {n : Nat} {s : Image} (hfill : Build.resolveAll a.catalog a.image = .ok n s)
      (hvalidate : a.settings.validate = false) : Compiles a (.ok () (a.withImage s))
  /-- The module has faults. -/
  | faulty {n : Nat} {s : Image} (hfill : Build.resolveAll a.catalog a.image = .ok n s)
      (hvalidate : a.settings.validate = true) (hverify : s.module.verify.isOk = false) :
      Compiles a (.error { cause := .verification s.module.verify } (a.withImage s))
  /-- There is no method to start with. -/
  | unstarted {n : Nat} {s : Image} (hfill : Build.resolveAll a.catalog a.image = .ok n s)
      (hvalidate : a.settings.validate = true) (hverify : s.module.verify.isOk = true)
      (hmethod : a.catalog.findMethod? a.settings.bootstrapMethod = none) :
      Compiles a (.error { cause := .missingBootstrap a.settings.bootstrapMethod } (a.withImage s))
  /-- The method to start with cannot be declared. -/
  | undeclared {n : Nat} {s s₁ : Image} {m : MethodId} {f : Failure}
      (hfill : Build.resolveAll a.catalog a.image = .ok n s)
      (hvalidate : a.settings.validate = true) (hverify : s.module.verify.isOk = true)
      (hmethod : a.catalog.findMethod? a.settings.bootstrapMethod = some m)
      (hdeclare : Build.declarationOf a.catalog m s = .error f s₁) :
      Compiles a (.error f (a.withImage s₁))
  /-- The module has its entry, but there is no object for it. -/
  | unemitted {n : Nat} {s s₁ : Image} {m : MethodId} {id : FunctionId} {f : Failure}
      (hfill : Build.resolveAll a.catalog a.image = .ok n s)
      (hvalidate : a.settings.validate = true) (hverify : s.module.verify.isOk = true)
      (hmethod : a.catalog.findMethod? a.settings.bootstrapMethod = some m)
      (hdeclare : Build.declarationOf a.catalog m s = .ok id s₁)
      (hemit : ((a.withImage s₁).setEntry id).emit = .error f) :
      Compiles a (.error f ((a.withImage s₁).setEntry id))
  /-- There is an object. -/
  | emitted {n : Nat} {s s₁ : Image} {m : MethodId} {id : FunctionId} {object : Object}
      (hfill : Build.resolveAll a.catalog a.image = .ok n s)
      (hvalidate : a.settings.validate = true) (hverify : s.module.verify.isOk = true)
      (hmethod : a.catalog.findMethod? a.settings.bootstrapMethod = some m)
      (hdeclare : Build.declarationOf a.catalog m s = .ok id s₁)
      (hemit : ((a.withImage s₁).setEntry id).emit = .ok object) :
      Compiles a (.ok () { (a.withImage s₁).setEntry id with object := some object })

/-- **Every compile goes one of these ways.** -/
theorem compiles (a : Assembly Object) : Compiles a (compile a) := by
  cases hfill : Build.resolveAll a.catalog a.image with
  | error f s =>
    rw [compile_eq_error hfill]
    exact .unfilled hfill
  | ok n s =>
    rw [compile_eq_finish hfill]
    split
    · rename_i hvalidate
      cases hverify : s.module.verify.isOk with
      | false =>
        rw [finish_eq_faulty (a := a.withImage s) hverify]
        exact .faulty hfill hvalidate hverify
      | true =>
        cases hmethod : a.catalog.findMethod? a.settings.bootstrapMethod with
        | none =>
          rw [finish_eq_unstarted (a := a.withImage s) hverify hmethod]
          exact .unstarted hfill hvalidate hverify hmethod
        | some m =>
          cases hdeclare : Build.declarationOf a.catalog m s with
          | error f s₁ =>
            rw [finish_eq_undeclared (a := a.withImage s) hverify hmethod hdeclare]
            exact .undeclared hfill hvalidate hverify hmethod hdeclare
          | ok id s₁ =>
            rw [finish_eq_emit (a := a.withImage s) hverify hmethod hdeclare]
            cases hemit : ((a.withImage s₁).setEntry id).emit with
            | error f =>
              have hemit' : (((a.withImage s).withImage s₁).setEntry id).emit = .error f := hemit
              rw [hemit']
              exact .unemitted hfill hvalidate hverify hmethod hdeclare hemit
            | ok object =>
              have hemit' : (((a.withImage s).withImage s₁).setEntry id).emit = .ok object := hemit
              rw [hemit']
              exact .emitted hfill hvalidate hverify hmethod hdeclare hemit
    · rename_i hvalidate
      exact .filled hfill (Bool.eq_false_iff.2 hvalidate)

/-! ## Actions -/

/-- The assembly that a step leaves, whether it fails or not. -/
def left (x : Step Object α) (a : Assembly Object) : Assembly Object :=
  match x a with
  | .ok _ a' => a'
  | .error _ a' => a'

/-- An action on an assembly. -/
inductive Action where
  /-- A call on the image. -/
  | call (call : Call)
  /-- Ask for a value together with its contents. -/
  | materialize (d : DescriptorId)
  /-- Add the body of a function. -/
  | addFunction (f : FunctionBody)
  /-- Note where a method comes from. -/
  | setPosition (m : MethodId) (p : SourcePosition)
  /-- Only fill the image from now on. -/
  | disableValidation
  /-- Fill the image and, with validation, make the object. -/
  | compile
deriving DecidableEq, Repr

/-- The assembly after an action. -/
def after (a : Assembly Object) : Action → Assembly Object
  | .call call => a.withImage (call.after a.catalog a.image)
  | .materialize d => left (Assembly.materialize d) a
  | .addFunction f => a.addFunction f
  | .setPosition m p => a.setPosition m p
  | .disableValidation => a.disableValidation
  | .compile => left compile a

/-- The assembly after actions. -/
def run (actions : List Action) (a : Assembly Object) : Assembly Object := actions.foldl after a

theorem run_append (before rest : List Action) (a : Assembly Object) :
    run (before ++ rest) a = run rest (run before a) :=
  List.foldl_append

/-- To ask for a value is a call on the image. -/
theorem after_materialize (a : Assembly Object) (d : DescriptorId) :
    a.after (.materialize d) = a.after (.call (.materialize d)) := by
  rw [after, after, Call.after, left, Assembly.materialize, run_bind (run_get a), Build.left]
  cases h : Build.materialize a.catalog d a.image with
  | ok g s => rw [run_onImage h]
  | error f s => rw [run_onImage_error h]

/-! ## What actions keep -/

/-- What is true of an assembly for a catalog and a target at every moment: the catalog and the
target are those that it was made with, and so are the entry symbol and the bootstrap method; the
image is coherent, and nothing in it is half built; no function has an alias but the entry. -/
structure Sound (catalog : Catalog) (settings : Settings) (target : Target Object)
    (a : Assembly Object) : Prop where
  catalog_eq : a.catalog = catalog
  target_eq : a.target = target
  entrySymbol : a.settings.entrySymbol = settings.entrySymbol
  bootstrapMethod : a.settings.bootstrapMethod = settings.bootstrapMethod
  coherent : a.image.Coherent catalog fun _ => True
  unmarked : a.image.building = []
  width : a.module.nativeBits = catalog.pointerSize * 8
  aliases : ∀ x ∈ a.module.aliases, a.image.Spells x.name settings.entrySymbol

theorem setEntry_eq (a : Assembly Object) (id : FunctionId) : a.setEntry id =
    a.withImage (a.image.realias (a.module.symbols.intern a.settings.entrySymbol).2
      (a.module.aliases.filter
        (·.name ≠ (a.module.symbols.intern a.settings.entrySymbol).1) ++
        [⟨(a.module.symbols.intern a.settings.entrySymbol).1, id⟩])) := rfl

namespace Sound

variable {catalog : Catalog} {settings : Settings} {target : Target Object}

theorem of_new (h : Assembly.new catalog settings target = .ok a) :
    Sound catalog settings target a := by
  unfold Assembly.new at h
  dsimp only at h
  split at h
  · cases h
  · split at h
    · cases h
    · obtain rfl := Except.ok.inj h
      exact ⟨rfl, rfl, rfl, rfl, Image.coherent_new _ _ _, rfl, rfl, List.forall_mem_nil _⟩

/-- A step on the image that settles globals. -/
theorem withImage (h : Sound catalog settings target a) {s : Image} (hs : a.image.Settles s)
    (hcoherent : s.Coherent catalog fun _ => True) :
    Sound catalog settings target (a.withImage s) where
  catalog_eq := h.catalog_eq
  target_eq := h.target_eq
  entrySymbol := h.entrySymbol
  bootstrapMethod := h.bootstrapMethod
  coherent := hcoherent
  unmarked := hs.building.trans h.unmarked
  width := hs.width.trans h.width
  aliases := fun x hx => hs.spells (h.aliases x (hs.aliases ▸ hx))

/-- The entry is the only alias, whichever function it stands for. -/
theorem setEntry (h : Sound catalog settings target a) (id : FunctionId) :
    Sound catalog settings target (a.setEntry id) := by
  have hprefix := a.module.symbols.names_prefix_intern a.settings.entrySymbol
  have hname := a.module.symbols.getElem?_intern a.settings.entrySymbol
  rw [setEntry_eq]
  refine ⟨h.catalog_eq, h.target_eq, h.entrySymbol, h.bootstrapMethod,
    h.coherent.realias hprefix _, h.unmarked, h.width, fun x hx => ?_⟩
  rcases List.mem_append.1 hx with hx | hx
  · exact Image.spells_realias hprefix (h.aliases x (List.mem_of_mem_filter hx))
  · obtain rfl := List.mem_singleton.1 hx
    rw [← h.entrySymbol]
    exact hname

/-- Nothing that is known about an assembly concerns its functions, its positions, its object and
whether it validates. -/
theorem congr (h : Sound catalog settings target a) (hcatalog : a'.catalog = a.catalog)
    (htarget : a'.target = a.target) (hentry : a'.settings.entrySymbol = a.settings.entrySymbol)
    (hbootstrap : a'.settings.bootstrapMethod = a.settings.bootstrapMethod)
    (himage : a'.image = a.image) : Sound catalog settings target a' where
  catalog_eq := hcatalog.trans h.catalog_eq
  target_eq := htarget.trans h.target_eq
  entrySymbol := hentry.trans h.entrySymbol
  bootstrapMethod := hbootstrap.trans h.bootstrapMethod
  coherent := himage ▸ h.coherent
  unmarked := himage ▸ h.unmarked
  width := by rw [module, himage]; exact h.width
  aliases := by rw [module, himage]; exact h.aliases

theorem resolveAll (h : Sound catalog settings target a) {n : Nat} {s : Image}
    (hfill : Build.resolveAll a.catalog a.image = .ok n s) :
    a.image.Settles s ∧ s.Coherent catalog fun _ => True := by
  rw [h.catalog_eq] at hfill
  obtain ⟨hsettles, hs, -⟩ :=
    (Build.resolveAll_advances catalog.closed_true h.coherent).of_ok hfill
  exact ⟨hsettles, hs⟩

theorem declarationOf (h : Sound catalog settings target a) {s s' : Image}
    (hs : s.Coherent catalog fun _ => True) {m : MethodId} {id : FunctionId}
    (hdeclare : Build.declarationOf a.catalog m s = .ok id s') :
    s.Settles s' ∧ s'.Coherent catalog fun _ => True := by
  rw [h.catalog_eq] at hdeclare
  obtain ⟨hgrows, hs', -⟩ := (Build.declarationOf_runs catalog.closed_true m hs).of_ok hdeclare
  exact ⟨hgrows.settles, hs'⟩

/-- **What a compile leaves**, however it goes: an image that comes from settling globals, with or
without the entry, and with it perhaps an object. -/
theorem left_compile (h : Sound catalog settings target a) :
    ∃ s, a.image.Settles s ∧ (s.Coherent catalog fun _ => True) ∧
      (left Assembly.compile a = a.withImage s ∨
        ∃ id object, left Assembly.compile a = { (a.withImage s).setEntry id with object }) := by
  have hways := compiles a
  unfold left
  generalize Assembly.compile a = result at hways
  cases hways with
  | unfilled hfill =>
    rw [h.catalog_eq] at hfill
    obtain ⟨hsettles, hs⟩ :=
      (Build.resolveAll_advances catalog.closed_true h.coherent).of_error hfill
    exact ⟨_, hsettles, hs, Or.inl rfl⟩
  | filled hfill _ | faulty hfill _ _ | unstarted hfill _ _ _ =>
    obtain ⟨hsettles, hs⟩ := h.resolveAll hfill
    exact ⟨_, hsettles, hs, Or.inl rfl⟩
  | undeclared hfill _ _ _ hdeclare =>
    obtain ⟨hsettles, hs⟩ := h.resolveAll hfill
    rw [h.catalog_eq] at hdeclare
    obtain ⟨hgrows, hs'⟩ :=
      (Build.declarationOf_runs catalog.closed_true _ hs).of_error hdeclare
    exact ⟨_, hsettles.trans hgrows.settles, hs', Or.inl rfl⟩
  | unemitted hfill _ _ _ hdeclare _ | emitted hfill _ _ _ hdeclare _ =>
    obtain ⟨hsettles, hs⟩ := h.resolveAll hfill
    obtain ⟨hsettles', hs'⟩ := h.declarationOf hs hdeclare
    exact ⟨_, hsettles.trans hsettles', hs', Or.inr ⟨_, _, rfl⟩⟩

/-- **A compile keeps an assembly sound**, however it goes. -/
theorem compile (h : Sound catalog settings target a) :
    Sound catalog settings target (left Assembly.compile a) := by
  obtain ⟨s, hsettles, hs, heq | ⟨id, object, heq⟩⟩ := h.left_compile
  · rw [heq]
    exact h.withImage hsettles hs
  · rw [heq]
    exact ((h.withImage hsettles hs).setEntry id).congr rfl rfl rfl rfl rfl

theorem after (h : Sound catalog settings target a) (action : Action) :
    Sound catalog settings target (a.after action) := by
  have call : ∀ call, Sound catalog settings target (a.after (.call call)) := by
    intro call
    obtain ⟨hsettles, hs⟩ :=
      call.after_coherent catalog.closed_true h.coherent fun _ _ => trivial
    rw [Assembly.after, h.catalog_eq]
    exact h.withImage hsettles hs
  cases action with
  | call c => exact call c
  | materialize d =>
    rw [after_materialize]
    exact call _
  | addFunction f => exact h.congr rfl rfl rfl rfl rfl
  | setPosition m p => exact h.congr rfl rfl rfl rfl rfl
  | disableValidation => exact h.congr rfl rfl rfl rfl rfl
  | compile => exact h.compile

theorem run (h : Sound catalog settings target a) (actions : List Action) :
    Sound catalog settings target (run actions a) := by
  induction actions generalizing a with
  | nil => exact h
  | cons action actions ih => exact ih (h.after action)

end Sound

end Assembly

end DataImage
