import DataImage.Proofs.Build.Resolve

/-!
# Sequences of calls

Whoever builds an image makes calls on it in any order, and goes on after calls that fail. Each call
leaves the image coherent and settled globals as they are (`Call.after_coherent`), so the same holds
of whole sequences. What that means for the registry of values is `Call.registry_of_run`.
-/

namespace DataImage

/-- The image that a step leaves, whether it fails or not. -/
def Build.left {α : Type} (x : Build α) (s : Image) : Image :=
  match x s with
  | .ok _ s' => s'
  | .error _ s' => s'

/-- A call on an image under construction. -/
inductive Call where
  /-- The global of a value. -/
  | request (d : DescriptorId)
  /-- The global of a value, with its contents. -/
  | materialize (d : DescriptorId)
  /-- The contents of a value. -/
  | build (d : DescriptorId)
  /-- The contents of a value laid out as a type. -/
  | buildAs (d : DescriptorId) (t : TypeId)
  /-- An integer. -/
  | scalar (t : TypeId) (raw : UInt64)
  /-- The struct of a type. -/
  | layout (t : TypeId)
  /-- The storage type of a field or an element of a type. -/
  | storage (t : TypeId)
  /-- The declaration of a method. -/
  | declaration (m : MethodId)
  /-- Contents for all values that have a global. -/
  | resolveAll
deriving DecidableEq, Repr

namespace Call

/-- The image after a call. -/
def after (c : Catalog) (s : Image) : Call → Image
  | .request d => (Build.request c d).left s
  | .materialize d => (Build.materialize c d).left s
  | .build d => (Build.contentsOf c d).left s
  | .buildAs d t => (Build.contentsAs c d t).left s
  | .scalar t raw => (Build.scalar c t raw).left s
  | .layout t => (Build.layoutOf c t).left s
  | .storage t => (Build.storageOf c t).left s
  | .declaration m => (Build.declarationOf c m).left s
  | .resolveAll => (Build.resolveAll c).left s

/-- The types that a call is made with. -/
def types : Call → List TypeId
  | .buildAs _ t | .scalar t _ | .layout t | .storage t => [t]
  | .request _ | .materialize _ | .build _ | .declaration _ | .resolveAll => []

/-- The image after calls. -/
def run (c : Catalog) (calls : List Call) (s : Image) : Image := calls.foldl (after c) s

end Call

namespace Image

/-! ## What is said about a registry -/

/-- Values with a global and live globals belong together one by one. -/
structure RegistrySound (c : Catalog) (s : Image) : Prop where
  distinctValues : (s.entries.map (·.1)).Nodup
  distinctGlobals : (s.entries.map (·.2)).Nodup
  registered : ∀ d g, (d, g) ∈ s.entries → ∃ v, c.descriptor? d = some v ∧ v.isNested = false ∧
    g.index < s.module.globals.length ∧ (s.module.global g).isRemoved = false ∧
    (s.module.global g).constant = !v.isMutable
  live : ∀ g, g.index < s.module.globals.length → (s.module.global g).isRemoved = false →
    ∃! d, (d, g) ∈ s.entries
  mentions : ∀ g k, (s.module.global g).initializer = some k → ∀ h ∈ k.globals,
    h.index < s.module.globals.length ∧ (s.module.global h).isRemoved = false
  unmarked : s.building = []

/-- What `s'` still says of the values that have a global in `s`: a request gives the same global,
and a global with contents has not changed. -/
structure Persists (c : Catalog) (s s' : Image) : Prop where
  answers : ∀ d g, s.global? d = some g → Build.request c d s' = .ok g s'
  settled : ∀ d g, (d, g) ∈ s.entries → (s.module.global g).initializer.isSome = true →
    s'.module.global g = s.module.global g ∧ s'.module.globalName g = s.module.globalName g

variable {c : Catalog} {known : TypeId → Prop} {s s' : Image}

theorem Coherent.registrySound (h : s.Coherent c known) (hb : s.building = []) :
    s.RegistrySound c where
  distinctValues := h.distinct
  distinctGlobals := h.nodup_globals
  registered := fun d g hd => by
    obtain ⟨v, hv, -, hstands⟩ := h.global_eq hd
    exact ⟨v, hv, hstands.notNested, (h.not_removed hd).1, (h.not_removed hd).2,
      hstands.constant⟩
  live := fun g hg hlive => by
    have hx := List.getElem?_eq_getElem hg
    rw [Module.global_eq_getElem hg, Global.isRemoved, Option.isSome_eq_false_iff,
      Option.isNone_iff_eq_none] at hlive
    obtain ⟨d, hd⟩ := h.live g.index _ hx hlive
    exact ⟨d, hd, fun e he => h.eq_of_mem he hd⟩
  mentions := fun g k hk i hi => by
    rcases Nat.lt_or_ge g.index s.module.globals.length with hg | hg
    · rw [Module.global_eq_getElem hg] at hk
      obtain ⟨d, hd⟩ := h.exists_entry_of_mention (List.getElem?_eq_getElem hg) hk hi
      exact h.not_removed hd
    · rw [Module.global_eq_default hg] at hk
      cases hk
  unmarked := hb

theorem Settles.persists (h : s.Settles s') (hs : s.Coherent c known) (hs' : s'.Coherent c known) :
    s.Persists c s' where
  answers := fun d g hd => by
    have hd' := h.global? hd
    unfold Build.request Build.requestWith
    rw [Build.run_bind (Build.run_get s'), hd']
    dsimp only
    rw [hs'.resolve (Partial.mem_of_lookup_eq_some hd')]
    rfl
  settled := fun d g hd hk => by
    obtain ⟨v, -, hx, hstands⟩ := hs.global_eq hd
    have heq := Module.global_eq_of_getElem? (h.initialized _ _ hx hk)
    refine ⟨heq, ?_⟩
    rw [Module.globalName, Module.globalName, Module.symbol, Module.symbol, heq,
      SymbolTable.name_eq_of_getElem? hstands.name,
      SymbolTable.name_eq_of_getElem? (h.spells hstands.name)]

end Image

namespace Call

variable {c : Catalog} {s : Image}

theorem left_advances {α : Type} {known : TypeId → Prop} {x : Build α} {post : α → Image → Prop}
    (h : Build.Advances c known s x post) :
    s.Settles (x.left s) ∧ (x.left s).Coherent c known := by
  unfold Build.left
  cases hx : x s with
  | ok a s' => exact ⟨(h.of_ok hx).1, (h.of_ok hx).2.1⟩
  | error f s' => exact h.of_error hx

variable {known : TypeId → Prop} (hc : c.Closed known)

include hc

/-- **A call keeps the image coherent and what is settled as it is.** -/
theorem after_coherent (hs : s.Coherent c known) (call : Call)
    (hcall : ∀ t ∈ call.types, known t) :
    s.Settles (call.after c s) ∧ (call.after c s).Coherent c known := by
  cases call with
  | request d => exact left_advances (.of_runs (Build.request_runs hc d hs))
  | materialize d => exact left_advances (Build.materialize_advances hc hs d)
  | build d => exact left_advances (.of_runs (Build.contentsOf_runs hc d hs))
  | buildAs d t =>
    have ht := hcall t (List.mem_singleton.2 rfl)
    exact left_advances (.of_runs (Build.contentsAs_runs hc ht hs))
  | scalar t raw =>
    have ht := hcall t (List.mem_singleton.2 rfl)
    exact left_advances (.of_runs (Build.scalar_runs hc ht raw hs))
  | layout t =>
    have ht := hcall t (List.mem_singleton.2 rfl)
    exact left_advances (.of_runs (Build.layoutOf_runs hc ht hs))
  | storage t =>
    have ht := hcall t (List.mem_singleton.2 rfl)
    exact left_advances (.of_runs (Build.storageOf_runs hc ht hs))
  | declaration m => exact left_advances (.of_runs (Build.declarationOf_runs hc m hs))
  | resolveAll => exact left_advances (Build.resolveAll_advances hc hs)

theorem run_coherent (hs : s.Coherent c known) (calls : List Call)
    (hcalls : ∀ call ∈ calls, ∀ t ∈ call.types, known t) :
    s.Settles (run c calls s) ∧ (run c calls s).Coherent c known := by
  induction calls generalizing s with
  | nil => exact ⟨Image.Settles.refl s, hs⟩
  | cons call calls ih =>
    obtain ⟨hsettles, hs'⟩ := after_coherent hc hs call (hcalls call List.mem_cons_self)
    obtain ⟨hsettles', hs''⟩ := ih hs' fun x hx => hcalls x (List.mem_cons_of_mem _ hx)
    exact ⟨hsettles.trans hsettles', hs''⟩

omit hc in
/-- **The registry of values** is sound after any calls, and what it says lasts over any further
ones, whether calls fail or not. -/
theorem registry_of_run (c : Catalog) (name : String) (calls more : List Call) :
    (run c calls (Image.new c name)).RegistrySound c ∧
      (run c calls (Image.new c name)).Persists c
        (run c more (run c calls (Image.new c name))) := by
  obtain ⟨hsettles, hs⟩ := run_coherent c.closed_true (Image.coherent_new c _ name) calls
    fun _ _ _ _ => trivial
  obtain ⟨hsettles', hs'⟩ := run_coherent c.closed_true hs more fun _ _ _ _ => trivial
  exact ⟨hs.registrySound hsettles.building, hsettles'.persists hs hs'⟩

end Call

end DataImage
