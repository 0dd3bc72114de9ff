import DataImage.Proofs.Module.Links

/-!
# Operations on a module

A module is put together by operations one after the other, starting from an empty one
(`Operation.run`). Whether a run of them is in order is a matter of its merges: `Operation.MergesIf`
asks a condition of each merge, on the module at its time.

Most operations leave the globals with their names and links, and the table of names, as they are
(`Module.SameOutline`). Only two kinds do more: one adds a live global, and the other links a global
to another one (`Operation.after_cases`). `Module.Resolvable` holds after every run whose merges are
of two different live globals (`Operation.resolvable_of_run`).
-/

namespace DataImage

/-- The module that nothing was added to. -/
def Module.empty (name : String) (bits : Nat) : Module := { name, nativeBits := bits }

/-- An operation on a module. -/
inductive Operation where
  /-- Write a name into the symbol table. -/
  | intern (name : String)
  /-- Declare a struct. -/
  | declareStruct (name : String) (fields : List Storage)
  /-- Add a global whose contents are still to come. -/
  | addPlaceholder (name : String) (type : Storage)
  /-- Add a global that holds a constant. -/
  | addInitialized (name : String) (contents : Constant)
  /-- Give a global its contents. -/
  | setInitializer (id : GlobalId) (contents : Constant)
  /-- Declare that the program never writes to a global. -/
  | flagConstant (id : GlobalId)
  /-- Remove the global `old` and let `new` stand for it. -/
  | merge (old new : GlobalId)
  /-- Declare a function. -/
  | declareFunction (name : String) (params : List Storage) (result : Option Storage)
  /-- Make a name an alias of a function. -/
  | setAlias (name : String) (target : FunctionId)
deriving Repr

namespace Operation

/-- The module after an operation. -/
def after (m : Module) : Operation → Module
  | .intern name => (m.intern name).2
  | .declareStruct name fields => (m.declareStruct name fields).2
  | .addPlaceholder name type => (m.addPlaceholder name type).2
  | .addInitialized name contents => (m.addInitialized name contents).2
  | .setInitializer id contents => m.setInitializer id contents
  | .flagConstant id => m.flagConstant id
  | .merge old new => m.merge old new
  | .declareFunction name params result => (m.declareFunction name params result).2
  | .setAlias name target => m.setAlias name target

/-- The module after operations. -/
def run (ops : List Operation) (m : Module) : Module := ops.foldl after m

/-- Whether an operation, if it is a merge, meets a condition on the module at its time. -/
def Meets (ok : Module → GlobalId → GlobalId → Prop) (m : Module) : Operation → Prop
  | .merge old new => ok m old new
  | _ => True

/-- Whether each merge in a run meets a condition on the module at its time. -/
def MergesIf (ok : Module → GlobalId → GlobalId → Prop) (m : Module) : List Operation → Prop
  | [] => True
  | op :: ops => op.Meets ok m ∧ MergesIf ok (op.after m) ops

section

variable (ok : Module → GlobalId → GlobalId → Prop) [∀ m old new, Decidable (ok m old new)]

instance (m : Module) (op : Operation) : Decidable (op.Meets ok m) :=
  match op with
  | .merge old new => inferInstanceAs (Decidable (ok m old new))
  | .intern _ | .declareStruct .. | .addPlaceholder .. | .addInitialized ..
  | .setInitializer .. | .flagConstant _ | .declareFunction .. | .setAlias .. => .isTrue trivial

instance decidableMergesIf (m : Module) : (ops : List Operation) → Decidable (MergesIf ok m ops)
  | [] => .isTrue trivial
  | op :: ops =>
    have : Decidable (MergesIf ok (op.after m) ops) := decidableMergesIf (op.after m) ops
    inferInstanceAs (Decidable (_ ∧ _))

end

/-- **What each operation keeps holds after a run** of them. -/
theorem run_keeps {P : Module → Prop} {ok : Module → GlobalId → GlobalId → Prop}
    (hstep : ∀ (m : Module) (op : Operation), P m → op.Meets ok m → P (op.after m))
    {m : Module} (hm : P m) {ops : List Operation} (hops : MergesIf ok m ops) : P (run ops m) := by
  induction ops generalizing m with
  | nil => exact hm
  | cons op ops ih => exact ih (hstep m op hm hops.1) hops.2

end Operation

/-! ## Names and links of globals -/

/-- What a global keeps while its contents, its type and its flag change. -/
def Global.outline (x : Global) : SymbolId × Option GlobalId := (x.name, x.mergedInto)

@[simp] theorem Global.mergedInto_default : (default : Global).mergedInto = none := rfl

theorem Global.map_outline_modify {change : Global → Global}
    (hchange : ∀ x, (change x).outline = x.outline) (l : List Global) (i : Nat) :
    (l.modify i change).map Global.outline = l.map Global.outline := by
  apply List.ext_getElem?
  intro j
  simp only [List.getElem?_map, List.getElem?_modify]
  cases l[j]? with
  | none => rfl
  | some x =>
    by_cases hj : i = j
    · simp [hj, hchange]
    · simp [hj]

namespace Module

variable {m m' : Module} {g h old new : GlobalId}

/-- Whether two modules have the same globals by their names and links, and the same table of
names. -/
structure SameOutline (m m' : Module) : Prop where
  outlines : m'.globals.map Global.outline = m.globals.map Global.outline
  table : m'.globalNames = m.globalNames
  symbols : m.symbols.names <+: m'.symbols.names

/-- The outline of a global only depends on the outlines of all. -/
theorem outline_global (m : Module) (g : GlobalId) :
    (m.global g).outline =
      (m.globals.map Global.outline).getD g.index (default : Global).outline := by
  rw [global, List.getD_eq_getElem?_getD, List.getD_eq_getElem?_getD, List.getElem?_map,
    Option.getD_map]

theorem live_iff_outline : m.Live g ↔
    g.index < (m.globals.map Global.outline).length ∧ (m.global g).outline.2 = none := by
  rw [List.length_map]
  rfl

namespace SameOutline

variable (hsame : m.SameOutline m')

include hsame

theorem length_eq : m'.globals.length = m.globals.length := by
  have hlength := congrArg List.length hsame.outlines
  simpa using hlength

theorem outline_eq (g : GlobalId) : (m'.global g).outline = (m.global g).outline := by
  rw [outline_global, outline_global, hsame.outlines]

theorem name_eq (g : GlobalId) : (m'.global g).name = (m.global g).name :=
  congrArg Prod.fst (hsame.outline_eq g)

theorem linked_iff : m'.Linked g h ↔ m.Linked g h := by
  rw [Linked, Linked, show (m'.global g).mergedInto = (m.global g).mergedInto from
    congrArg Prod.snd (hsame.outline_eq g)]

theorem live_iff : m'.Live g ↔ m.Live g := by
  rw [live_iff_outline, live_iff_outline, hsame.outlines, hsame.outline_eq]

end SameOutline

/-! ## Operations that keep names and links -/

/-- A change of one global that keeps its name and its link. -/
theorem sameOutline_updateGlobal (m : Module) (g : GlobalId) {change : Global → Global}
    (hchange : ∀ x, (change x).outline = x.outline) : m.SameOutline (m.updateGlobal g change) where
  outlines := Global.map_outline_modify hchange m.globals g.index
  table := rfl
  symbols := List.prefix_refl _

theorem sameOutline_intern (m : Module) (name : String) : m.SameOutline (m.intern name).2 :=
  ⟨rfl, rfl, m.symbols.names_prefix_intern name⟩

theorem sameOutline_declareStruct (m : Module) (name : String) (fields : List Storage) :
    m.SameOutline (m.declareStruct name fields).2 := by
  unfold declareStruct
  dsimp only
  split
  · exact m.sameOutline_intern name
  · exact ⟨rfl, rfl, m.symbols.names_prefix_intern name⟩

theorem sameOutline_declareFunction (m : Module) (name : String) (params : List Storage)
    (result : Option Storage) : m.SameOutline (m.declareFunction name params result).2 := by
  unfold declareFunction
  dsimp only
  split
  · exact m.sameOutline_intern name
  · exact ⟨rfl, rfl, m.symbols.names_prefix_intern name⟩

theorem sameOutline_setAlias (m : Module) (name : String) (target : FunctionId) :
    m.SameOutline (m.setAlias name target) :=
  ⟨rfl, rfl, m.symbols.names_prefix_intern name⟩

end Module

/-- **What an operation may do** to names and links: nothing, add a global, or merge two. -/
theorem Operation.after_cases (m : Module) (op : Operation) :
    m.SameOutline (op.after m) ∨
    (∃ base type initializer, op.after m = (m.addGlobal base type initializer).2) ∨
    ∃ old new, op = .merge old new := by
  cases op with
  | intern name => exact .inl (m.sameOutline_intern name)
  | declareStruct name fields => exact .inl (m.sameOutline_declareStruct name fields)
  | addPlaceholder name type => exact .inr (.inl ⟨name, type, none, rfl⟩)
  | addInitialized name contents =>
    exact .inr (.inl ⟨name, contents.type, some contents, rfl⟩)
  | setInitializer id contents => exact .inl (m.sameOutline_updateGlobal id fun _ => rfl)
  | flagConstant id => exact .inl (m.sameOutline_updateGlobal id fun _ => rfl)
  | merge old new => exact .inr (.inr ⟨old, new, rfl⟩)
  | declareFunction name params result =>
    exact .inl (m.sameOutline_declareFunction name params result)
  | setAlias name target => exact .inl (m.sameOutline_setAlias name target)

namespace Module

variable {m m' : Module} {g h old new : GlobalId}

/-! ## A new global -/

/-- The search for a name only writes into the symbol table. -/
theorem freeNameFrom_eq (base : String) (tries first : Nat) (m : Module) :
    ∃ n t, freeNameFrom base tries first m = (n, { m with symbols := t }) := by
  induction tries generalizing first m with
  | zero => exact ⟨_, _, m.intern_eq _⟩
  | succ tries ih =>
    rw [freeNameFrom, intern_eq]
    dsimp only
    split
    · exact ih (first + 1) _
    · exact ⟨_, _, rfl⟩

theorem globals_addGlobal (m : Module) (base : String) (type : Storage)
    (initializer : Option Constant) :
    ∃ x, x.mergedInto = none ∧
      (m.addGlobal base type initializer).2.globals = m.globals ++ [x] := by
  obtain ⟨n, t, heq⟩ := m.freeNameFrom_eq base m.globalNames.length 0
  refine ⟨{ name := n, type, initializer }, rfl, ?_⟩
  rw [addGlobal, freeName, heq]

section

variable {x : Global} (hglobals : m'.globals = m.globals ++ [x])

include hglobals

theorem global_append_of_lt (hg : g.index < m.globals.length) : m'.global g = m.global g := by
  rw [global, global, hglobals, List.getD_eq_getElem?_getD, List.getElem?_append_left hg,
    List.getD_eq_getElem?_getD]

theorem global_append_last : m'.global ⟨m.globals.length⟩ = x :=
  global_eq_of_getElem? (by simp [hglobals])

theorem linked_append_iff (hx : x.mergedInto = none) : m'.Linked g h ↔ m.Linked g h := by
  rcases Nat.lt_trichotomy g.index m.globals.length with hlt | heq | hgt
  · rw [Linked, Linked, global_append_of_lt hglobals hlt]
  · have hlast : m'.global g = x := by
      rw [← global_append_last hglobals, ← heq]
    simp [Linked, hlast, hx, global_eq_default (Nat.le_of_eq heq.symm)]
  · have hlength : m'.globals.length ≤ g.index := by
      simp only [hglobals, List.length_append, List.length_singleton]
      omega
    rw [Linked, Linked, global_eq_default hlength, global_eq_default (Nat.le_of_lt hgt)]

theorem live_append_iff (hx : x.mergedInto = none) :
    m'.Live g ↔ m.Live g ∨ g = ⟨m.globals.length⟩ := by
  rcases Nat.lt_trichotomy g.index m.globals.length with hlt | heq | hgt
  · have hne : g ≠ ⟨m.globals.length⟩ := by
      rintro rfl
      exact Nat.lt_irrefl _ hlt
    have hlt' : g.index < m'.globals.length := by
      simp only [hglobals, List.length_append]
      omega
    simp [Live, global_append_of_lt hglobals hlt, hne, hlt, hlt']
  · obtain rfl : g = ⟨m.globals.length⟩ := congrArg GlobalId.mk heq
    simp [Live, global_append_last hglobals, hx, hglobals]
  · have hne : g ≠ ⟨m.globals.length⟩ := by
      rintro rfl
      exact Nat.lt_irrefl _ hgt
    simp only [Live, hglobals, List.length_append, List.length_singleton, hne, or_false]
    omega

end

end Module

/-! ## Merging two globals -/

namespace Global

/-- What is left of a global that was merged into another one. -/
def leave (new : GlobalId) (x : Global) : Global :=
  { x with initializer := none, mergedInto := some new }

/-- The global with every address of `old` in its contents replaced by that of `new`. -/
def redirect (old new : GlobalId) (x : Global) : Global :=
  { x with initializer := x.initializer.map (·.redirect old new) }

@[simp] theorem outline_leave (new : GlobalId) (x : Global) :
    (x.leave new).outline = (x.name, some new) := rfl

@[simp] theorem outline_adopt (into merged : Global) :
    (into.adopt merged).outline = into.outline := by
  unfold adopt
  split <;> rfl

end Global

namespace Module

variable {m m' : Module} {g h old new : GlobalId}

/-- **A merge** of two globals: the one goes away, the other one may adopt its contents, and then
addresses are redirected everywhere. -/
theorem merge_eq (m : Module) (hne : old ≠ new) : m.merge old new = { m with
    globals := ((m.globals.modify old.index (Global.leave new)).modify new.index
      (Global.adopt · (m.global old))).map (Global.redirect old new)
    globalNames := m.globalNames.filter (·.1 ≠ (m.global old).name) } := by
  rw [merge, if_neg hne]
  rfl

@[simp] theorem length_globals_merge (m : Module) (old new : GlobalId) :
    (m.merge old new).globals.length = m.globals.length := by
  by_cases hne : old = new
  · rw [merge, if_pos hne]
  · simp [m.merge_eq hne]

/-- A merge links the global that goes away, and changes no other link and no name. -/
theorem outline_global_merge (hne : old ≠ new) (g : GlobalId) :
    ((m.merge old new).global g).outline =
      if g = old ∧ g.index < m.globals.length then ((m.global g).name, some new)
      else (m.global g).outline := by
  have hredirect : Global.outline ∘ Global.redirect old new = Global.outline := rfl
  have houtlines : (m.merge old new).globals.map Global.outline =
      (m.globals.modify old.index (Global.leave new)).map Global.outline := by
    rw [m.merge_eq hne, List.map_map, hredirect,
      Global.map_outline_modify fun x => x.outline_adopt _]
  rw [outline_global, houtlines, List.getD_eq_getElem?_getD, List.getElem?_map,
    List.getElem?_modify]
  rcases Nat.lt_or_ge g.index m.globals.length with hlt | hge
  · rw [global_eq_getElem hlt, List.getElem?_eq_getElem hlt]
    by_cases hg : g = old
    · subst hg
      simp [hlt]
    · have hindex : old.index ≠ g.index := fun h => hg (congrArg GlobalId.mk h).symm
      simp [hg, hindex]
  · simp [global_eq_default hge, Nat.not_lt.2 hge]

theorem name_merge (m : Module) (old new g : GlobalId) :
    ((m.merge old new).global g).name = (m.global g).name := by
  by_cases hne : old = new
  · rw [merge, if_pos hne]
  · have houtline := congrArg Prod.fst (m.outline_global_merge hne g)
    split at houtline <;> exact houtline

theorem mergedInto_merge (hne : old ≠ new) (g : GlobalId) :
    ((m.merge old new).global g).mergedInto =
      if g = old ∧ g.index < m.globals.length then some new else (m.global g).mergedInto := by
  have houtline := congrArg Prod.snd (m.outline_global_merge hne g)
  split at houtline
  · rename_i hg
    rw [if_pos hg]
    exact houtline
  · rename_i hg
    rw [if_neg hg]
    exact houtline

theorem live_merge_iff (hne : old ≠ new) : (m.merge old new).Live g ↔ m.Live g ∧ g ≠ old := by
  rw [Live, Live, length_globals_merge, mergedInto_merge hne]
  by_cases hg : g = old
  · subst hg
    simp +contextual
  · simp [hg]

/-- After a merge, the global that went away is linked to the other one. -/
theorem linked_merge_iff (hne : old ≠ new) (hold : old.index < m.globals.length) :
    (m.merge old new).Linked g h ↔ if g = old then h = new else m.Linked g h := by
  rw [Linked, Linked, mergedInto_merge hne]
  by_cases hg : g = old
  · subst hg
    simp [hold, eq_comm]
  · simp [hg]

end Module

/-! ## Links after a run -/

namespace Module

variable {m m' : Module} {g h old new : GlobalId}

/-- Whether two globals are different and live. -/
def BothLive (m : Module) (old new : GlobalId) : Prop := old ≠ new ∧ m.Live old ∧ m.Live new

instance (m : Module) (old new : GlobalId) : Decidable (m.BothLive old new) :=
  inferInstanceAs (Decidable (_ ∧ _))

/-- Where links lead after two live globals were merged. -/
theorem Leads.merge (hlead : m.Leads g h) (hlive : m.BothLive old new) :
    (m.merge old new).Leads g (if h = old then new else h) := by
  obtain ⟨hne, hold, hnew⟩ := hlive
  have hnew' : (m.merge old new).Live new := (live_merge_iff hne).2 ⟨hnew, hne.symm⟩
  induction hlead with
  | @live g hg =>
    split
    · rename_i heq
      exact .link ((linked_merge_iff hne hold.1).2 (by rw [if_pos heq])) (.live hnew')
    · rename_i hneq
      exact .live ((live_merge_iff hne).2 ⟨hg, hneq⟩)
  | @link g h k hlink _ ih =>
    have hneq : g ≠ old := by
      rintro rfl
      exact hold.not_linked hlink
    exact .link ((linked_merge_iff hne hold.1).2 (by rwa [if_neg hneq])) ih

/-- Links end as before after any global was merged into a live one. -/
theorem Leads.exists_merge (hlead : m.Leads g h) (hne : old ≠ new)
    (hold : old.index < m.globals.length) (hnew : m.Live new) :
    ∃ k, (m.merge old new).Leads g k := by
  have hnew' : (m.merge old new).Live new := (live_merge_iff hne).2 ⟨hnew, hne.symm⟩
  have hlink : (m.merge old new).Linked old new :=
    (linked_merge_iff hne hold).2 (by rw [if_pos rfl])
  induction hlead with
  | @live g hg =>
    by_cases heq : g = old
    · exact ⟨new, .link (heq ▸ hlink) (.live hnew')⟩
    · exact ⟨g, .live ((live_merge_iff hne).2 ⟨hg, heq⟩)⟩
  | @link g h k hlink' _ ih =>
    by_cases heq : g = old
    · exact ⟨new, .link (heq ▸ hlink) (.live hnew')⟩
    · obtain ⟨k, hk⟩ := ih
      exact ⟨k, .link ((linked_merge_iff hne hold).2 (by rwa [if_neg heq])) hk⟩

namespace Resolvable

theorem of_linked_iff (hm : m.Resolvable) (hlinked : ∀ g h, m'.Linked g h ↔ m.Linked g h)
    (hlength : m.globals.length ≤ m'.globals.length) : m'.Resolvable := by
  have heq : m'.Linked = m.Linked := by
    ext g h
    exact hlinked g h
  constructor
  · intro g h hlink
    exact Nat.lt_of_lt_of_le (hm.inside g h ((hlinked g h).1 hlink)) hlength
  · rw [heq]
    exact hm.acyclic

/-- Merging into a live global closes no loop. -/
theorem merge (hm : m.Resolvable) (hne : old ≠ new) (hold : old.index < m.globals.length)
    (hnew : m.Live new) : (m.merge old new).Resolvable := by
  apply Resolvable.of_leads
  · intro g h hlink
    rw [linked_merge_iff hne hold] at hlink
    rw [length_globals_merge]
    split at hlink
    · rw [hlink]
      exact hnew.1
    · exact hm.inside g h hlink
  · intro g hg
    rw [length_globals_merge] at hg
    exact (hm.leads_resolve hg).exists_merge hne hold hnew

/-- The empty module has no links. -/
theorem empty (name : String) (bits : Nat) : (Module.empty name bits).Resolvable :=
  .of_leads (fun _ _ hlink => absurd hlink.lt (Nat.not_lt_zero _))
    fun _ hg => absurd hg (Nat.not_lt_zero _)

/-- **Each operation keeps links resolvable** if a merge is of two different live globals. -/
theorem after (hm : m.Resolvable) {op : Operation} (hop : op.Meets BothLive m) :
    (op.after m).Resolvable := by
  rcases op.after_cases m with hsame | ⟨base, type, initializer, heq⟩ | ⟨old, new, rfl⟩
  · exact hm.of_linked_iff (fun g h => hsame.linked_iff) (Nat.le_of_eq hsame.length_eq.symm)
  · obtain ⟨x, hx, hglobals⟩ := m.globals_addGlobal base type initializer
    rw [heq]
    apply hm.of_linked_iff (fun g h => linked_append_iff hglobals hx)
    simp [hglobals]
  · obtain ⟨hne, hold, hnew⟩ := hop
    exact hm.merge hne hold.1 hnew

end Resolvable

end Module

/-- **Links are resolvable after every run** that merges different live globals only. -/
theorem Operation.resolvable_of_run {name : String} {bits : Nat} {ops : List Operation}
    (hops : MergesIf Module.BothLive (.empty name bits) ops) :
    (run ops (.empty name bits)).Resolvable :=
  run_keeps (fun _ _ hm hop => hm.after hop) (.empty name bits) hops

end DataImage
