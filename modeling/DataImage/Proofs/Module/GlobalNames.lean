import DataImage.Proofs.Module.Operations

/-!
# The table of names of globals

A module finds a global by its name in a table that is kept up to date step by step: a new global
takes the first free name, and a merge gives a name free. `Module.Exact` is what the table is for:
live globals have different names, and looking up a name finds the live global that has it.

The search for a free name always ends at one (`Module.exists_free`), because the candidates are
different and there is one more of them than names are taken. A merge removes the name of the global
that goes away from the table, whoever the table gives the name to. That is right as long as the
global was live. If it was merged away before, its name may belong to another global by now
(`Module.Tidy`), which then is not found any more: `Operation.exact_of_run` says that the table is
exact after runs of operations without such merges, and that such a merge always spoils it.
-/

namespace DataImage

/-! ## Free names -/

namespace SymbolTable

theorem find?_eq_some_iff {t : SymbolTable} {name : String} {n : SymbolId} :
    t.find? name = some n ↔ t.names[n.index]? = some name := by
  simp only [find?, Option.map_eq_some_iff, List.idxOf?_eq_some_iff]
  constructor
  · rintro ⟨i, ⟨hi, hname, -⟩, rfl⟩
    exact List.getElem?_eq_some_iff.2 ⟨hi, hname⟩
  · intro hn
    obtain ⟨hi, hname⟩ := List.getElem?_eq_some_iff.1 hn
    refine ⟨n.index, ⟨hi, hname, fun j hj hname' => ?_⟩, rfl⟩
    have heq := (List.Nodup.getElem_inj_iff t.nodup).1 (hname'.trans hname.symm)
    omega

end SymbolTable

namespace Module

variable {m m' : Module} {g h old new : GlobalId} {n : SymbolId}

/-- Different candidates are different names. -/
theorem candidateName_injective (base : String) : Function.Injective (candidateName base) := by
  have hlength : ∀ n, base.toList.length < (candidateName base (n + 1)).toList.length := by
    intro n
    rw [Catalog.toList_candidateName, List.length_append, List.length_cons]
    omega
  intro i j hij
  cases i with
  | zero =>
    cases j with
    | zero => rfl
    | succ j => exact absurd (congrArg (·.toList.length) hij) (Nat.ne_of_lt (hlength j))
  | succ i =>
    cases j with
    | zero => exact absurd (congrArg (·.toList.length) hij) (Nat.ne_of_gt (hlength i))
    | succ j =>
      have hlist := congrArg String.toList hij
      rw [Catalog.toList_candidateName, Catalog.toList_candidateName] at hlist
      exact (append_toDigits_inj (by decide) (by decide) hlist).2.2

/-- **One of the candidates is free**, and not later than after as many as names are taken. -/
theorem exists_free (m : Module) (base : String) :
    ∃ j, j ≤ m.globalNames.length ∧ ¬ m.Taken (candidateName base j) := by
  by_contra hnone
  push Not at hnone
  let candidates := (List.range (m.globalNames.length + 1)).map (candidateName base)
  let taken := m.globalNames.map fun e => m.symbol e.1
  have hnodup : candidates.Nodup := List.nodup_range.map (candidateName_injective base)
  have hsubset : candidates ⊆ taken := by
    intro name hname
    obtain ⟨j, hj, rfl⟩ := List.mem_map.1 hname
    obtain ⟨n, g, hmem, hn⟩ := hnone j (Nat.le_of_lt_succ (List.mem_range.1 hj))
    exact List.mem_map.2 ⟨(n, g), hmem, SymbolTable.name_eq_of_getElem? hn⟩
  have hle := hnodup.length_le_of_subset hsubset
  simp only [candidates, taken, List.length_map, List.length_range] at hle
  omega

/-! ## What the table says -/

/-- Whether live globals have different names and are found under them. -/
structure Exact (m : Module) : Prop where
  unique : ∀ g h, m.Live g → m.Live h → m.globalName g = m.globalName h → g = h
  found : ∀ name g, m.findGlobal? name = some g ↔ m.Live g ∧ m.globalName g = name

/-- What is kept of symbols and the table of names. -/
structure Named (m : Module) : Prop where
  spelled : ∀ x ∈ m.globals, x.name.index < m.symbols.names.length
  table : ∀ n g, (n, g) ∈ m.globalNames ↔ m.Live g ∧ (m.global g).name = n
  unique : ∀ g h, m.Live g → m.Live h → (m.global g).name = (m.global h).name → g = h

/-- Whether a merge takes the name of no live global but the one that goes away. -/
def Tidy (m : Module) (old new : GlobalId) : Prop :=
  old = new ∨ m.Live old ∨ ∀ g, m.Live g → (m.global g).name ≠ (m.global old).name

instance (m : Module) (old new : GlobalId) : Decidable (m.Tidy old new) :=
  have : Decidable (∀ g, m.Live g → (m.global g).name ≠ (m.global old).name) :=
    decidable_of_iff (∀ g ∈ m.ids, m.Live g → (m.global g).name ≠ (m.global old).name)
      ⟨fun h g hg => h g (mem_ids.2 hg.1) hg, fun h g _ => h g⟩
  inferInstanceAs (Decidable (_ ∨ _ ∨ _))

namespace Named

variable (hm : m.Named)

include hm

theorem key_lt : ∀ e ∈ m.globalNames, e.1.index < m.symbols.names.length := by
  rintro ⟨n, g⟩ he
  obtain ⟨hlive, rfl⟩ := (hm.table n g).1 he
  rw [global_eq_getElem hlive.1]
  exact hm.spelled _ (List.getElem_mem hlive.1)

theorem getElem?_name (hlive : m.Live g) :
    m.symbols.names[(m.global g).name.index]? = some (m.globalName g) := by
  have hlt : (m.global g).name.index < m.symbols.names.length := by
    rw [global_eq_getElem hlive.1]
    exact hm.spelled _ (List.getElem_mem hlive.1)
  have hget := List.getElem?_eq_getElem hlt
  rw [globalName, symbol, SymbolTable.name_eq_of_getElem? hget, hget]

theorem lookup_eq_some_iff : m.globalNames.lookup n = some g ↔
    m.Live g ∧ (m.global g).name = n := by
  rw [← hm.table]
  constructor
  · exact Partial.mem_of_lookup_eq_some
  · intro hmem
    cases hlookup : m.globalNames.lookup n with
    | none => exact absurd hmem (Partial.notMem_of_lookup_eq_none hlookup g)
    | some h =>
      obtain ⟨hlive, hname⟩ := (hm.table n g).1 hmem
      obtain ⟨hlive', hname'⟩ := (hm.table n h).1 (Partial.mem_of_lookup_eq_some hlookup)
      rw [hm.unique g h hlive hlive' (hname.trans hname'.symm)]

theorem exact : m.Exact where
  unique := fun g h hg hh hname => by
    have hget := hm.getElem?_name hg
    rw [hname] at hget
    exact hm.unique g h hg hh (SymbolTable.eq_of_getElem? hget (hm.getElem?_name hh))
  found := fun name g => by
    rw [findGlobal?, Option.bind_eq_some_iff]
    constructor
    · rintro ⟨n, hn, hlookup⟩
      obtain ⟨hlive, rfl⟩ := hm.lookup_eq_some_iff.1 hlookup
      have hget := SymbolTable.find?_eq_some_iff.1 hn
      rw [hm.getElem?_name hlive] at hget
      exact ⟨hlive, Option.some.inj hget⟩
    · rintro ⟨hlive, rfl⟩
      exact ⟨(m.global g).name, SymbolTable.find?_eq_some_iff.2 (hm.getElem?_name hlive),
        hm.lookup_eq_some_iff.2 ⟨hlive, rfl⟩⟩

end Named

/-! ## Operations -/

namespace Named

theorem empty (name : String) (bits : Nat) : (Module.empty name bits).Named where
  spelled := fun _ hx => absurd hx List.not_mem_nil
  table := fun _ _ =>
    ⟨fun hmem => absurd hmem List.not_mem_nil, fun h => absurd h.1.1 (Nat.not_lt_zero _)⟩
  unique := fun _ _ hg => absurd hg.1 (Nat.not_lt_zero _)

theorem of_sameOutline (hm : m.Named) (hsame : m.SameOutline m') : m'.Named where
  spelled := fun x hx => by
    obtain ⟨y, hy, hname⟩ := List.mem_map.1 (hsame.outlines ▸ List.mem_map_of_mem hx)
    rw [show x.name = y.name from (congrArg Prod.fst hname).symm]
    exact Nat.lt_of_lt_of_le (hm.spelled y hy) hsame.symbols.length_le
  table := fun n g => by
    rw [hsame.table, hsame.live_iff, hsame.name_eq]
    exact hm.table n g
  unique := fun g h => by
    rw [hsame.live_iff, hsame.live_iff, hsame.name_eq, hsame.name_eq]
    exact hm.unique g h

theorem addGlobal (hm : m.Named) (base : String) (type : Storage)
    (initializer : Option Constant) : (m.addGlobal base type initializer).2.Named := by
  obtain ⟨n, t, heq, hprefix, ⟨j, hn⟩, -, hfree⟩ :=
    addGlobal_spec hm.key_lt base type initializer
  replace hfree := hfree (m.exists_free base)
  rw [heq]
  have hglobals : Module.globals { m with
      symbols := t
      globals := m.globals ++ [{ name := n, type, initializer }]
      globalNames := (n, ⟨m.globals.length⟩) :: m.globalNames } =
    m.globals ++ [{ name := n, type, initializer }] := rfl
  have hlive := fun g => live_append_iff (g := g) hglobals rfl
  have hold := fun g => global_append_of_lt (g := g) hglobals
  have hnew := global_append_last hglobals
  -- no live global had the new name before
  have hfresh : ∀ g, m.Live g → (m.global g).name ≠ n := fun g hg hname =>
    hfree g ((hm.table n g).2 ⟨hg, hname⟩)
  refine ⟨?_, ?_, ?_⟩
  · intro x hx
    rcases List.mem_append.1 hx with hx | hx
    · exact Nat.lt_of_lt_of_le (hm.spelled x hx) hprefix.length_le
    · rw [List.mem_singleton.1 hx]
      exact (List.getElem?_eq_some_iff.1 hn).1
  · intro n' g
    rw [List.mem_cons, hm.table, hlive]
    constructor
    · rintro (hmem | ⟨hg, hname⟩)
      · obtain ⟨rfl, rfl⟩ := Prod.mk.inj hmem
        exact ⟨.inr rfl, by rw [hnew]⟩
      · exact ⟨.inl hg, by rwa [hold g hg.1]⟩
    · rintro ⟨hg | rfl, hname⟩
      · rw [hold g hg.1] at hname
        exact .inr ⟨hg, hname⟩
      · rw [hnew] at hname
        exact .inl (by rw [← hname])
  · intro g h hg hh hname
    rcases (hlive g).1 hg with hg | rfl
    · rcases (hlive h).1 hh with hh | rfl
      · rw [hold g hg.1, hold h hh.1] at hname
        exact hm.unique g h hg hh hname
      · rw [hold g hg.1, hnew] at hname
        exact absurd hname (hfresh g hg)
    · rcases (hlive h).1 hh with hh | rfl
      · rw [hold h hh.1, hnew] at hname
        exact absurd hname.symm (hfresh h hh)
      · rfl

theorem globalNames_merge (m : Module) (hne : old ≠ new) :
    (m.merge old new).globalNames = m.globalNames.filter (·.1 ≠ (m.global old).name) := by
  rw [m.merge_eq hne]

theorem symbols_merge (m : Module) (old new : GlobalId) :
    (m.merge old new).symbols = m.symbols := by
  by_cases hne : old = new
  · rw [merge, if_pos hne]
  · rw [m.merge_eq hne]

theorem merge (hm : m.Named) (htidy : m.Tidy old new) : (m.merge old new).Named := by
  by_cases hne : old = new
  · rwa [Module.merge, if_pos hne]
  -- the names that are left in the table are those of the live globals that are left
  have hleft : ∀ g, m.Live g → ((m.global g).name ≠ (m.global old).name ↔ g ≠ old) := by
    intro g hg
    constructor
    · rintro hname rfl
      exact hname rfl
    · intro hg' hname
      rcases htidy with h | h | h
      · exact hne h
      · exact hg' (hm.unique g old hg h hname)
      · exact h g hg hname
  refine ⟨?_, ?_, ?_⟩
  · intro x hx
    obtain ⟨i, hi, rfl⟩ := List.mem_iff_getElem.1 hx
    rw [length_globals_merge] at hi
    have hname := m.name_merge old new ⟨i⟩
    rw [global_eq_getElem (by simpa using hi), global_eq_getElem hi] at hname
    rw [hname, symbols_merge]
    exact hm.spelled _ (List.getElem_mem hi)
  · intro n g
    rw [globalNames_merge m hne, List.mem_filter, hm.table, live_merge_iff hne, name_merge,
      decide_eq_true_eq]
    constructor
    · rintro ⟨⟨hg, rfl⟩, hname⟩
      exact ⟨⟨hg, (hleft g hg).1 hname⟩, rfl⟩
    · rintro ⟨⟨hg, hg'⟩, rfl⟩
      exact ⟨⟨hg, rfl⟩, (hleft g hg).2 hg'⟩
  · intro g h hg hh hname
    rw [live_merge_iff hne] at hg hh
    rw [name_merge, name_merge] at hname
    exact hm.unique g h hg.1 hh.1 hname

theorem after (hm : m.Named) {op : Operation} (hop : op.Meets Tidy m) : (op.after m).Named := by
  rcases op.after_cases m with hsame | ⟨base, type, initializer, heq⟩ | ⟨old, new, rfl⟩
  · exact hm.of_sameOutline hsame
  · rw [heq]
    exact hm.addGlobal base type initializer
  · exact hm.merge hop

/-- A merge that takes the name of another live global leaves that one unfound. -/
theorem tidy_of_exact_merge (hm : m.Named) (hexact : (m.merge old new).Exact) :
    m.Tidy old new := by
  by_contra hnot
  obtain ⟨hne, hold, hclash⟩ : old ≠ new ∧ ¬ m.Live old ∧
      ∃ g, m.Live g ∧ (m.global g).name = (m.global old).name := by
    simpa [Tidy, not_or] using hnot
  obtain ⟨g, hg, hname⟩ := hclash
  have hlive : (m.merge old new).Live g := by
    refine (live_merge_iff hne).2 ⟨hg, ?_⟩
    rintro rfl
    exact hold hg
  have hfound := (hexact.found _ g).2 ⟨hlive, rfl⟩
  rw [findGlobal?, Option.bind_eq_some_iff] at hfound
  obtain ⟨n, hn, hlookup⟩ := hfound
  -- the symbol found is that of the removed global, which is no longer in the table
  have hget := SymbolTable.find?_eq_some_iff.1 hn
  rw [globalName, symbol, symbols_merge, name_merge] at hget
  have hn' := SymbolTable.eq_of_getElem? hget (hm.getElem?_name hg)
  have hmem := Partial.mem_of_lookup_eq_some hlookup
  rw [globalNames_merge m hne, List.mem_filter, hn', hname] at hmem
  simp at hmem

end Named

end Module

namespace Operation

/-- **Names of live globals are exact.** After every run of operations in which no merge is of a
global that was merged away before and whose name a live global has by now, no two live globals have
the same name, and looking up a name finds the live global that has it, or nothing if there is none.
A further merge keeps this exactly if it is not of that kind either. Whether links close a loop does
not matter for names. -/
theorem exact_of_run {name : String} {bits : Nat} {ops : List Operation}
    (hops : MergesIf Module.Tidy (.empty name bits) ops) {m : Module}
    (hm : m = run ops (.empty name bits)) :
    (∀ g h, m.Live g → m.Live h → m.globalName g = m.globalName h → g = h) ∧
    (∀ name g, m.findGlobal? name = some g ↔ m.Live g ∧ m.globalName g = name) ∧
    ∀ old new, (m.merge old new).Exact ↔ m.Tidy old new := by
  have hnamed : m.Named :=
    hm ▸ run_keeps (fun _ _ h hop => h.after hop) (.empty name bits) hops
  refine ⟨hnamed.exact.unique, hnamed.exact.found, fun old new => ?_⟩
  exact ⟨hnamed.tidy_of_exact_merge, fun htidy => (hnamed.merge htidy).exact⟩

/-- A name that was given free by a merge, made twice, is taken again. -/
def reused : List Operation :=
  [.addPlaceholder "x" .ptr, .addPlaceholder "x" .ptr, .merge ⟨0⟩ ⟨1⟩, .merge ⟨0⟩ ⟨1⟩,
    .addPlaceholder "x" .ptr]

theorem exact_of_run_reused :
    (run reused (.empty "Reused" 32)).findGlobal? "x" = some ⟨2⟩ ∧
      (run reused (.empty "Reused" 32)).findGlobal? "x.1" = some ⟨1⟩ := by
  have hops : MergesIf Module.Tidy (.empty "Reused" 32) reused := by decide
  obtain ⟨-, hfound, -⟩ := exact_of_run hops rfl
  exact ⟨(hfound "x" ⟨2⟩).2 (by decide), (hfound "x.1" ⟨1⟩).2 (by decide)⟩

/-- A global is merged away once more after its name was taken again. -/
def mergedAgain : List Operation :=
  [.addPlaceholder "x" .ptr, .addPlaceholder "y" .ptr, .merge ⟨0⟩ ⟨1⟩, .addPlaceholder "x" .ptr,
    .merge ⟨0⟩ ⟨1⟩]

/-- Merges between globals that are there, with links that close no loop, are not enough for names
to be exact. -/
theorem not_exact_mergedAgain :
    MergesIf (fun m old new => old.index < m.globals.length ∧ new.index < m.globals.length ∧
        (m.merge old new).Resolvable) (.empty "Again" 32) mergedAgain ∧
      (run mergedAgain (.empty "Again" 32)).Live ⟨2⟩ ∧
      (run mergedAgain (.empty "Again" 32)).globalName ⟨2⟩ = "x" ∧
      (run mergedAgain (.empty "Again" 32)).findGlobal? "x" = none ∧
      ¬ (run mergedAgain (.empty "Again" 32)).Exact := by
  have hbefore : (run (mergedAgain.take 4) (.empty "Again" 32)).Resolvable :=
    resolvable_of_run (by decide)
  have hfirst : (run (mergedAgain.take 3) (.empty "Again" 32)).Resolvable :=
    resolvable_of_run (by decide)
  have hsecond : ((run (mergedAgain.take 4) (.empty "Again" 32)).merge ⟨0⟩ ⟨1⟩).Resolvable :=
    hbefore.merge (by decide) (by decide) (by decide)
  refine ⟨⟨trivial, trivial, ⟨by decide, by decide, hfirst⟩, trivial,
    ⟨by decide, by decide, hsecond⟩, trivial⟩, by decide, by decide, by decide, ?_⟩
  intro hexact
  have hfound := (hexact.found "x" ⟨2⟩).2 (by decide)
  exact absurd hfound (by decide)

end Operation

end DataImage
