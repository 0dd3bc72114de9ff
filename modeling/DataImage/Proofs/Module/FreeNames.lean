import DataImage.Proofs.Module.GlobalNames

/-!
# The search for a free name

A new global gets the first name among `base`, `base.1`, `base.2`, … that no global took. As a loop,
the search writes a candidate into the symbol table, looks it up among the taken names and goes on
with the next one while it is there (`Module.Searches`); nothing in the loop says that it ends.

It ends because the candidates are different names, and it changes nothing but the symbol table, in
which a candidate that is turned down stands already, as the name of the global that took it. What
follows from both is `Module.FirstFree`, and `Operation.firstFree_of_run` states it for every run of
operations, merges of any kind included: a name keeps one entry in the table of taken names
(`Module.Keyed`), so there are as many entries as names in use.
-/

namespace DataImage

namespace Module

variable {m m' : Module} {base name : String} {n k looked tries : Nat} {r r' : SymbolId × Module}

/-! ## The table of taken names -/

/-- The names that are taken are names of the symbol table, each with one entry. -/
structure Keyed (m : Module) : Prop where
  inside : ∀ e ∈ m.globalNames, e.1.index < m.symbols.names.length
  once : (m.globalNames.map Prod.fst).Nodup

namespace Keyed

theorem empty (name : String) (bits : Nat) : (Module.empty name bits).Keyed where
  inside := fun _ he => absurd he List.not_mem_nil
  once := List.nodup_nil

theorem of_sameOutline (hm : m.Keyed) (hsame : m.SameOutline m') : m'.Keyed where
  inside := fun e he =>
    Nat.lt_of_lt_of_le (hm.inside e (hsame.table ▸ he)) hsame.symbols.length_le
  once := hsame.table ▸ hm.once

/-- A new global takes a name that was free, so it has no second entry. -/
theorem addGlobal (hm : m.Keyed) (base : String) (type : Storage)
    (initializer : Option Constant) : (m.addGlobal base type initializer).2.Keyed := by
  obtain ⟨s, t, heq, hprefix, ⟨j, hs⟩, -, hfree⟩ :=
    addGlobal_spec hm.inside base type initializer
  rw [heq]
  constructor
  · intro e he
    rcases List.mem_cons.1 he with rfl | he
    · exact (List.getElem?_eq_some_iff.1 hs).1
    · exact Nat.lt_of_lt_of_le (hm.inside e he) hprefix.length_le
  · refine List.nodup_cons.2 ⟨fun hmem => ?_, hm.once⟩
    obtain ⟨⟨_, g⟩, hg, rfl⟩ := List.mem_map.1 hmem
    exact hfree (m.exists_free base) g hg

theorem merge (hm : m.Keyed) (old new : GlobalId) : (m.merge old new).Keyed := by
  by_cases hne : old = new
  · rwa [Module.merge, if_pos hne]
  constructor
  · intro e he
    rw [Named.globalNames_merge m hne] at he
    rw [Named.symbols_merge]
    exact hm.inside e (List.mem_filter.1 he).1
  · rw [Named.globalNames_merge m hne]
    exact hm.once.sublist (List.filter_sublist.map _)

/-- **Every operation keeps the entries apart**, whatever it is applied to. -/
theorem after (hm : m.Keyed) (op : Operation) : (op.after m).Keyed := by
  rcases op.after_cases m with hsame | ⟨base, type, initializer, heq⟩ | ⟨old, new, rfl⟩
  · exact hm.of_sameOutline hsame
  · rw [heq]
    exact hm.addGlobal base type initializer
  · exact hm.merge old new

theorem run (hm : m.Keyed) (ops : List Operation) : (Operation.run ops m).Keyed := by
  induction ops generalizing m with
  | nil => exact hm
  | cons op ops ih => exact ih (hm.after op)

end Keyed

/-! ## One candidate -/

/-- A taken name is in the symbol table, under the symbol of an entry, so writing it changes
nothing. -/
theorem intern_of_taken (h : m.Taken name) :
    ∃ s, (m.globalNames.lookup s).isSome = true ∧ m.intern name = (s, m) := by
  obtain ⟨s, g, hmem, hname⟩ := h
  refine ⟨s, ?_, ?_⟩
  · by_contra hnone
    exact Partial.notMem_of_lookup_eq_none (Option.not_isSome_iff_eq_none.1 hnone) g hmem
  · have hs := SymbolTable.eq_of_getElem? (m.symbols.getElem?_intern name)
      (Partial.getElem?_of_prefix (m.symbols.names_prefix_intern name) hname)
    have htable : (m.symbols.intern name).2 = m.symbols := by
      rw [SymbolTable.intern, dif_pos (List.mem_of_getElem? hname)]
    rw [intern_eq, hs, htable]

/-- A free name is written under a symbol without an entry. -/
theorem notMem_of_free (hm : m.Keyed) (h : ¬ m.Taken name) (g : GlobalId) :
    ((m.intern name).1, g) ∉ m.globalNames :=
  notMem_globalNames hm.inside (m.symbols.names_prefix_intern name) h
    (m.symbols.getElem?_intern name) g

/-! ## The loop -/

/-- The search from a candidate on: how many candidates it looks at, and its result. Each candidate
is written into the symbol table before it is looked up. -/
inductive Searches (base : String) : Nat → Module → Nat → SymbolId × Module → Prop
  | free {n : Nat} {m : Module}
      (h : ¬ (m.globalNames.lookup (m.intern (candidateName base n)).1).isSome = true) :
      Searches base n m 1 (m.intern (candidateName base n))
  | taken {n : Nat} {m : Module} {looked : Nat} {r : SymbolId × Module}
      (h : (m.globalNames.lookup (m.intern (candidateName base n)).1).isSome = true)
      (hrest : Searches base (n + 1) (m.intern (candidateName base n)).2 looked r) :
      Searches base n m (looked + 1) r

namespace Searches

/-- The loop goes on in one way only. -/
theorem unique (hs : Searches base n m looked r) {looked' : Nat}
    (hs' : Searches base n m looked' r') : looked = looked' ∧ r = r' := by
  induction hs generalizing looked' with
  | free h =>
    cases hs' with
    | free _ => exact ⟨rfl, rfl⟩
    | taken h' _ => exact absurd h' h
  | taken h _ ih =>
    cases hs' with
    | free h' => exact absurd h h'
    | taken _ hrest' =>
      obtain ⟨hlooked, hr⟩ := ih hrest'
      exact ⟨congrArg (· + 1) hlooked, hr⟩

/-- A bound on the candidates is no matter if the loop ends within it. -/
theorem freeNameFrom_eq (hs : Searches base n m looked r) (htries : looked ≤ tries + 1) :
    freeNameFrom base tries n m = r := by
  induction hs generalizing tries with
  | free h =>
    cases tries with
    | zero => rfl
    | succ tries => exact if_neg h
  | taken h hrest ih =>
    cases tries with
    | zero => cases hrest <;> omega
    | succ tries =>
      rw [freeNameFrom]
      exact (if_pos h).trans (ih (by omega))

/-- The loop runs through taken candidates, which leave the module as it is, to a free one. -/
theorem of_taken (hm : m.Keyed) (htaken : ∀ j < k, m.Taken (candidateName base (n + j)))
    (hfree : ¬ m.Taken (candidateName base (n + k))) :
    Searches base n m (k + 1) (m.intern (candidateName base (n + k))) := by
  induction k generalizing n with
  | zero =>
    refine .free fun hsome => ?_
    obtain ⟨g, hg⟩ := Option.isSome_iff_exists.1 hsome
    exact notMem_of_free hm hfree g (Partial.mem_of_lookup_eq_some hg)
  | succ k ih =>
    have hnext : ∀ j, n + 1 + j = n + (j + 1) := fun j => by omega
    obtain ⟨s, hsome, hintern⟩ := intern_of_taken (htaken 0 (Nat.succ_pos k))
    rw [Nat.add_zero] at hintern
    have hrest : Searches base (n + 1) m (k + 1) (m.intern (candidateName base (n + 1 + k))) := by
      refine ih (fun j hj => ?_) (by rwa [hnext])
      rw [hnext]
      exact htaken (j + 1) (Nat.succ_lt_succ hj)
    rw [hnext] at hrest
    refine .taken ?_ ?_
    · rw [hintern]
      exact hsome
    · rw [hintern]
      exact hrest

end Searches

/-! ## The first free name -/

/-- What the search for a free name does if the `k`-th candidate is the one it finds. -/
structure FirstFree (m : Module) (base : String) (k : Nat) : Prop where
  /-- As many names are in use as the table of taken names has entries. -/
  once : (m.globalNames.map Prod.fst).Nodup
  bound : k ≤ m.globalNames.length
  taken : ∀ j < k, m.Taken (candidateName base j)
  free : ¬ m.Taken (candidateName base k)
  /-- The loop ends after `k + 1` candidates, and in no other way. -/
  ends : ∀ looked r, Searches base 0 m looked r ↔ looked = k + 1 ∧ r = m.freeName base
  /-- The candidates that were turned down leave no trace. -/
  found : m.freeName base = m.intern (candidateName base k)
  spelled : (m.freeName base).2.symbols.find? (candidateName base k) = some (m.freeName base).1
  unused : ∀ g, ((m.freeName base).1, g) ∉ m.globalNames
  /-- The symbols that were there keep their meaning. -/
  earlier : ∀ s : SymbolId, s.index < m.symbols.size →
    (m.freeName base).2.symbol s = m.symbol s

/-- One of the free candidates is the first, and it does not come later than any of them. -/
theorem exists_first_free (m : Module) (base : String) :
    ∃ k, k ≤ m.globalNames.length ∧ (∀ j < k, m.Taken (candidateName base j)) ∧
      ¬ m.Taken (candidateName base k) := by
  classical
  obtain ⟨j, hj, hfree⟩ := m.exists_free base
  have hexists : ∃ k, ¬ m.Taken (candidateName base k) := ⟨j, hfree⟩
  exact ⟨Nat.find hexists, (Nat.find_min' hexists hfree).trans hj,
    fun i hi => not_not.1 (Nat.find_min hexists hi), Nat.find_spec hexists⟩

theorem Keyed.exists_firstFree (hm : m.Keyed) (base : String) : ∃ k, m.FirstFree base k := by
  obtain ⟨k, hbound, htaken, hfree⟩ := m.exists_first_free base
  have hsearch : Searches base 0 m (k + 1) (m.intern (candidateName base k)) := by
    have hs := Searches.of_taken (n := 0) hm (fun j hj => by rw [Nat.zero_add]; exact htaken j hj)
      (by rwa [Nat.zero_add])
    rwa [Nat.zero_add] at hs
  have hfound : m.freeName base = m.intern (candidateName base k) :=
    hsearch.freeNameFrom_eq (Nat.succ_le_succ hbound)
  refine ⟨k, hm.once, hbound, htaken, hfree, fun looked r => ?_, hfound, ?_, ?_, ?_⟩
  · rw [hfound]
    constructor
    · intro hs
      exact hs.unique hsearch
    · rintro ⟨rfl, rfl⟩
      exact hsearch
  · rw [hfound]
    exact SymbolTable.find?_eq_some_iff.2 (m.symbols.getElem?_intern _)
  · rw [hfound]
    exact notMem_of_free hm hfree
  · intro s hs
    rw [hfound]
    have hget : m.symbols.names[s.index]? = some (m.symbol s) := by
      have hget := List.getElem?_eq_getElem hs
      rwa [← SymbolTable.name_eq_of_getElem? hget] at hget
    exact SymbolTable.name_eq_of_getElem?
      (Partial.getElem?_of_prefix (m.symbols.names_prefix_intern _) hget)

end Module

/-- **The search for a free name ends and finds the first one.** After every run of operations and
for every base, the loop looks at no more than one candidate more than names are in use, and finds
`base` if it is free, else `base.k` for the least `k` for which that is free. Apart from this name,
the symbol table is what it was. -/
theorem Operation.firstFree_of_run (name : String) (bits : Nat) (ops : List Operation)
    (base : String) : ∃ k, (run ops (.empty name bits)).FirstFree base k :=
  ((Module.Keyed.empty name bits).run ops).exists_firstFree base

/-- A name that looks like a changed one is passed over as well. -/
example :
    let m := Operation.run
      [.addPlaceholder "x" .ptr, .addPlaceholder "x.1" .ptr, .addPlaceholder "x" .ptr]
      (.empty "Numbered" 32)
    m.globalName ⟨2⟩ = "x.2" := by
  decide +kernel

end DataImage
