import DataImage.Image.Reference
import DataImage.Proofs.Partial
import Mathlib.Data.List.Nodup

/-!
# Names of globals

A symbol table never gives one position to two names, nor one name to two positions. The name of a
value's global ends in an underscore and the position of the value, and a name that was changed
because it was taken ends in a dot and a number. So names of different values are different
(`Catalog.globalName_injective`), and none of them is a changed one
(`Catalog.globalName_ne_candidateName`).

`Module.addGlobal_spec` is what a new global changes in a module.
-/

namespace DataImage

/-! ## Symbol tables -/

namespace SymbolTable

theorem names_prefix_intern (t : SymbolTable) (name : String) :
    t.names <+: (t.intern name).2.names := by
  unfold intern
  split
  · exact List.prefix_refl _
  · exact List.prefix_append _ _

theorem getElem?_intern (t : SymbolTable) (name : String) :
    (t.intern name).2.names[(t.intern name).1.index]? = some name := by
  unfold intern
  split
  · rename_i h
    simp [List.getElem?_eq_getElem (List.idxOf_lt_length_of_mem h)]
  · simp

theorem eq_of_getElem? {t : SymbolTable} {i j : SymbolId} {name : String}
    (hi : t.names[i.index]? = some name) (hj : t.names[j.index]? = some name) : i = j := by
  obtain ⟨hi', hi⟩ := List.getElem?_eq_some_iff.1 hi
  obtain ⟨hj', hj⟩ := List.getElem?_eq_some_iff.1 hj
  have h : i.index = j.index := (List.Nodup.getElem_inj_iff t.nodup).1 (hi.trans hj.symm)
  cases i
  cases j
  exact congrArg _ h

theorem name_eq_of_getElem? {t : SymbolTable} {i : SymbolId} {name : String}
    (h : t.names[i.index]? = some name) : t.name i = name := by
  rw [SymbolTable.name, List.getD_eq_getElem?_getD, h, Option.getD_some]

end SymbolTable

/-! ## Endings in numbers -/

theorem eq_of_toDigits_eq {m n : Nat} (h : Nat.toDigits 10 m = Nat.toDigits 10 n) : m = n := by
  rw [← Nat.ofDigitChars_ten_toDigits (n := m), h, Nat.ofDigitChars_ten_toDigits]

theorem isDigit_of_mem_toDigits {n : Nat} {d : Char} (h : d ∈ Nat.toDigits 10 n) :
    d.isDigit = true :=
  Nat.isDigit_of_mem_toDigits (by decide) (by decide) h

/-- A text with a mark in front of its end cannot end in more digits than stand there. -/
theorem length_le_of_append_eq {a b ds es : List Char} {x y : Char} (hx : x.isDigit = false)
    (hes : ∀ e ∈ es, e.isDigit = true) (h : a ++ x :: ds = b ++ y :: es) :
    es.length ≤ ds.length := by
  by_contra hlt
  have hsuffix : x :: ds <:+ es := by
    have hes' : es <:+ a ++ x :: ds := ⟨b ++ [y], by simp [h]⟩
    refine List.suffix_of_suffix_length_le ⟨a, rfl⟩ hes' ?_
    rw [List.length_cons]
    omega
  have hmem := hes x (hsuffix.subset List.mem_cons_self)
  rw [hx] at hmem
  exact Bool.false_ne_true hmem

/-- Texts that end in a mark and a number are equal when the texts before, the marks and the numbers
are. -/
theorem append_toDigits_inj {a b : List Char} {x y : Char} {m n : Nat} (hx : x.isDigit = false)
    (hy : y.isDigit = false)
    (h : a ++ x :: Nat.toDigits 10 m = b ++ y :: Nat.toDigits 10 n) : a = b ∧ x = y ∧ m = n := by
  have hle := length_le_of_append_eq hx (fun _ => isDigit_of_mem_toDigits) h
  have hge := length_le_of_append_eq hy (fun _ => isDigit_of_mem_toDigits) h.symm
  obtain ⟨hab, hrest⟩ := List.append_inj' h (by
    rw [List.length_cons, List.length_cons]
    omega)
  obtain ⟨hxy, hmn⟩ := List.cons.inj hrest
  exact ⟨hab, hxy, eq_of_toDigits_eq hmn⟩

namespace Catalog

variable (c : Catalog)

theorem toList_globalName (d : DescriptorId) (v : Descriptor) :
    (c.globalName d v).toList =
      (c.typeName v.context).toList ++ '_' :: Nat.toDigits 10 d.index := by
  simp [globalName, toString, Nat.toList_repr]

theorem toList_candidateName (base : String) (n : Nat) :
    (Module.candidateName base (n + 1)).toList =
      base.toList ++ '.' :: Nat.toDigits 10 (n + 1) := by
  simp [Module.candidateName, toString, Nat.toList_repr]

/-- **Different values have different names.** -/
theorem globalName_injective {d e : DescriptorId} {v w : Descriptor}
    (h : c.globalName d v = c.globalName e w) : d = e := by
  have hlist := congrArg String.toList h
  rw [toList_globalName, toList_globalName] at hlist
  have hindex := (append_toDigits_inj (by decide) (by decide) hlist).2.2
  cases d
  cases e
  exact congrArg _ hindex

/-- No value has a changed name. -/
theorem globalName_ne_candidateName (d : DescriptorId) (v : Descriptor) (base : String) (n : Nat) :
    c.globalName d v ≠ Module.candidateName base (n + 1) := by
  intro h
  have hlist := congrArg String.toList h
  rw [toList_globalName, toList_candidateName] at hlist
  have hmark := (append_toDigits_inj (by decide) (by decide) hlist).2.1
  exact absurd hmark (by decide)

end Catalog

/-! ## New globals -/

namespace Module

variable (m : Module)

/-- Whether a global took a name. -/
def Taken (name : String) : Prop :=
  ∃ n g, (n, g) ∈ m.globalNames ∧ m.symbols.names[n.index]? = some name

theorem intern_eq (name : String) :
    m.intern name =
      ((m.symbols.intern name).1, { m with symbols := (m.symbols.intern name).2 }) := rfl

variable {m}

/-- A name that is not taken has no global under its symbol, however the table grows. -/
theorem notMem_globalNames {t : SymbolTable} (hkeys : ∀ e ∈ m.globalNames,
    e.1.index < m.symbols.names.length) (ht : m.symbols.names <+: t.names) {name : String}
    (hfree : ¬ m.Taken name) {n : SymbolId} (hn : t.names[n.index]? = some name) (g : GlobalId) :
    (n, g) ∉ m.globalNames := by
  intro hg
  refine hfree ⟨n, g, hg, ?_⟩
  have hlt := List.getElem?_eq_getElem (hkeys _ hg)
  have h := Partial.getElem?_of_prefix ht hlt
  rw [hn] at h
  rw [hlt, h]

/-- The search for a name: what it leaves of the module, where the name comes from, and that it is
free if one of the names tried is. -/
theorem freeNameFrom_spec (hkeys : ∀ e ∈ m.globalNames, e.1.index < m.symbols.names.length)
    (base : String) (tries first : Nat) :
    ∃ n t, freeNameFrom base tries first m = (n, { m with symbols := t }) ∧
      m.symbols.names <+: t.names ∧
      (∃ j, t.names[n.index]? = some (candidateName base j)) ∧
      (¬ m.Taken (candidateName base first) →
        t.names[n.index]? = some (candidateName base first)) ∧
      ((∃ j, j ≤ tries ∧ ¬ m.Taken (candidateName base (first + j))) →
        ∀ g, (n, g) ∉ m.globalNames) := by
  induction tries generalizing first m with
  | zero =>
    have hname := m.symbols.getElem?_intern (candidateName base first)
    have hprefix := m.symbols.names_prefix_intern (candidateName base first)
    refine ⟨_, _, m.intern_eq _, hprefix, ⟨first, hname⟩, fun _ => hname, ?_⟩
    rintro ⟨j, hj, hfree⟩ g
    obtain rfl : j = 0 := by omega
    exact notMem_globalNames hkeys hprefix hfree hname g
  | succ tries ih =>
    have hname := m.symbols.getElem?_intern (candidateName base first)
    have hprefix := m.symbols.names_prefix_intern (candidateName base first)
    rw [freeNameFrom, intern_eq]
    dsimp only
    by_cases htaken : (m.globalNames.lookup
        (m.symbols.intern (candidateName base first)).1).isSome = true
    · rw [if_pos htaken]
      obtain ⟨g₀, hg₀⟩ := Option.isSome_iff_exists.1 htaken
      obtain ⟨n, t, heq, hnt, hj, hbase, hfree⟩ :=
        ih (m := { m with symbols := (m.symbols.intern (candidateName base first)).2 })
          (fun e he => Nat.lt_of_lt_of_le (hkeys e he) hprefix.length_le) (first + 1)
      have taken_of : ∀ name, ¬ m.Taken name →
          ¬ Taken { m with symbols := (m.symbols.intern (candidateName base first)).2 } name := by
        rintro name hfree ⟨n, g, hg, hn⟩
        exact notMem_globalNames hkeys hprefix hfree hn g hg
      refine ⟨n, t, heq, hprefix.trans hnt, hj, fun hfirst => ?_, ?_⟩
      · exact absurd (Partial.mem_of_lookup_eq_some hg₀)
          (notMem_globalNames hkeys hprefix hfirst hname g₀)
      · rintro ⟨j, hj, hjfree⟩
        rcases j with _ | j
        · exact absurd (Partial.mem_of_lookup_eq_some hg₀)
            (notMem_globalNames hkeys hprefix hjfree hname g₀)
        · refine hfree ⟨j, by omega, ?_⟩
          rw [show first + 1 + j = first + (j + 1) by omega]
          exact taken_of _ hjfree
    · rw [if_neg htaken]
      refine ⟨_, _, rfl, hprefix, ⟨first, hname⟩, fun _ => hname, fun _ g => ?_⟩
      exact Partial.notMem_of_lookup_eq_none (Option.not_isSome_iff_eq_none.1 htaken) g

/-- **A new global** stands at the end, under a name that no other global has, which is the name
asked for unless that is taken. -/
theorem addGlobal_spec (hkeys : ∀ e ∈ m.globalNames, e.1.index < m.symbols.names.length)
    (base : String) (type : Storage) (initializer : Option Constant) :
    ∃ n t, m.addGlobal base type initializer =
        (⟨m.globals.length⟩, { m with
          symbols := t
          globals := m.globals ++ [{ name := n, type, initializer }]
          globalNames := (n, ⟨m.globals.length⟩) :: m.globalNames }) ∧
      m.symbols.names <+: t.names ∧
      (∃ j, t.names[n.index]? = some (candidateName base j)) ∧
      (¬ m.Taken base → t.names[n.index]? = some base) ∧
      ((∃ j, j ≤ m.globalNames.length ∧ ¬ m.Taken (candidateName base j)) →
        ∀ g, (n, g) ∉ m.globalNames) := by
  obtain ⟨n, t, heq, hnt, hj, hbase, hfree⟩ :=
    freeNameFrom_spec hkeys base m.globalNames.length 0
  refine ⟨n, t, ?_, hnt, hj, hbase, fun h => hfree ?_⟩
  · rw [addGlobal, freeName, heq]
  · obtain ⟨j, hj, hjfree⟩ := h
    exact ⟨j, hj, by rwa [Nat.zero_add]⟩

end Module

end DataImage
