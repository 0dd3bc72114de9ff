import DataImage.Proofs.Module.Names

/-!
# Merging a fresh global

A global that was not merged stands for itself. A merge redirects addresses all over the module, but
as long as nothing refers to the global that goes away, only the two globals themselves change
(`Module.merge_fresh`): the one that stays takes over type and contents if it has none, and the
other one leaves its link behind. The table of names is as it was before the fresh global came.
-/

namespace DataImage

namespace Constant

mutual

theorem redirect_of_notMem {old : GlobalId} (new : GlobalId) :
    (k : Constant) → old ∉ k.globals → k.redirect old new = k
  | .int .., _ | .zeroed _, _ | .functionAddr _, _ => rfl
  | .globalAddr id, h => by
    have hne : id ≠ old := fun hid => h (by simp [globals, hid])
    rw [redirect, if_neg hne]
  | .aggregate name fields, h => by
    rw [redirect, redirectAll_of_notMem new fields (by simpa [globals] using h)]
  | .array element elements, h => by
    rw [redirect, redirectAll_of_notMem new elements (by simpa [globals] using h)]

theorem redirectAll_of_notMem {old : GlobalId} (new : GlobalId) :
    (ks : List Constant) → old ∉ globalsAll ks → redirectAll old new ks = ks
  | [], _ => rfl
  | k :: ks, h => by
    rw [globalsAll, List.mem_append, not_or] at h
    rw [redirectAll, redirect_of_notMem new k h.1, redirectAll_of_notMem new ks h.2]

end

end Constant

namespace Module

variable {m : Module}

theorem global_eq_getElem {g : GlobalId} (h : g.index < m.globals.length) :
    m.global g = m.globals[g.index] := by
  rw [global, List.getD_eq_getElem?_getD, List.getElem?_eq_getElem h, Option.getD_some]

theorem global_eq_default {g : GlobalId} (h : m.globals.length ≤ g.index) :
    m.global g = default := by
  rw [global, List.getD_eq_getElem?_getD, List.getElem?_eq_none h, Option.getD_none]

theorem global_eq_of_getElem? {g : GlobalId} {x : Global} (h : m.globals[g.index]? = some x) :
    m.global g = x := by
  rw [global, List.getD_eq_getElem?_getD, h, Option.getD_some]

/-- A global that was not merged into another one stands for itself. -/
theorem resolve_of_live {g : GlobalId} (h : (m.global g).mergedInto = none) : m.resolve g = g := by
  unfold resolve
  cases m.globals.length with
  | zero => rfl
  | succ n => rw [resolveWithin, h]

/-- Contents after an adoption were contents of one of the two before. -/
theorem initializer_adopt {into merged : Global} {k : Constant}
    (h : (into.adopt merged).initializer = some k) :
    into.initializer = some k ∨ merged.initializer = some k := by
  unfold Global.adopt at h
  split at h
  · rename_i hcontents
    exact Or.inr (hcontents.trans h)
  · exact Or.inl h

theorem mem_of_mem_modify {α : Type} {f : α → α} {l : List α} {i : Nat} {a : α}
    (h : a ∈ l.modify i f) : a ∈ l ∨ ∃ b ∈ l, a = f b := by
  obtain ⟨j, hj⟩ := List.mem_iff_getElem?.1 h
  rw [List.getElem?_modify] at hj
  obtain ⟨b, hb, rfl⟩ := Option.map_eq_some_iff.1 hj
  have hmem := List.mem_of_getElem? hb
  split
  · exact Or.inr ⟨b, hmem, rfl⟩
  · exact Or.inl hmem

theorem modify_append_last {α : Type} (f : α → α) (l : List α) (a : α) :
    (l ++ [a]).modify l.length f = l ++ [f a] := by
  induction l with
  | nil => rfl
  | cons b l ih =>
    rw [List.cons_append, List.length_cons, List.modify_succ_cons, ih, List.cons_append]

theorem modify_append_of_lt {α : Type} (f : α → α) {l r : List α} {i : Nat} (h : i < l.length) :
    (l ++ r).modify i f = l.modify i f ++ r := by
  induction l generalizing i with
  | nil => simp at h
  | cons b l ih =>
    cases i with
    | zero => rfl
    | succ i =>
      rw [List.cons_append, List.modify_succ_cons, List.modify_succ_cons,
        ih (Nat.lt_of_succ_lt_succ h), List.cons_append]

theorem modify_append_of_le {α : Type} (f : α → α) {l r : List α} {i : Nat} (h : l.length ≤ i) :
    (l ++ r).modify i f = l ++ r.modify (i - l.length) f := by
  induction l generalizing i with
  | nil => rfl
  | cons b l ih =>
    cases i with
    | zero => simp at h
    | succ i =>
      rw [List.cons_append, List.modify_succ_cons, ih (Nat.le_of_succ_le_succ h),
        List.length_cons, Nat.succ_sub_succ, List.cons_append]

/-- Redirecting an address that occurs nowhere changes nothing. -/
theorem map_redirect_of_notMem {l : List Global} {old new : GlobalId}
    (h : ∀ y ∈ l, ∀ k, y.initializer = some k → old ∉ k.globals) :
    (l.map fun y => { y with initializer := y.initializer.map (·.redirect old new) }) = l := by
  refine (List.map_congr_left fun y hy => ?_).trans (List.map_id l)
  cases hk : y.initializer with
  | none => rw [Option.map_none, ← hk, id]
  | some k =>
    rw [Option.map_some, Constant.redirect_of_notMem new k (h y hy k hk), ← hk, id]

/-- **Merging the last global into another one, when nothing refers to it.** -/
theorem merge_fresh {t : SymbolTable} {n : SymbolId} {x : Global} {g : GlobalId}
    (hg : g.index < m.globals.length) (hn : ∀ h, (n, h) ∉ m.globalNames) (hx : x.name = n)
    (hmentions : ∀ y ∈ x :: m.globals, ∀ k, y.initializer = some k →
      ⟨m.globals.length⟩ ∉ k.globals) :
    Module.merge { m with
        symbols := t
        globals := m.globals ++ [x]
        globalNames := (n, ⟨m.globals.length⟩) :: m.globalNames } ⟨m.globals.length⟩ g =
      { m with
        symbols := t
        globals := m.globals.modify g.index (Global.adopt · x) ++
          [{ x with initializer := none, mergedInto := some g }] } := by
  have hne : (⟨m.globals.length⟩ : GlobalId) ≠ g := fun h => by
    rw [← h] at hg
    exact Nat.lt_irrefl _ hg
  have hlast : Module.global { m with
      symbols := t
      globals := m.globals ++ [x]
      globalNames := (n, ⟨m.globals.length⟩) :: m.globalNames } ⟨m.globals.length⟩ = x :=
    global_eq_of_getElem? (by simp)
  have hnames : ((n, (⟨m.globals.length⟩ : GlobalId)) :: m.globalNames).filter (·.1 ≠ n) =
      m.globalNames := by
    rw [List.filter_cons_of_neg (by simp), List.filter_eq_self]
    rintro ⟨n', h⟩ hmem
    simp only [ne_eq, decide_not, Bool.not_eq_true', decide_eq_false_iff_not]
    rintro rfl
    exact hn h hmem
  have hmodify : ((m.globals ++ [x]).modify m.globals.length fun y =>
        { y with initializer := none, mergedInto := some g }).modify g.index (Global.adopt · x) =
      m.globals.modify g.index (Global.adopt · x) ++
        [{ x with initializer := none, mergedInto := some g }] := by
    rw [modify_append_last, modify_append_of_lt _ hg]
  rw [merge, if_neg hne, hlast]
  simp only [updateGlobal, hx, hnames, hmodify]
  rw [map_redirect_of_notMem]
  intro y hy k hk
  rcases List.mem_append.1 hy with hy | hy
  · rcases mem_of_mem_modify hy with hy | ⟨z, hz, rfl⟩
    · exact hmentions y (List.mem_cons_of_mem _ hy) k hk
    · rcases initializer_adopt hk with hz' | hx'
      · exact hmentions z (List.mem_cons_of_mem _ hz) k hz'
      · exact hmentions x List.mem_cons_self k hx'
  · obtain rfl := List.mem_singleton.1 hy
    cases hk

end Module

end DataImage
