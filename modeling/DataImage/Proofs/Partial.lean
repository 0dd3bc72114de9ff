import Mathlib.Data.List.Basic
import Mathlib.Data.List.Forall2
import Mathlib.Data.List.Perm.Basic

/-!
# Partial functions

A partial function gives a result for a list when it gives one for each element
(`mapM_eq_some_iff`, `mapM_eq_ok_iff`), and otherwise an error that some element has
(`mapM_eq_error_of_forall`).

A recursion whose depth is bounded by a number of rounds gives, round by round, more results and
never a different one. If all that can still come up lies in a finite list, no more rounds are
needed than the list is long (`eq_succ_of_length`), so the bound can be left out of what is said
about the results.
-/

namespace DataImage.Partial

variable {α β : Type}

/-! ## Lists -/

theorem mapM_eq_some_iff {f : α → Option β} {l : List α} {bs : List β} :
    l.mapM f = some bs ↔ List.Forall₂ (fun a b => f a = some b) l bs := by
  induction l generalizing bs with
  | nil =>
    simp only [List.mapM_nil, Option.pure_def, Option.some.injEq, List.forall₂_nil_left_iff]
    exact eq_comm
  | cons a l ih =>
    simp only [List.mapM_cons, Option.pure_def, Option.bind_eq_bind, Option.bind_eq_some_iff,
      List.forall₂_cons_left_iff, Option.some.injEq]
    constructor
    · rintro ⟨b, hb, bs', hbs, rfl⟩
      exact ⟨b, bs', hb, ih.1 hbs, rfl⟩
    · rintro ⟨b, bs', hb, hbs, rfl⟩
      exact ⟨b, hb, bs', ih.2 hbs, rfl⟩

theorem mapM_mono {f g : α → Option β} (h : ∀ a b, f a = some b → g a = some b) {l : List α}
    {bs : List β} (hl : l.mapM f = some bs) : l.mapM g = some bs :=
  mapM_eq_some_iff.2 ((mapM_eq_some_iff.1 hl).imp h)

theorem foldlM_mono {f g : β → α → Option β} (h : ∀ b a b', f b a = some b' → g b a = some b')
    {l : List α} {b b' : β} (hl : l.foldlM f b = some b') : l.foldlM g b = some b' := by
  induction l generalizing b with
  | nil => exact hl
  | cons a l ih =>
    rw [List.foldlM_cons, Option.bind_eq_bind, Option.bind_eq_some_iff] at hl ⊢
    obtain ⟨x, hx, hl⟩ := hl
    exact ⟨x, h b a x hx, ih hl⟩

theorem bind_mono {x y : Option α} {f g : α → Option β} (hx : ∀ a, x = some a → y = some a)
    (hf : ∀ a b, f a = some b → g a = some b) {b : β} (h : x.bind f = some b) :
    y.bind g = some b := by
  obtain ⟨a, ha, hb⟩ := Option.bind_eq_some_iff.1 h
  exact Option.bind_eq_some_iff.2 ⟨a, hx a ha, hf a b hb⟩

/-- What stands at a position stays there when the list grows. -/
theorem getElem?_of_prefix {l l' : List α} (h : l <+: l') {i : Nat} {a : α}
    (ha : l[i]? = some a) : l'[i]? = some a := by
  obtain ⟨r, rfl⟩ := h
  rw [List.getElem?_append_left (List.getElem?_eq_some_iff.1 ha).1, ha]

theorem exists_of_forall₂_right {R : α → β → Prop} {l : List α} {r : List β}
    (h : List.Forall₂ R l r) {b : β} (hb : b ∈ r) : ∃ a ∈ l, R a b := by
  induction h with
  | nil => simp at hb
  | cons hr _ ih =>
    rcases List.mem_cons.1 hb with rfl | hb
    · exact ⟨_, List.mem_cons_self, hr⟩
    · obtain ⟨a, ha, hr⟩ := ih hb
      exact ⟨a, List.mem_cons_of_mem _ ha, hr⟩

theorem exists_forall₂ {R : α → β → Prop} {l : List α} (h : ∀ a ∈ l, ∃ b, R a b) :
    ∃ bs, List.Forall₂ R l bs := by
  induction l with
  | nil => exact ⟨[], .nil⟩
  | cons a l ih =>
    obtain ⟨b, hb⟩ := h a List.mem_cons_self
    obtain ⟨bs, hbs⟩ := ih fun a ha => h a (List.mem_cons_of_mem _ ha)
    exact ⟨b :: bs, .cons hb hbs⟩

/-- What is related to a list with a member is a list with a related member in the same place. -/
theorem exists_of_forall₂_append_cons {R : α → β → Prop} {front rest : List α} {a : α}
    {r : List β} (h : List.Forall₂ R (front ++ a :: rest) r) :
    ∃ before b after, r = before ++ b :: after ∧ List.Forall₂ R front before ∧ R a b := by
  induction front generalizing r with
  | nil =>
    obtain ⟨b, after, hb, -, rfl⟩ := List.forall₂_cons_left_iff.1 h
    exact ⟨[], b, after, rfl, .nil, hb⟩
  | cons x front ih =>
    obtain ⟨y, r', hy, hr', rfl⟩ := List.forall₂_cons_left_iff.1 h
    obtain ⟨before, b, after, rfl, hbefore, hb⟩ := ih hr'
    exact ⟨y :: before, b, after, rfl, .cons hy hbefore, hb⟩

/-- What is found for each pair of related members. -/
theorem exists_forall₂_of_forall₂ {γ : Type} {R : α → β → Prop} {S : α → γ → Prop}
    {T : β → γ → Prop} {l : List α} {r : List β} (h : List.Forall₂ R l r)
    (hex : ∀ a ∈ l, ∀ b, R a b → ∃ x, S a x ∧ T b x) :
    ∃ xs, List.Forall₂ S l xs ∧ List.Forall₂ T r xs := by
  induction h with
  | nil => exact ⟨[], .nil, .nil⟩
  | cons hr _ ih =>
    obtain ⟨x, hs, ht⟩ := hex _ List.mem_cons_self _ hr
    obtain ⟨xs, hs', ht'⟩ := ih fun a ha => hex a (List.mem_cons_of_mem _ ha)
    exact ⟨x :: xs, .cons hs hs', .cons ht ht'⟩

/-- What is found for each pair of related members, seen from the pair. -/
theorem exists_forall₂_zip {γ : Type} {R : α → β → Prop} {S : α → γ → Prop}
    {T : α → β → γ → Prop} {l : List α} {r : List β} (h : List.Forall₂ R l r)
    (hex : ∀ a b, R a b → ∃ x, S a x ∧ T a b x) :
    ∃ xs, List.Forall₂ S l xs ∧ List.Forall₂ (fun p x => T p.1 p.2 x) (l.zip r) xs := by
  induction h with
  | nil => exact ⟨[], .nil, .nil⟩
  | cons hr _ ih =>
    obtain ⟨x, hs, ht⟩ := hex _ _ hr
    obtain ⟨xs, hs', ht'⟩ := ih
    exact ⟨x :: xs, .cons hs hs', .cons ht ht'⟩

theorem forall₂_trans {γ : Type} {R : α → β → Prop} {S : β → γ → Prop} {T : α → γ → Prop}
    {l : List α} {m : List β} {r : List γ} (h : List.Forall₂ R l m) (h' : List.Forall₂ S m r)
    (htrans : ∀ a b c, R a b → S b c → T a c) : List.Forall₂ T l r := by
  induction h generalizing r with
  | nil =>
    obtain rfl := List.forall₂_nil_left_iff.1 h'
    exact .nil
  | cons hr _ ih =>
    obtain ⟨c, r, hs, hr', rfl⟩ := List.forall₂_cons_left_iff.1 h'
    exact .cons (htrans _ _ _ hr hs) (ih hr')

/-- Related lists are related member by member. -/
theorem forall₂_mem {R : α → β → Prop} {l : List α} {r : List β} (h : List.Forall₂ R l r) :
    List.Forall₂ (fun a b => a ∈ l ∧ b ∈ r ∧ R a b) l r := by
  induction h with
  | nil => exact .nil
  | cons hr _ ih =>
    refine .cons ⟨List.mem_cons_self, List.mem_cons_self, hr⟩ (ih.imp ?_)
    rintro a b ⟨ha, hb, hr⟩
    exact ⟨List.mem_cons_of_mem _ ha, List.mem_cons_of_mem _ hb, hr⟩

/-- Among elements with different keys, the one that is found by its key is the one that has it. -/
theorem findIdx?_eq_some_of_nodup [DecidableEq β] {key : α → β} {l : List α}
    (hkeys : (l.map key).Nodup) {i : Nat} {a : α} (ha : l[i]? = some a) :
    l.findIdx? (fun x => key x = key a) = some i := by
  obtain ⟨hi, rfl⟩ := List.getElem?_eq_some_iff.1 ha
  refine List.findIdx?_eq_some_iff_getElem.2 ⟨hi, decide_eq_true rfl, fun j hj heq => ?_⟩
  -- an earlier element with the key would be a second one
  have hj' : j < l.length := Nat.lt_trans hj hi
  have hsame : (l.map key)[j]? = (l.map key)[i]? := by
    rw [List.getElem?_map, List.getElem?_map, List.getElem?_eq_getElem hj', ha, Option.map_some,
      Option.map_some, of_decide_eq_true heq]
  have hindex := (List.getElem?_inj (by rwa [List.length_map]) hkeys).1 hsame
  omega

/-! ## Results that are related -/

theorem rel_swap {r : α → β → Prop} {a : Option α} {b : Option β}
    (h : Option.Rel r a b) : Option.Rel (fun y x => r x y) b a := by
  cases h with
  | some h => exact .some h
  | none => exact .none

theorem rel_bind {γ δ : Type} {r : α → β → Prop} {s : γ → δ → Prop} {a : Option α}
    {b : Option β} {f : α → Option γ} {g : β → Option δ} (h : Option.Rel r a b)
    (hfg : ∀ x y, a = some x → b = some y → r x y → Option.Rel s (f x) (g y)) :
    Option.Rel s (a.bind f) (b.bind g) := by
  cases h with
  | some h => exact hfg _ _ rfl rfl h
  | none => exact .none

theorem rel_getElem? {r : α → β → Prop} {as : List α} {bs : List β}
    (h : List.Forall₂ r as bs) (i : Nat) : Option.Rel r as[i]? bs[i]? := by
  induction h generalizing i with
  | nil => exact .none
  | cons hab _ ih =>
    cases i with
    | zero => exact .some hab
    | succ i => exact ih i

/-! ## Results with errors -/

theorem mapM_congr_of_forall₂ {γ ε : Type} {f : α → Except ε γ} {g : β → Except ε γ}
    {l : List α} {r : List β} (h : List.Forall₂ (fun a b => f a = g b) l r) :
    l.mapM f = r.mapM g := by
  induction h with
  | nil => rfl
  | cons hab _ ih => rw [List.mapM_cons, List.mapM_cons, hab, ih]

theorem mapM_eq_ok_iff {ε : Type} {f : α → Except ε β} {l : List α} {bs : List β} :
    l.mapM f = .ok bs ↔ List.Forall₂ (fun a b => f a = .ok b) l bs := by
  induction l generalizing bs with
  | nil =>
    rw [List.mapM_nil, List.forall₂_nil_left_iff]
    exact ⟨fun h => (Except.ok.inj h).symm, fun h => by rw [h]; rfl⟩
  | cons a l ih =>
    rw [List.mapM_cons, List.forall₂_cons_left_iff]
    constructor
    · intro h
      cases hb : f a with
      | error e =>
        rw [hb] at h
        cases h
      | ok b =>
        rw [hb] at h
        cases hbs : l.mapM f with
        | error e =>
          rw [hbs] at h
          cases h
        | ok bs' =>
          rw [hbs] at h
          exact ⟨b, bs', rfl, ih.1 hbs, (Except.ok.inj h).symm⟩
    · rintro ⟨b, bs', hb, hbs, rfl⟩
      rw [hb, ih.2 hbs]
      rfl

/-- If there is only one error, and some element has it, there is no result. -/
theorem mapM_eq_error_of_forall {ε : Type} {f : α → Except ε β} {l : List α} {e : ε}
    (hall : ∀ a ∈ l, ∀ e', f a = .error e' → e' = e) (h : ∃ a ∈ l, f a = .error e) :
    l.mapM f = .error e := by
  cases hl : l.mapM f with
  | ok bs =>
    obtain ⟨a, ha, he⟩ := h
    obtain ⟨b, -, hb⟩ := exists_of_forall₂_right (mapM_eq_ok_iff.1 hl).flip ha
    rw [hb] at he
    cases he
  | error e' =>
    clear h
    induction l with
    | nil => cases hl
    | cons a l ih =>
      rw [List.mapM_cons] at hl
      cases hb : f a with
      | error e'' =>
        rw [hb] at hl
        obtain rfl := Except.error.inj hl
        rw [hall a List.mem_cons_self _ hb]
      | ok b =>
        rw [hb] at hl
        refine ih (fun x hx => hall x (List.mem_cons_of_mem _ hx)) ?_
        cases hrest : l.mapM f with
        | ok bs =>
          rw [hrest] at hl
          cases hl
        | error e'' =>
          rw [hrest] at hl
          obtain rfl := Except.error.inj hl
          rfl

/-- Results of a permuted list are permuted results. -/
theorem mapM_perm {ε : Type} {f : α → Except ε β} {l l' : List α} (h : l.Perm l')
    {bs : List β} (hbs : l.mapM f = .ok bs) : ∃ bs', l'.mapM f = .ok bs' ∧ bs.Perm bs' := by
  obtain ⟨bs', hall, hperm⟩ := List.perm_comp_forall₂ h.symm (mapM_eq_ok_iff.1 hbs)
  exact ⟨bs', mapM_eq_ok_iff.2 hall, hperm.symm⟩

/-! ## Lists of pairs -/

section

variable [BEq α] [LawfulBEq α] {k : α} {v : β} {l : List (α × β)}

theorem mem_of_lookup_eq_some (h : l.lookup k = some v) : (k, v) ∈ l := by
  obtain ⟨l₁, l₂, rfl, -⟩ := List.lookup_eq_some_iff.1 h
  simp

theorem notMem_of_lookup_eq_none (h : l.lookup k = none) (v : β) : (k, v) ∉ l := by
  intro hv
  have := List.lookup_eq_none_iff.1 h _ hv
  simp at this

theorem lookup_eq_none_of_notMem (h : k ∉ l.map (·.1)) : l.lookup k = none := by
  rw [List.lookup_eq_none_iff]
  intro e he
  rw [bne_iff_ne]
  rintro rfl
  exact h (List.mem_map_of_mem he)

end

/-! ## Rounds -/

/-- Counting with a test that passes more often: what passes newly counts. -/
theorem countP_lt_countP {p q : α → Bool} {l : List α} (hpq : ∀ a ∈ l, p a = true → q a = true)
    {a : α} (ha : a ∈ l) (hp : p a = false) (hq : q a = true) : l.countP p < l.countP q := by
  induction l with
  | nil => simp at ha
  | cons b l ih =>
    have hle : l.countP p ≤ l.countP q :=
      List.countP_mono_left fun x hx => hpq x (List.mem_cons_of_mem _ hx)
    rw [List.countP_cons, List.countP_cons]
    rcases List.mem_cons.1 ha with rfl | ha
    · simp only [hp, hq, if_true, Bool.false_eq_true, if_false]
      omega
    · have hlt := ih (fun x hx => hpq x (List.mem_cons_of_mem _ hx)) ha
      have hb := hpq b List.mem_cons_self
      by_cases h : p b = true
      · simp only [h, hb h, if_true]
        omega
      · rw [if_neg h]
        omega

/-- **Rounds are bounded by what can come up.** Results stay (`mono`), a round that brings nothing
is followed by no other (`step`), and after the first `m` rounds new results come up inside `known`
only. Then nothing new comes after `known.length` further rounds. -/
theorem eq_succ_of_length (round : Nat → α → Option β)
    (mono : ∀ n a b, round n a = some b → round (n + 1) a = some b)
    (step : ∀ n, round n = round (n + 1) → round (n + 1) = round (n + 2))
    (known : List α) (m : Nat)
    (outside : ∀ a, a ∉ known → ∀ n, m ≤ n → round n a = round (n + 1) a) :
    round (known.length + m) = round (known.length + m + 1) := by
  have grown : ∀ k, round (k + m) = round (k + m + 1) ∨
      k ≤ known.countP fun a => (round (k + m) a).isSome := by
    intro k
    induction k with
    | zero => exact Or.inr (Nat.zero_le _)
    | succ k ih =>
      by_cases hk : round (k + m) = round (k + m + 1)
      · left
        rw [show k + 1 + m = k + m + 1 by omega]
        exact step _ hk
      · right
        obtain ⟨a, ha⟩ := Function.ne_iff.1 hk
        have hmem : a ∈ known := by
          by_contra h
          exact ha (outside a h _ (by omega))
        have hnone : round (k + m) a = none := by
          rcases h : round (k + m) a with _ | b
          · rfl
          · exact absurd (h.trans (mono _ _ _ h).symm) ha
        have hsome : (round (k + m + 1) a).isSome = true := by
          rcases h : round (k + m + 1) a with _ | b
          · exact absurd (hnone.trans h.symm) ha
          · rfl
        have hlt := countP_lt_countP (p := fun a => (round (k + m) a).isSome)
          (q := fun a => (round (k + m + 1) a).isSome) (l := known)
          (fun x _ hx => by
            obtain ⟨b, hb⟩ := Option.isSome_iff_exists.1 hx
            exact Option.isSome_iff_exists.2 ⟨b, mono _ _ _ hb⟩)
          hmem (by simp [hnone]) hsome
        have hk' := ih.resolve_left hk
        rw [show k + 1 + m = k + m + 1 by omega]
        omega
  rcases grown known.length with h | h
  · exact h
  · funext a
    by_cases ha : a ∈ known
    · have hall := List.countP_eq_length.1 (Nat.le_antisymm List.countP_le_length h)
      obtain ⟨b, hb⟩ := Option.isSome_iff_exists.1 (hall a ha)
      exact hb.trans (mono _ _ _ hb).symm
    · exact outside a ha _ (by omega)

/-- Results of an earlier round are results of a later one. -/
theorem mono_le {round : Nat → α → Option β}
    (mono : ∀ n a b, round n a = some b → round (n + 1) a = some b) {m n : Nat} (h : m ≤ n)
    {a : α} {b : β} (hb : round m a = some b) : round n a = some b := by
  induction h with
  | refl => exact hb
  | step _ ih => exact mono _ _ _ ih

end DataImage.Partial
