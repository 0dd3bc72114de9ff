import DataImage.Description.Blueprint
import Mathlib.Data.List.Forall2

/-!
# How declaring steps end

`Description.Yields` says how a step ends from a catalog: with a result and a catalog that have a
property, or with an error that has one. The lemmas beside it follow the ways in which steps are put
together. A walk over a list is followed by an invariant of the members that are done
(`Yields.foldlM`, `Yields.forM`, `Yields.mapM`).
-/

namespace DataImage.Description

variable {α β : Type} {c : Catalog} {fault fault' : Error → Prop}

/-- How a step ends from a catalog. -/
def Yields (x : Declare α) (c : Catalog) (fault : Error → Prop)
    (post : α → Catalog → Prop) : Prop :=
  match x c with
  | .ok (a, c') => post a c'
  | .error e => fault e

namespace Yields

variable {x : Declare α} {post post' : α → Catalog → Prop} {next : β → Catalog → Prop}

theorem of_ok (h : Yields x c fault post) {a : α} {c' : Catalog} (hx : x c = .ok (a, c')) :
    post a c' := by
  unfold Yields at h
  rwa [hx] at h

theorem of_error (h : Yields x c fault post) {e : Error} (hx : x c = .error e) : fault e := by
  unfold Yields at h
  rwa [hx] at h

theorem mono (h : Yields x c fault post) (hpost : ∀ a c', post a c' → post' a c') :
    Yields x c fault post' := by
  unfold Yields at h ⊢
  cases hx : x c with
  | ok r =>
    rw [hx] at h
    exact hpost r.1 r.2 h
  | error e =>
    rw [hx] at h
    exact h

theorem mono_fault (h : Yields x c fault post) (hfault : ∀ e, fault e → fault' e) :
    Yields x c fault' post := by
  unfold Yields at h ⊢
  cases hx : x c with
  | ok r =>
    rw [hx] at h
    exact h
  | error e =>
    rw [hx] at h
    exact hfault e h

/-- What a step ends with, together with its run. -/
theorem with_run (h : Yields x c fault post) :
    Yields x c fault fun a c' => post a c' ∧ x c = .ok (a, c') := by
  unfold Yields at h ⊢
  cases hx : x c with
  | ok r =>
    rw [hx] at h
    exact ⟨h, rfl⟩
  | error e =>
    rw [hx] at h
    exact h

protected theorem pure {a : α} (h : post a c) : Yields (pure a) c fault post := h

protected theorem throw {e : Error} (h : fault e) :
    Yields (MonadExcept.throw e : Declare α) c fault post := h

protected theorem bind {f : α → Declare β} (hx : Yields x c fault post)
    (hf : ∀ a c', post a c' → Yields (f a) c' fault next) : Yields (x >>= f) c fault next := by
  unfold Yields at hx
  change match (x c >>= fun r => f r.1 r.2 : Except Error (β × Catalog)) with
    | .ok (b, c') => next b c'
    | .error e => fault e
  cases h : x c with
  | ok r =>
    rw [h] at hx
    exact hf r.1 r.2 hx
  | error e =>
    rw [h] at hx
    exact hx

theorem get_bind {f : Catalog → Declare β} (h : Yields (f c) c fault next) :
    Yields (get >>= f) c fault next := h

theorem onCatalog {f : Catalog → α × Catalog} (h : post (f c).1 (f c).2) :
    Yields (Description.onCatalog f) c fault post := h

theorem modify {f : Catalog → Catalog} {post : Unit → Catalog → Prop} (h : post () (f c)) :
    Yields (modify f : Declare Unit) c fault post := h

theorem discard {post : Unit → Catalog → Prop} (h : Yields x c fault fun _ => post ()) :
    Yields (discard x) c fault post :=
  h.bind (f := fun _ => Pure.pure ()) fun _ _ h => h

/-! ## Walks over lists -/

/-- A walk over a list that carries a result along. -/
theorem foldlM {f : β → α → Declare β} {l : List α} {b : β} {I : List α → β → Catalog → Prop}
    (start : I [] b c) (step : ∀ before a after b c, l = before ++ a :: after → I before b c →
      Yields (f b a) c fault (I (before ++ [a]))) : Yields (l.foldlM f b) c fault (I l) := by
  have walk : ∀ after before b c, l = before ++ after → I before b c →
      Yields (after.foldlM f b) c fault (I l) := by
    intro after
    induction after with
    | nil =>
      intro before b c hl h
      rw [List.append_nil] at hl
      exact .pure (hl ▸ h)
    | cons a after ih =>
      intro before b c hl h
      rw [List.foldlM_cons]
      exact (step before a after b c hl h).bind fun b c h =>
        ih (before ++ [a]) b c (by rw [hl, List.append_assoc, List.singleton_append]) h
  exact walk l [] b c rfl start

theorem forM {f : α → Declare Unit} {l : List α} {I : List α → Catalog → Prop}
    (start : I [] c) (step : ∀ before a after c, l = before ++ a :: after → I before c →
      Yields (f a) c fault fun _ => I (before ++ [a])) :
    Yields (l.forM f) c fault fun _ => I l := by
  have hfold : l.forM f = l.foldlM (fun _ a => f a) () := by
    clear start step
    induction l with
    | nil => rfl
    | cons a l ih =>
      rw [List.foldlM_cons]
      exact congrArg (f a >>= ·) (funext fun _ => ih)
  rw [hfold]
  exact foldlM (I := fun before _ => I before) start
    fun before a after _ c hl h => step before a after c hl h

/-- A walk over a list that gives a result for each member. -/
theorem mapM {f : α → Declare β} {l : List α} {I : List α → List β → Catalog → Prop}
    (start : I [] [] c) (step : ∀ before a after bs c, l = before ++ a :: after → I before bs c →
      Yields (f a) c fault fun b => I (before ++ [a]) (bs ++ [b])) :
    Yields (l.mapM f) c fault (I l) := by
  rw [List.mapM_eq_reverse_foldlM_cons, map_eq_pure_bind]
  -- the results come last first
  refine (foldlM (I := fun before bs => I before bs.reverse) start
    fun before a after bs c hl h => ?_).bind fun bs c h => .pure h
  rw [map_eq_pure_bind]
  refine (step before a after bs.reverse c hl h).bind fun b c h => .pure ?_
  rw [List.reverse_cons]
  exact h

/-- A step that is taken if there is something to take it with. -/
theorem optionMapM {f : α → Declare β} {o : Option α} {I : Option β → Catalog → Prop}
    (none : o = none → I none c)
    (some : ∀ a, o = some a → Yields (f a) c fault fun b => I (some b)) :
    Yields (o.mapM f) c fault I := by
  cases o with
  | none => exact .pure (none rfl)
  | some a =>
    rw [Option.mapM_some, map_eq_pure_bind]
    exact (some a rfl).bind fun _ _ h => .pure h

end Yields

end DataImage.Description
