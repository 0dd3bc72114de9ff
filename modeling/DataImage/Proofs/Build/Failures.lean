import DataImage.Image.Resolve
import DataImage.Proofs.Build.Runs

/-!
# What steps fail with

`Build.FailsOnly` says of a step that all its failures have some property, whatever image it starts
from. The lemmas beside it follow the ways in which steps are put together.
-/

namespace DataImage.Build

variable {α β : Type} {P Q : Failure → Prop} {c : Catalog}

/-- A step whose failures all have a property. -/
def FailsOnly (P : Failure → Prop) (x : Build α) : Prop :=
  ∀ s f s', x s = .error f s' → P f

/-- Whether a step fails in a way that passes a check. -/
def failsWith (x : Build α) (s : Image) (check : Failure → Bool) : Bool :=
  match x s with
  | .ok _ _ => false
  | .error f _ => check f

theorem exists_of_failsWith {x : Build α} {s : Image} {check : Failure → Bool}
    (h : x.failsWith s check = true) : ∃ f s', x s = .error f s' ∧ check f = true := by
  unfold failsWith at h
  cases hx : x s with
  | ok a s' =>
    rw [hx] at h
    cases h
  | error f s' =>
    rw [hx] at h
    exact ⟨f, s', rfl, h⟩

namespace FailsOnly

theorem mono {x : Build α} (hx : FailsOnly P x) (h : ∀ f, P f → Q f) : FailsOnly Q x :=
  fun s f s' hfail => h f (hx s f s' hfail)

protected theorem pure (a : α) : FailsOnly P (pure a : Build α) := nofun

protected theorem throw {f : Failure} (h : P f) :
    FailsOnly P (MonadExcept.throw f : Build α) := by
  intro s f' s' hfail
  cases hfail
  exact h

protected theorem bind {x : Build α} {f : α → Build β} (hx : FailsOnly P x)
    (hf : ∀ a, FailsOnly P (f a)) : FailsOnly P (x >>= f) := by
  intro s e s' hfail
  cases hrun : x s with
  | ok a s₁ =>
    rw [run_bind hrun] at hfail
    exact hf a s₁ e s' hfail
  | error e' s₁ =>
    rw [run_bind_error hrun] at hfail
    cases hfail
    exact hx s _ _ hrun

/-- Nothing follows a failure. -/
theorem throw_bind {e : Failure} (h : P e) (f : α → Build β) :
    FailsOnly P (MonadExcept.throw e >>= f) :=
  fun s f' s' hfail => FailsOnly.throw (α := β) h s f' s' hfail

/-- A step and then a result. -/
theorem then_pure {x : Build α} (hx : FailsOnly P x) (f : α → β) :
    FailsOnly P (x >>= fun a => pure (f a)) :=
  hx.bind fun _ => .pure _

theorem get_bind {f : Image → Build β} (hf : ∀ s, FailsOnly P (f s)) :
    FailsOnly P (get >>= f) :=
  fun s => hf s s

theorem onModule (f : Module → α × Module) : FailsOnly P (Build.onModule f) := nofun

theorem modify (f : Image → Image) : FailsOnly P (modify f : Build Unit) := nofun

theorem modifyModule (f : Module → Module) : FailsOnly P (Build.modifyModule f) := nofun

theorem mapM {f : α → Build β} {l : List α} (hf : ∀ a ∈ l, FailsOnly P (f a)) :
    FailsOnly P (l.mapM f) := by
  induction l with
  | nil => exact .pure []
  | cons a l ih =>
    rw [List.mapM_cons]
    exact (hf a List.mem_cons_self).bind fun _ =>
      (ih fun a ha => hf a (List.mem_cons_of_mem _ ha)).then_pure _

theorem foldlM {f : β → α → Build β} {l : List α} (hf : ∀ b, ∀ a ∈ l, FailsOnly P (f b a))
    (b : β) : FailsOnly P (l.foldlM f b) := by
  induction l generalizing b with
  | nil => exact .pure b
  | cons a l ih =>
    rw [List.foldlM_cons]
    exact (hf b a List.mem_cons_self).bind
      (ih fun b a ha => hf b a (List.mem_cons_of_mem _ ha))

theorem within {x : Build α} (hx : FailsOnly P x) {d : DescriptorId}
    (h : ∀ f, P f → Q (f.within d)) : FailsOnly Q (Build.within d x) := by
  intro s f s' hfail
  unfold Build.within at hfail
  cases hrun : x s with
  | ok a s₁ =>
    rw [hrun] at hfail
    cases hfail
  | error f' s₁ =>
    rw [hrun] at hfail
    cases hfail
    exact h f' (hx s f' _ hrun)

theorem whileBuilding {x : Build α} (hx : FailsOnly P x) (d : DescriptorId) :
    FailsOnly P (Build.whileBuilding d x) := by
  intro s f s' hfail
  unfold Build.whileBuilding at hfail
  dsimp only at hfail
  cases hrun : x { s with building := d :: s.building } with
  | ok a s₁ =>
    rw [hrun] at hfail
    cases hfail
  | error f' s₁ =>
    rw [hrun] at hfail
    cases hfail
    exact hx _ _ _ hrun

/-- Looking up a value that is there, or failing. -/
theorem descriptor_bind {d : DescriptorId} {f : Descriptor → Build β}
    (hnone : P { cause := .violation (.unknownDescriptor d) })
    (hf : ∀ v, c.descriptor? d = some v → FailsOnly P (f v)) :
    FailsOnly P (Build.descriptor c d >>= f) := by
  unfold Build.descriptor
  cases hd : c.descriptor? d with
  | none => exact throw_bind hnone f
  | some v =>
    rw [pure_bind]
    exact hf v hd

end FailsOnly

end DataImage.Build
