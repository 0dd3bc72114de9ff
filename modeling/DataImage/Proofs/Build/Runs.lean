import DataImage.Proofs.Image.Coherent

/-!
# Running steps

What a step may do to an image, whether it fails or not, is a relation of images, and `Keeps` says
of one step on one image that it respects the relation and what holds of its result. The lemmas
beside it follow the ways in which steps are put together. Most steps of a build only add to an
image, and this is what `Runs` says.

Building contents has one more property that matters later: a value gets a global only because
something that was written down refers to it (`Image.Adds`).
-/

namespace DataImage

/-! ## Where new entries come from -/

/-- Each value that has a global in `s'` only is reached from one of the given values. -/
def Image.Adds (c : Catalog) (s s' : Image) (roots : List DescriptorId) : Prop :=
  ∀ e ∈ s'.entries, e ∈ s.entries ∨ ∃ r ∈ roots, c.Reaches r e.1

namespace Image.Adds

variable {c : Catalog} {s s' s'' : Image} {roots roots' : List DescriptorId}

theorem of_entries_eq (h : s'.entries = s.entries) (roots : List DescriptorId) :
    Adds c s s' roots :=
  fun _ he => Or.inl (h ▸ he)

theorem mono (h : Adds c s s' roots) (hr : ∀ r ∈ roots, r ∈ roots') : Adds c s s' roots' := by
  intro e he
  rcases h e he with he | ⟨r, hmem, hreach⟩
  · exact Or.inl he
  · exact Or.inr ⟨r, hr r hmem, hreach⟩

theorem trans (h : Adds c s s' roots) (h' : Adds c s' s'' roots') :
    Adds c s s'' (roots ++ roots') := by
  intro e he
  rcases h' e he with he | ⟨r, hr, hreach⟩
  · exact h.mono (fun r => List.mem_append_left _) e he
  · exact Or.inr ⟨r, List.mem_append_right _ hr, hreach⟩

/-- What is reached from an entry of `s'` is reached from where the entry came from. -/
theorem absorb (h : Adds c s s' roots) (h' : Adds c s' s'' (s'.entries.map (·.1)))
    (hroots : ∀ e ∈ s.entries, e.1 ∈ roots) : Adds c s s'' roots := by
  intro e he
  have from_entry : ∀ e' ∈ s'.entries, ∃ r ∈ roots, c.Reaches r e'.1 := by
    intro e' he'
    rcases h e' he' with he' | hreach
    · exact ⟨e'.1, hroots e' he', .refl⟩
    · exact hreach
  rcases h' e he with he | ⟨r, hr, hreach⟩
  · exact h e he
  · obtain ⟨e', he', rfl⟩ := List.mem_map.1 hr
    obtain ⟨r, hr, hreach'⟩ := from_entry e' he'
    exact Or.inr ⟨r, hr, hreach'.trans hreach⟩

/-- What the contents of a value refer to is reached from the value. -/
theorem of_refers {d : DescriptorId} {v : Value} (h : Adds c s s' v.references)
    (hv : c.contents? d = some v) : Adds c s s' [d] := by
  intro e he
  rcases h e he with he | ⟨r, hr, hreach⟩
  · exact Or.inl he
  · exact Or.inr ⟨d, List.mem_singleton.2 rfl, .head ⟨v, hv, hr⟩ hreach⟩

end Image.Adds

/-! ## Steps -/

namespace Build

variable {α β : Type} {c : Catalog} {known : TypeId → Prop} {s : Image}

theorem run_get (s : Image) : (get : Build Image) s = .ok s s := rfl

theorem run_modify (f : Image → Image) (s : Image) : (modify f : Build Unit) s = .ok () (f s) :=
  rfl

theorem run_modifyModule (f : Module → Module) (s : Image) :
    modifyModule f s = .ok () { s with module := f s.module } := rfl

theorem run_onModule (f : Module → α × Module) (s : Image) :
    onModule f s = .ok (f s.module).1 { s with module := (f s.module).2 } := rfl

/-- What follows a step that succeeds runs at the image that the step leaves. -/
theorem run_bind {x : Build α} {a : α} {s' : Image} (hx : x s = .ok a s') (f : α → Build β) :
    (x >>= f) s = f a s' := by
  simp only [bind, EStateM.bind, hx]

theorem run_bind_error {x : Build α} {e : Failure} {s' : Image} (hx : x s = .error e s')
    (f : α → Build β) : (x >>= f) s = .error e s' := by
  simp only [bind, EStateM.bind, hx]

theorem bitWidth_eq (c : Catalog) (t : TypeId) :
    bitWidth c t = if c.FitsWidth t then pure ((c.typeDef t).size * 8) else overflow :=
  rfl

/-- Whether a step succeeds with a result and an image that pass a check. -/
def succeedsWith (x : Build α) (s : Image) (check : α → Image → Bool) : Bool :=
  match x s with
  | .ok a s' => check a s'
  | .error _ _ => false

theorem exists_of_succeedsWith {x : Build α} {check : α → Image → Bool}
    (h : x.succeedsWith s check = true) : ∃ a s', x s = .ok a s' ∧ check a s' = true := by
  unfold succeedsWith at h
  cases hx : x s with
  | ok a s' =>
    rw [hx] at h
    exact ⟨a, s', rfl, h⟩
  | error f s' =>
    rw [hx] at h
    cases h

/-- Running a step at an image: the image changes only as the relation allows and is coherent then,
also if the step fails, and a result has the property asked for. -/
def Keeps (R : Image → Image → Prop) (c : Catalog) (known : TypeId → Prop) (s : Image)
    (x : Build α) (post : α → Image → Prop) : Prop :=
  match x s with
  | .ok a s' => R s s' ∧ s'.Coherent c known ∧ post a s'
  | .error _ s' => R s s' ∧ s'.Coherent c known

namespace Keeps

variable {R R' : Image → Image → Prop} {x : Build α} {post post' : α → Image → Prop}

theorem of_ok (h : Keeps R c known s x post) {a : α} {s' : Image} (hx : x s = .ok a s') :
    R s s' ∧ s'.Coherent c known ∧ post a s' := by
  unfold Keeps at h
  rwa [hx] at h

theorem of_error (h : Keeps R c known s x post) {f : Failure} {s' : Image}
    (hx : x s = .error f s') : R s s' ∧ s'.Coherent c known := by
  unfold Keeps at h
  rwa [hx] at h

/-- A step may be allowed to change more, and less may be asked of its result. -/
theorem mono (h : Keeps R c known s x post) (hR : ∀ s', R s s' → R' s s')
    (hpost : ∀ a s', R s s' → s'.Coherent c known → post a s' → post' a s') :
    Keeps R' c known s x post' := by
  unfold Keeps
  cases hx : x s with
  | ok a s' =>
    obtain ⟨hstep, hs', hp⟩ := h.of_ok hx
    exact ⟨hR s' hstep, hs', hpost a s' hstep hs' hp⟩
  | error f s' =>
    obtain ⟨hstep, hs'⟩ := h.of_error hx
    exact ⟨hR s' hstep, hs'⟩

theorem imp (h : Keeps R c known s x post)
    (hpost : ∀ a s', R s s' → s'.Coherent c known → post a s' → post' a s') :
    Keeps R c known s x post' :=
  h.mono (fun _ hstep => hstep) hpost

theorem get_bind {f : Image → Build β} {post' : β → Image → Prop}
    (h : Keeps R c known s (f s) post') : Keeps R c known s (get >>= f) post' := h

theorem within {d : DescriptorId} (h : Keeps R c known s x post) :
    Keeps R c known s (Build.within d x) post := by
  unfold Keeps Build.within
  cases hx : x s with
  | ok a s' => exact h.of_ok hx
  | error f s' => exact h.of_error hx

section

variable [Std.Refl R]

protected theorem pure (hs : s.Coherent c known) {a : α} (h : post a s) :
    Keeps R c known s (pure a) post :=
  ⟨Std.Refl.refl s, hs, h⟩

protected theorem throw (hs : s.Coherent c known) (f : Failure) :
    Keeps R c known s (throw f) post :=
  ⟨Std.Refl.refl s, hs⟩

theorem violate (hs : s.Coherent c known) (v : Violation) :
    Keeps R c known s (Build.violate v) post :=
  Keeps.throw hs _

theorem overflow (hs : s.Coherent c known) : Keeps R c known s (Build.overflow : Build α) post :=
  Keeps.throw hs _

/-- After a failure nothing follows. -/
theorem throw_bind (hs : s.Coherent c known) (e : Failure) {f : α → Build β}
    {post' : β → Image → Prop} : Keeps R c known s ((throw e : Build α) >>= f) post' :=
  ⟨Std.Refl.refl s, hs⟩

/-- The width in bits of an integer type, if it is a word. -/
theorem bitWidth_bind (hs : s.Coherent c known) {t : TypeId} {f : Nat → Build β}
    {post' : β → Image → Prop}
    (h : c.FitsWidth t → Keeps R c known s (f ((c.typeDef t).size * 8)) post') :
    Keeps R c known s (Build.bitWidth c t >>= f) post' := by
  rw [Build.bitWidth_eq]
  split
  · rename_i hwidth
    rw [pure_bind]
    exact h hwidth
  · exact throw_bind hs _

/-- Looking up a value that is there, or failing. -/
theorem descriptor_bind (hs : s.Coherent c known) {d : DescriptorId} {f : Descriptor → Build β}
    {post' : β → Image → Prop}
    (h : ∀ v, c.descriptor? d = some v → Keeps R c known s (f v) post') :
    Keeps R c known s (Build.descriptor c d >>= f) post' := by
  unfold Build.descriptor
  cases hd : c.descriptor? d with
  | none => exact throw_bind hs _
  | some v =>
    rw [pure_bind]
    exact h v hd

end

protected theorem bind [IsTrans Image R] {f : α → Build β} {post' : β → Image → Prop}
    (hx : Keeps R c known s x post)
    (hf : ∀ a s', R s s' → s'.Coherent c known → post a s' → Keeps R c known s' (f a) post') :
    Keeps R c known s (x >>= f) post' := by
  unfold Keeps
  cases h : x s with
  | error e s' =>
    rw [run_bind_error h]
    exact hx.of_error h
  | ok a s' =>
    obtain ⟨hstep, hs', hp⟩ := hx.of_ok h
    have hrest := hf a s' hstep hs' hp
    rw [run_bind h]
    cases h' : f a s' with
    | ok b s'' =>
      obtain ⟨hstep', hs'', hp'⟩ := hrest.of_ok h'
      exact ⟨IsTrans.trans _ _ _ hstep hstep', hs'', hp'⟩
    | error e s'' =>
      obtain ⟨hstep', hs''⟩ := hrest.of_error h'
      exact ⟨IsTrans.trans _ _ _ hstep hstep', hs''⟩

end Keeps

/-- A step that only adds to the image. -/
abbrev Runs (c : Catalog) (known : TypeId → Prop) (s : Image) (x : Build α)
    (post : α → Image → Prop) : Prop :=
  Keeps Image.Grows c known s x post

instance : Std.Refl Image.Grows := ⟨Image.Grows.refl⟩

instance : IsTrans Image Image.Grows := ⟨fun _ _ _ => Image.Grows.trans⟩

end Build

end DataImage
