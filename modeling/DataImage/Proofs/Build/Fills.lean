import DataImage.Proofs.Build.Failures
import DataImage.Proofs.Build.Halting
import DataImage.Proofs.Build.Sweep

/-!
# How often placeholders are filled

A log of the placeholders that calls fill, in their order (`Call.fillsOf`). A placeholder is empty
before it is filled and has its contents ever after, so none is in the log twice
(`Call.filledBy_fillsOf`), and the log is not longer than there are values.

Together with the bounds that are never reached this is `Call.halts_of_run`: however the values of
an acyclic catalog refer to one another, every call comes to an end, and all calls together fill the
placeholder of each value once at most.
-/

namespace DataImage

/-! ## The log -/

namespace Build

variable (c : Catalog)

/-- The placeholder of a value, if it can be filled. -/
def fillLog (d : DescriptorId) (g : GlobalId) (s : Image) : List (DescriptorId × GlobalId) :=
  match fill c d g s with
  | .ok _ _ => [(d, g)]
  | .error _ _ => []

/-- What is filled when a value is asked for together with its contents. -/
def materializeLog (d : DescriptorId) (s : Image) : List (DescriptorId × GlobalId) :=
  match request c d s with
  | .ok g s' => if s'.module.isPlaceholder g then fillLog c d g s' else []
  | .error _ _ => []

/-- What is filled by at most `steps` fills from a position on. -/
def resolveLog : (steps start : Nat) → Image → List (DescriptorId × GlobalId)
  | 0, _, _ => []
  | steps + 1, start, s =>
    match s.nextPlaceholder? start with
    | none => []
    | some (i, d, g) =>
      match fill c d g s with
      | .ok _ s' => (d, g) :: resolveLog steps (i + 1) s'
      | .error _ _ => []

end Build

namespace Call

/-- The placeholders that a call fills, with their values. -/
def fills (c : Catalog) (s : Image) : Call → List (DescriptorId × GlobalId)
  | .materialize d => Build.materializeLog c d s
  | .resolveAll => Build.resolveLog c (c.descriptors.length + 1) 0 s
  | .request _ | .build _ | .buildAs _ _ | .scalar _ _ | .layout _ | .storage _
  | .declaration _ => []

/-- The placeholders that calls fill, with their values. -/
def fillsOf (c : Catalog) : List Call → Image → List (DescriptorId × GlobalId)
  | [], _ => []
  | call :: calls, s => call.fills c s ++ fillsOf c calls (call.after c s)

end Call

/-! ## No placeholder is filled twice -/

namespace Build

variable {α β : Type} {s s' : Image}

/-! What is left of a step that is followed by another one. -/

theorem left_bind_ok {x : Build α} {f : α → Build β} {a : α} (h : x s = .ok a s') :
    (x >>= f).left s = (f a).left s' := by
  rw [left, left, run_bind h]

theorem left_bind_error {x : Build α} {f : α → Build β} {e : Failure} (h : x s = .error e s') :
    (x >>= f).left s = s' := by
  rw [left, run_bind_error h]

theorem left_bind_pure (x : Build α) (f : α → β) :
    (x >>= fun a => pure (f a)).left s = x.left s := by
  cases h : x s with
  | ok a s' =>
    rw [left_bind_ok h, left, left, h]
    rfl
  | error e s' => rw [left_bind_error h, left, h]

end Build

namespace Image

/-- Between two images the listed globals have been filled, none of them twice, and nothing that was
settled has changed. -/
structure FilledBy (log : List (DescriptorId × GlobalId)) (s s' : Image) : Prop where
  settles : s.Settles s'
  nodup : log.Nodup
  empty : ∀ e ∈ log, ¬ s.IsFilled e.2
  registered : log ⊆ s'.entries
  filled : ∀ e ∈ log, s'.IsFilled e.2

variable {c : Catalog} {known : TypeId → Prop} {s s' s'' : Image}
  {log log' : List (DescriptorId × GlobalId)}

namespace FilledBy

theorem nil (h : s.Settles s') : FilledBy [] s s' where
  settles := h
  nodup := List.nodup_nil
  empty := List.forall_mem_nil _
  registered := List.nil_subset _
  filled := List.forall_mem_nil _

/-- What is filled later was empty before. -/
theorem append (h : FilledBy log s s') (h' : FilledBy log' s' s'') :
    FilledBy (log ++ log') s s'' where
  settles := h.settles.trans h'.settles
  nodup := h.nodup.append h'.nodup fun e he he' => h'.empty e he' (h.filled e he)
  empty := List.forall_mem_append.2
    ⟨h.empty, fun e he hfilled => h'.empty e he (h.settles.isFilled hfilled)⟩
  registered := List.append_subset.2
    ⟨fun _ he => h'.settles.entries.subset (h.registered he), h'.registered⟩
  filled := List.forall_mem_append.2
    ⟨fun e he => h'.settles.isFilled (h.filled e he), h'.filled⟩

/-- The values of a log differ, and so do their globals. -/
theorem distinct (h : FilledBy log s s') (hs' : s'.Coherent c known) :
    (log.map (·.1)).Nodup ∧ (log.map (·.2)).Nodup := by
  have hvalues := List.inj_on_of_nodup_map hs'.distinct
  have hglobals := List.inj_on_of_nodup_map hs'.nodup_globals
  exact ⟨h.nodup.map_on fun _ hx _ hy => hvalues (h.registered hx) (h.registered hy),
    h.nodup.map_on fun _ hx _ hy => hglobals (h.registered hx) (h.registered hy)⟩

theorem length_le (h : FilledBy log s s') (hs' : s'.Coherent c known) :
    log.length ≤ c.descriptors.length :=
  (h.nodup.length_le_of_subset h.registered).trans hs'.length_entries_le

end FilledBy

end Image

namespace Build

variable {c : Catalog} {known : TypeId → Prop} {s : Image}

/-- A sweep counts the placeholders that it fills. -/
theorem length_resolveLog {steps start filled n : Nat} {s s' : Image}
    (h : resolveFrom c steps start filled s = .ok n s') :
    n = filled + (resolveLog c steps start s).length := by
  induction steps generalizing start filled s with
  | zero =>
    obtain ⟨rfl, -⟩ := EStateM.Result.ok.inj h
    rfl
  | succ steps ih =>
    rw [resolveFrom, run_bind (run_get s)] at h
    rw [resolveLog]
    cases hnext : s.nextPlaceholder? start with
    | none =>
      rw [hnext] at h
      obtain ⟨rfl, -⟩ := EStateM.Result.ok.inj h
      rfl
    | some found =>
      obtain ⟨i, d, g⟩ := found
      rw [hnext] at h
      dsimp only at h ⊢
      cases hfill : fill c d g s with
      | error f s₁ =>
        rw [run_bind_error hfill] at h
        cases h
      | ok u s₁ =>
        rw [run_bind hfill] at h
        rw [ih h, List.length_cons]
        omega

variable (hc : c.Closed known)

include hc

theorem filledBy_fillLog (hs : s.Coherent c known) {d : DescriptorId} {g : GlobalId}
    (hd : (d, g) ∈ s.entries) (hempty : s.module.isPlaceholder g = true) :
    s.FilledBy (fillLog c d g s) ((fill c d g).left s) := by
  have hadvances := fill_advances hc hs hd hempty
  have hsettles := (Call.left_advances hadvances).1
  unfold fillLog
  unfold left at hsettles ⊢
  cases hfill : fill c d g s with
  | error f s' =>
    rw [hfill] at hsettles
    exact .nil hsettles
  | ok u s' =>
    rw [hfill] at hsettles
    obtain ⟨-, -, hfilled, -⟩ := hadvances.of_ok hfill
    exact
      { settles := hsettles
        nodup := List.nodup_singleton _
        empty := List.forall_mem_singleton.2 fun h => by
          rw [hs.isFilled_iff hd, hempty] at h
          cases h
        registered := List.cons_subset.2 ⟨hsettles.entries.subset hd, List.nil_subset _⟩
        filled := List.forall_mem_singleton.2 hfilled }

theorem filledBy_materializeLog (hs : s.Coherent c known) (d : DescriptorId) :
    s.FilledBy (materializeLog c d s) ((materialize c d).left s) := by
  cases hrequest : request c d s with
  | error f s₁ =>
    obtain ⟨hgrows, -⟩ := (request_runs hc d hs).of_error hrequest
    simp only [materializeLog, hrequest]
    rw [materialize, left_bind_error hrequest]
    exact .nil hgrows.settles
  | ok g s₁ =>
    obtain ⟨hgrows, hs₁, hg, -⟩ := (request_runs hc d hs).of_ok hrequest
    have hmem := Partial.mem_of_lookup_eq_some hg
    have hrequested := Image.FilledBy.nil hgrows.settles
    simp only [materializeLog, hrequest]
    rw [materialize, left_bind_ok hrequest, left_bind_ok (run_get s₁)]
    split
    · rename_i hempty
      rw [left_bind_pure]
      exact hrequested.append (filledBy_fillLog hc hs₁ hmem hempty)
    · exact hrequested

/-- What a sweep fills, step by step. -/
theorem filledBy_resolveLog (hs : s.Coherent c known) (steps start filled : Nat) :
    s.FilledBy (resolveLog c steps start s) ((resolveFrom c steps start filled).left s) := by
  induction steps generalizing s start filled with
  | zero => exact .nil (Image.Settles.refl s)
  | succ steps ih =>
    rw [resolveLog, resolveFrom, left_bind_ok (run_get s)]
    cases hnext : s.nextPlaceholder? start with
    | none => exact .nil (Image.Settles.refl s)
    | some found =>
      obtain ⟨i, d, g⟩ := found
      obtain ⟨-, hentry, hempty, -⟩ := nextPlaceholder?_eq_some hs hnext
      have hstep := filledBy_fillLog hc hs (List.mem_of_getElem? hentry) hempty
      unfold fillLog at hstep
      dsimp only
      cases hfill : fill c d g s with
      | error f s₁ =>
        rw [left_bind_error hfill]
        rw [hfill, left, hfill] at hstep
        exact hstep
      | ok u s₁ =>
        obtain ⟨-, hs₁, -⟩ := coherent_of_fill hc hs hnext hfill
        rw [left_bind_ok hfill]
        rw [hfill, left, hfill] at hstep
        exact hstep.append (ih hs₁ (i + 1) (filled + 1))

end Build

namespace Call

variable {c : Catalog}

section

variable {known : TypeId → Prop} {s : Image} (hc : c.Closed known)

include hc

/-- What a call fills. -/
theorem filledBy_fills (hs : s.Coherent c known) (call : Call)
    (hcall : ∀ t ∈ call.types, known t) : s.FilledBy (call.fills c s) (call.after c s) := by
  have hsettles := (after_coherent hc hs call hcall).1
  cases call with
  | materialize d => exact Build.filledBy_materializeLog hc hs d
  | resolveAll => exact Build.filledBy_resolveLog hc hs _ 0 0
  | request d => exact .nil hsettles
  | build d => exact .nil hsettles
  | buildAs d t => exact .nil hsettles
  | scalar t raw => exact .nil hsettles
  | layout t => exact .nil hsettles
  | storage t => exact .nil hsettles
  | declaration m => exact .nil hsettles

/-- **What calls fill was empty before and is filled once.** -/
theorem filledBy_fillsOf (hs : s.Coherent c known) (calls : List Call)
    (hcalls : ∀ call ∈ calls, ∀ t ∈ call.types, known t) :
    s.FilledBy (fillsOf c calls s) (run c calls s) := by
  induction calls generalizing s with
  | nil => exact .nil (Image.Settles.refl s)
  | cons call calls ih =>
    have hcall := hcalls call List.mem_cons_self
    obtain ⟨-, hs'⟩ := after_coherent hc hs call hcall
    exact (filledBy_fills hc hs call hcall).append
      (ih hs' fun x hx => hcalls x (List.mem_cons_of_mem _ hx))

end

/-- **Builds come to an end**, however objects, arrays, strings and virtual tables refer to one
another, as long as nothing contains itself.

* Layouts and contents are the same for every larger bound on the depth of the recursion, and are
  those of the recursion without a bound.
* Requests, contents and sweeps do not fail for want of depth, and to fill all placeholders is to
  make a sweep to its end. So each of these calls returns a result, or an error, or stops because a
  number is too large for its word; and it returns where words suffice for layouts.
* Calls fill the placeholder of each value once at most, whether they fail or not, so all calls
  together fill no more than there are values; and what the filling of all placeholders returns is
  the number of those that it filled. -/
theorem halts_of_run (hc : c.Declared) (h : c.Acyclic) (name : String) (calls : List Call) :
    let s := run c calls (Image.new c name)
    let log := fillsOf c calls (Image.new c name)
    (∀ depth t, c.typeCount + 1 ≤ depth → Build.layoutWithin c depth t = Build.layoutOf c t) ∧
    (∀ t, Build.layoutOf c t = Build.layoutOnce c (Build.layoutOf c) t) ∧
    (∀ depth d t, Build.depthBound c ≤ depth →
      Build.contentsWithin c depth d t = Build.contentsAs c d t) ∧
    (∀ d t, Build.contentsAs c d t = Build.contentsOnce c (Build.contentsOf c) d t) ∧
    (∀ d, Build.Halts (Build.request c d) ∧ Build.Halts (Build.materialize c d) ∧
      Build.Halts (Build.contentsOf c d)) ∧
    Build.Halts (Build.resolveAll c) ∧
    (c.InRange → (∀ d, Build.Returns (Build.request c d) ∧ Build.Returns (Build.materialize c d) ∧
      Build.Returns (Build.contentsOf c d)) ∧ Build.Returns (Build.resolveAll c)) ∧
    (∃ visited outcome s', Build.Sweeps c (· + 1) 0 s visited outcome s' ∧
      Build.resolveAll c s = Build.sweepResult visited.length outcome s') ∧
    (log.map (·.1)).Nodup ∧ (log.map (·.2)).Nodup ∧ log.length ≤ c.descriptors.length ∧
    ∀ n s', Build.resolveAll c s = .ok n s' →
      (fills c s .resolveAll).length = n ∧ log.length + n ≤ c.descriptors.length := by
  intro s log
  have hrooted := hc.wellDeclared.toRooted
  have hnew : (Image.new c name).Coherent c fun _ => True := Image.coherent_new c _ name
  have hall : ∀ calls : List Call, ∀ call ∈ calls, ∀ t ∈ call.types, True :=
    fun _ _ _ _ _ => trivial
  obtain ⟨-, hs⟩ := run_coherent c.closed_true hnew calls (hall calls)
  have hfilled := filledBy_fillsOf c.closed_true hnew calls (hall calls)
  obtain ⟨hvalues, hglobals⟩ := hfilled.distinct hs
  have hrequest : ∀ d marks, Build.Agrees c marks (Build.request c d) (Build.request c d) :=
    fun d _ => Build.request_agrees h hrooted d
  have hmaterialize : ∀ d marks,
      Build.Agrees c marks (Build.materialize c d) (Build.materialize c d) :=
    fun d _ => Build.materialize_agrees h hrooted d
  have hcontents : ∀ d marks,
      Build.Agrees c marks (Build.contentsOf c d) (Build.contentsOf c d) :=
    fun d _ => Build.contentsOf_agrees h hrooted d
  have hsweep : ∀ marks, Build.Agrees c marks (Build.resolveAll c) (Build.resolveAll c) :=
    fun _ => Build.resolveFrom_agrees h hrooted _ 0 0
  refine ⟨fun depth t hdepth => Build.layoutWithin_eq h hrooted hdepth t,
    fun t => Build.layoutOf_eq h hrooted t,
    fun depth d t hdepth => Build.contentsWithin_eq h hrooted hdepth d t,
    fun d t => Build.contentsAs_eq h hrooted d t,
    fun d => ⟨.of_agrees (hrequest d), .of_agrees (hmaterialize d), .of_agrees (hcontents d)⟩,
    .of_agrees hsweep,
    fun hrange => ⟨fun d => ⟨.of_agrees (hrequest d) hrange, .of_agrees (hmaterialize d) hrange,
      .of_agrees (hcontents d) hrange⟩, .of_agrees hsweep hrange⟩,
    Build.exists_sweeps_resolveAll_eq c.closed_true hs, hvalues, hglobals, hfilled.length_le hs,
    fun n s' hresolve => ?_⟩
  have hcount : n = (fills c s .resolveAll).length := by
    rw [Build.length_resolveLog hresolve, Nat.zero_add]
    rfl
  -- the sweep is one more call, and the log goes on with what it fills
  obtain ⟨-, hs'⟩ := after_coherent c.closed_true hs .resolveAll (List.forall_mem_nil _)
  have hmore := hfilled.append (filledBy_fills c.closed_true hs .resolveAll (List.forall_mem_nil _))
  have hlength := hmore.length_le hs'
  rw [List.length_append, ← hcount] at hlength
  exact ⟨hcount.symm, hlength⟩

/-- A cell in an array refers back to the array. To ask for the array comes to an end, and so does
the sweep after it, which fills two virtual tables. -/
theorem halts_of_run_ring :
    Build.Returns (Build.resolveAll Catalog.ring) ∧
    (∃ g s, Build.request Catalog.ring ⟨5⟩ (Image.new Catalog.ring "Ring") = .ok g s) ∧
    ∃ s', Build.resolveAll Catalog.ring (run Catalog.ring [.request ⟨5⟩]
        (Image.new Catalog.ring "Ring")) = .ok 2 s' ∧
      (fills Catalog.ring (run Catalog.ring [.request ⟨5⟩] (Image.new Catalog.ring "Ring"))
        .resolveAll).length = 2 ∧
      Build.contentsWithin Catalog.ring 1000 ⟨5⟩ ⟨19⟩ = Build.contentsAs Catalog.ring ⟨5⟩ ⟨19⟩ := by
  have hrequest : (Build.request Catalog.ring ⟨5⟩).succeedsWith (Image.new Catalog.ring "Ring")
      (fun _ _ => true) = true := by decide +kernel
  have hresolve : (Build.resolveAll Catalog.ring).succeedsWith
      (run Catalog.ring [.request ⟨5⟩] (Image.new Catalog.ring "Ring"))
      (fun n _ => decide (n = 2)) = true := by decide +kernel
  obtain ⟨g, s, hg, -⟩ := Build.exists_of_succeedsWith hrequest
  obtain ⟨n, s', hs', hn⟩ := Build.exists_of_succeedsWith hresolve
  obtain rfl := of_decide_eq_true hn
  obtain ⟨-, -, hcontents, -, -, -, hreturns, -, -, -, -, hcount⟩ :=
    halts_of_run Catalog.ring_declared Catalog.ring_acyclic "Ring" [.request ⟨5⟩]
  exact ⟨(hreturns Catalog.ring_inRange).2, ⟨g, s, hg⟩, s', hs', (hcount 2 s' hs').1,
    hcontents 1000 ⟨5⟩ ⟨19⟩ (by decide +kernel)⟩

/-- **A call that does not return**: it asks for the value of a type with a field that ends where no
word can point to. -/
theorem not_returns_wide : ¬ ∀ c : Catalog, c.Declared → c.Acyclic →
    ∀ d, Build.Returns (Build.request c d) := by
  intro hall
  have hfails : (Build.request Catalog.wide ⟨4⟩).failsWith (Image.new Catalog.wide "Wide")
      (fun f => match f.cause with | .overflow => true | _ => false) = true := by decide +kernel
  obtain ⟨f, s, hrun, hcause⟩ := Build.exists_of_failsWith hfails
  obtain ⟨-, hreturns⟩ := hall Catalog.wide Catalog.wide_declared Catalog.wide_acyclic ⟨4⟩
  split at hcause
  · rename_i hoverflow
    exact hreturns _ f s hrun hoverflow
  · cases hcause

end Call

end DataImage
