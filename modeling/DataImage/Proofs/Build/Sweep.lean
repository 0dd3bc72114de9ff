import DataImage.Proofs.Build.Calls
import DataImage.Proofs.Build.Order
import DataImage.Proofs.Catalog.Declared

/-!
# Sweeps over the placeholders

The filling of all placeholders goes on behind the position that it has just filled. It could as
well start over at the first value each time: whatever a fill does, no position that was passed
needs a second look. `Build.Sweeps` says what a sweep does from a position on, one fill after the
other, for any rule of where to go on. Two rules that never skip a position that could be empty
make the same sweeps (`Build.Sweeps.congr`), and `Build.resolveFrom` makes the sweep that goes on
behind the filled position, with steps to spare (`Build.Sweeps.resolveFrom_eq`).

`Call.sweep_of_run` puts this together for all images that calls lead to.
-/

namespace DataImage

namespace Build

/-- A sweep over the placeholders that goes on at `next i` once position `i` is filled: the values
whose placeholders it takes up, in this order, what it fails with, if it does, and the image it
leaves. -/
inductive Sweeps (c : Catalog) (next : Nat → Nat) :
    (start : Nat) → Image → List (DescriptorId × GlobalId) → Option Failure → Image → Prop where
  /-- Nothing is left to fill. -/
  | done {start : Nat} {s : Image} (hnext : s.nextPlaceholder? start = none) :
      Sweeps c next start s [] none s
  /-- A placeholder is filled, and the sweep goes on. -/
  | fill {start i : Nat} {d : DescriptorId} {g : GlobalId} {s s₁ s' : Image}
      {visited : List (DescriptorId × GlobalId)} {outcome : Option Failure}
      (hnext : s.nextPlaceholder? start = some (i, d, g)) (hfill : Build.fill c d g s = .ok () s₁)
      (rest : Sweeps c next (next i) s₁ visited outcome s') :
      Sweeps c next start s ((d, g) :: visited) outcome s'
  /-- A placeholder cannot be filled. -/
  | fail {start i : Nat} {d : DescriptorId} {g : GlobalId} {s s' : Image} {f : Failure}
      (hnext : s.nextPlaceholder? start = some (i, d, g))
      (hfill : Build.fill c d g s = .error f s') :
      Sweeps c next start s [(d, g)] (some f) s'

/-- The result of a sweep that made `n` fills. -/
def sweepResult (n : Nat) (outcome : Option Failure) (s : Image) :
    EStateM.Result Failure Image Nat :=
  match outcome with
  | none => .ok n s
  | some f => .error f s

variable {c : Catalog} {known : TypeId → Prop} {s s' : Image}

/-! ## Where the search starts -/

theorem nextPlaceholder?_of_length_le {start : Nat} (h : s.entries.length ≤ start) :
    s.nextPlaceholder? start = none := by
  have hlen : s.entries.zipIdx.length ≤ start := by simpa using h
  rw [Image.nextPlaceholder?, List.drop_eq_nil_of_le hlen, List.findSome?_nil]

/-- Positions with contents can be left out of the search. -/
theorem nextPlaceholder?_zero (hs : s.Coherent c known) {start : Nat} (h : s.FilledBelow start) :
    s.nextPlaceholder? 0 = s.nextPlaceholder? start := by
  unfold Image.nextPlaceholder?
  rw [List.drop_zero]
  conv_lhs => rw [← List.take_append_drop start s.entries.zipIdx]
  rw [List.findSome?_append, Option.or_eq_right_of_none]
  rw [List.findSome?_eq_none_iff]
  rintro ⟨⟨d, g⟩, j⟩ hmem
  obtain ⟨q, hq⟩ := List.mem_iff_getElem?.1 hmem
  rw [List.getElem?_take] at hq
  split at hq
  · rename_i hlt
    rw [List.getElem?_zipIdx, Option.map_eq_some_iff] at hq
    obtain ⟨e, he, heq⟩ := hq
    obtain ⟨rfl, rfl⟩ := Prod.mk.inj heq
    have hfilled := (hs.isFilled_iff (List.mem_of_getElem? he)).1 (h q d g hlt he)
    simp [hs.resolve (List.mem_of_getElem? he), hfilled]
  · cases hq

/-- The search finds the same from any two positions with nothing empty before them. -/
theorem nextPlaceholder?_congr (hs : s.Coherent c known) {start start' : Nat}
    (h : s.FilledBelow start) (h' : s.FilledBelow start') :
    s.nextPlaceholder? start = s.nextPlaceholder? start' :=
  (nextPlaceholder?_zero hs h).symm.trans (nextPlaceholder?_zero hs h')

/-! ## Steps of a sweep -/

variable (hc : c.Closed known)

include hc

/-- What a fill in a sweep does: the placeholder has its contents then, and so has everything before
it. -/
theorem coherent_of_fill (hs : s.Coherent c known) {start i : Nat} {d : DescriptorId}
    {g : GlobalId} (hnext : s.nextPlaceholder? start = some (i, d, g)) {s₁ : Image}
    (hfill : fill c d g s = .ok () s₁) :
    s.Settles s₁ ∧ s₁.Coherent c known ∧ s₁.IsFilled g ∧ ¬ s.IsFilled g ∧
      (s.FilledBelow start → s₁.FilledBelow (i + 1)) := by
  obtain ⟨-, hentry, hempty, -⟩ := nextPlaceholder?_eq_some hs hnext
  have hmem := List.mem_of_getElem? hentry
  obtain ⟨hsettles, hs₁, hfilled, -⟩ := (fill_advances hc hs hmem hempty).of_ok hfill
  refine ⟨hsettles, hs₁, hfilled, fun h => ?_, fun h => ?_⟩
  · rw [hs.isFilled_iff hmem, hempty] at h
    cases h
  · exact filledBelow_succ hs h hnext hsettles hfilled

namespace Sweeps

variable {next next' : Nat → Nat} {start : Nat} {visited : List (DescriptorId × GlobalId)}
  {outcome : Option Failure}

/-- **Sweeps do not depend on where they go on**, as long as they do not go on behind the position
after the filled one. -/
theorem congr (hnext : ∀ i, next i ≤ i + 1) (hnext' : ∀ i, next' i ≤ i + 1)
    (h : Sweeps c next start s visited outcome s') (hs : s.Coherent c known)
    (hbelow : s.FilledBelow start) {start' : Nat} (hbelow' : s.FilledBelow start') :
    Sweeps c next' start' s visited outcome s' := by
  induction h generalizing start' with
  | done hnone => exact .done ((nextPlaceholder?_congr hs hbelow hbelow').symm.trans hnone)
  | @fill start i d g s s₁ s' visited outcome hsome hfill rest ih =>
    have hsame := nextPlaceholder?_congr hs hbelow hbelow'
    obtain ⟨-, hs₁, -, -, hstep⟩ := coherent_of_fill hc hs hsome hfill
    have hbelow₁ := hstep hbelow
    refine .fill (hsame.symm.trans hsome) hfill ?_
    exact ih hs₁ (hbelow₁.mono (hnext i)) (hbelow₁.mono (hnext' i))
  | fail hsome hfill =>
    exact .fail ((nextPlaceholder?_congr hs hbelow hbelow').symm.trans hsome) hfill

/-- A sweep fills placeholders only, and none of them twice. -/
theorem nodup (h : Sweeps c next start s visited outcome s') (hs : s.Coherent c known) :
    (visited.map (·.2)).Nodup ∧ ∀ e ∈ visited, ¬ s.IsFilled e.2 := by
  induction h with
  | done => exact ⟨List.nodup_nil, List.forall_mem_nil _⟩
  | @fill start i d g s s₁ s' visited outcome hsome hfill rest ih =>
    obtain ⟨hsettles, hs₁, hfilled, hempty, -⟩ := coherent_of_fill hc hs hsome hfill
    obtain ⟨hnodup, hempty₁⟩ := ih hs₁
    constructor
    · rw [List.map_cons, List.nodup_cons]
      refine ⟨fun hmem => ?_, hnodup⟩
      obtain ⟨e, he, heq⟩ := List.mem_map.1 hmem
      exact hempty₁ e he (heq ▸ hfilled)
    · refine List.forall_mem_cons.2 ⟨hempty, fun e he h => ?_⟩
      exact hempty₁ e he (hsettles.isFilled h)
  | @fail start i d g s s' f hsome hfill =>
    obtain ⟨-, hentry, hempty, -⟩ := nextPlaceholder?_eq_some hs hsome
    refine ⟨List.nodup_singleton _, fun e he h => ?_⟩
    obtain rfl := List.mem_singleton.1 he
    have hfull := (hs.isFilled_iff (List.mem_of_getElem? hentry)).1 h
    rw [hempty] at hfull
    cases hfull

/-! ## The filling of all placeholders -/

/-- There is a sweep from every position that has few enough positions behind it. -/
theorem exists_of_length_le (hs : s.Coherent c known) (steps : Nat)
    (hsteps : c.descriptors.length ≤ steps + start) :
    ∃ visited outcome s', Sweeps c (· + 1) start s visited outcome s' := by
  induction steps generalizing s start with
  | zero =>
    have hlen := hs.length_entries_le
    exact ⟨[], none, s, .done (nextPlaceholder?_of_length_le (by omega))⟩
  | succ steps ih =>
    cases hnext : s.nextPlaceholder? start with
    | none => exact ⟨[], none, s, .done hnext⟩
    | some found =>
      obtain ⟨i, d, g⟩ := found
      obtain ⟨hle, -, -, -⟩ := nextPlaceholder?_eq_some hs hnext
      cases hfill : Build.fill c d g s with
      | error f s' => exact ⟨[(d, g)], some f, s', .fail hnext hfill⟩
      | ok u s₁ =>
        obtain ⟨-, hs₁, -⟩ := coherent_of_fill hc hs hnext hfill
        have hsteps' : c.descriptors.length ≤ steps + (i + 1) := by omega
        obtain ⟨visited, outcome, s', hrest⟩ := ih hs₁ hsteps'
        exact ⟨(d, g) :: visited, outcome, s', .fill hnext hfill hrest⟩

/-- **The filling of placeholders makes the sweep** that goes on behind each filled position, and
counts the fills. -/
theorem resolveFrom_eq (h : Sweeps c (· + 1) start s visited outcome s') (hs : s.Coherent c known)
    {steps : Nat} (filled : Nat) (hsteps : c.descriptors.length ≤ steps + start) :
    resolveFrom c steps start filled s = sweepResult (filled + visited.length) outcome s' := by
  -- a placeholder is at one of the positions that there are values, so a step is left for it
  have left : ∀ {start steps i : Nat} {d : DescriptorId} {g : GlobalId} {s : Image},
      s.Coherent c known → c.descriptors.length ≤ steps + start →
      s.nextPlaceholder? start = some (i, d, g) →
      ∃ k, steps = k + 1 ∧ c.descriptors.length ≤ k + (i + 1) := by
    intro start steps i d g s hs hsteps hnext
    obtain ⟨hle, hentry, -⟩ := nextPlaceholder?_eq_some hs hnext
    have hlt := (List.getElem?_eq_some_iff.1 hentry).1
    have hlen := hs.length_entries_le
    exact ⟨steps - 1, by omega, by omega⟩
  induction h generalizing steps filled with
  | done hnone =>
    cases steps with
    | zero => rfl
    | succ steps =>
      rw [resolveFrom, run_bind (run_get _), hnone]
      rfl
  | fill hsome hfill rest ih =>
    obtain ⟨-, hs₁, -⟩ := coherent_of_fill hc hs hsome hfill
    obtain ⟨k, rfl, hk⟩ := left hs hsteps hsome
    rw [resolveFrom, run_bind (run_get _), hsome]
    dsimp only
    rw [run_bind hfill, ih hs₁ (filled + 1) hk, List.length_cons, Nat.add_right_comm,
      Nat.add_assoc]
  | fail hsome hfill =>
    obtain ⟨k, rfl, -⟩ := left hs hsteps hsome
    rw [resolveFrom, run_bind (run_get _), hsome]
    exact run_bind_error hfill _

theorem resolveAll_eq (h : Sweeps c (· + 1) 0 s visited outcome s') (hs : s.Coherent c known) :
    resolveAll c s = sweepResult visited.length outcome s' := by
  rw [resolveAll, h.resolveFrom_eq hc hs 0 (Nat.le_succ _), Nat.zero_add]

end Sweeps

/-- Every filling of all placeholders makes a sweep. -/
theorem exists_sweeps_resolveAll_eq (hs : s.Coherent c known) :
    ∃ visited outcome s', Sweeps c (· + 1) 0 s visited outcome s' ∧
      resolveAll c s = sweepResult visited.length outcome s' := by
  have hsteps : c.descriptors.length ≤ c.descriptors.length + 0 := Nat.le_refl _
  obtain ⟨visited, outcome, s', hsweep⟩ := Sweeps.exists_of_length_le hc hs _ hsteps
  exact ⟨visited, outcome, s', hsweep, hsweep.resolveAll_eq hc hs⟩

theorem resolveAll_eq_ok_iff (hs : s.Coherent c known) {n : Nat} :
    resolveAll c s = .ok n s' ↔
      ∃ visited, Sweeps c (· + 1) 0 s visited none s' ∧ visited.length = n := by
  constructor
  · intro h
    obtain ⟨visited, outcome, s'', hsweep, heq⟩ := exists_sweeps_resolveAll_eq hc hs
    rw [h] at heq
    cases outcome with
    | some f => cases heq
    | none =>
      obtain ⟨rfl, rfl⟩ := EStateM.Result.ok.inj heq
      exact ⟨visited, hsweep, rfl⟩
  · rintro ⟨visited, hsweep, rfl⟩
    exact hsweep.resolveAll_eq hc hs

theorem resolveAll_eq_error_iff (hs : s.Coherent c known) {f : Failure} :
    resolveAll c s = .error f s' ↔ ∃ visited, Sweeps c (· + 1) 0 s visited (some f) s' := by
  constructor
  · intro h
    obtain ⟨visited, outcome, s'', hsweep, heq⟩ := exists_sweeps_resolveAll_eq hc hs
    rw [h] at heq
    cases outcome with
    | none => cases heq
    | some f' =>
      obtain ⟨rfl, rfl⟩ := EStateM.Result.error.inj heq
      exact ⟨visited, hsweep⟩
  · rintro ⟨visited, hsweep⟩
    exact hsweep.resolveAll_eq hc hs

end Build

/-! ## After the last fill -/

namespace Image

variable {c : Catalog} {known : TypeId → Prop} {s : Image}

/-- An image in which every registered value has its contents has no placeholder left. -/
theorem Coherent.pending_eq_zero (hs : s.Coherent c known)
    (h : ∀ d g, (d, g) ∈ s.entries → s.IsFilled g) : s.pending = 0 := by
  rw [pending, List.countP_eq_zero]
  rintro ⟨d, g⟩ hmem
  simp [hs.resolve hmem, (hs.isFilled_iff hmem).1 (h d g hmem)]

theorem Coherent.nextPlaceholder?_eq_none (hs : s.Coherent c known)
    (h : ∀ d g, (d, g) ∈ s.entries → s.IsFilled g) : s.nextPlaceholder? 0 = none := by
  have hbelow : s.FilledBelow s.entries.length :=
    fun j d g _ hj => h d g (List.mem_of_getElem? hj)
  rw [Build.nextPlaceholder?_zero hs hbelow]
  exact Build.nextPlaceholder?_of_length_le (Nat.le_refl _)

end Image

namespace Call

/-- **The sweep can start over after every fill.** In every image that calls lead to, the sweep that
starts over at the first value takes up the same placeholders in the same order as the one that goes
on behind the filled position, with the same image and the same failure in the end; and filling all
placeholders comes to the end of this sweep and counts the placeholders that were filled. If that
succeeds, no placeholder is pending and every live global has its contents, and to fill all
placeholders again fills none and changes nothing. -/
theorem sweep_of_run (c : Catalog) (name : String) (calls : List Call) :
    let s := run c calls (Image.new c name)
    (∀ visited outcome s', Build.Sweeps c (fun _ => 0) 0 s visited outcome s' ↔
      Build.Sweeps c (· + 1) 0 s visited outcome s') ∧
    (∀ n s', Build.resolveAll c s = .ok n s' ↔
      ∃ visited, Build.Sweeps c (fun _ => 0) 0 s visited none s' ∧
        (visited.map (·.2)).Nodup ∧ visited.length = n) ∧
    (∀ f s', Build.resolveAll c s = .error f s' ↔
      ∃ visited, Build.Sweeps c (fun _ => 0) 0 s visited (some f) s') ∧
    ∀ n s', Build.resolveAll c s = .ok n s' → s'.pending = 0 ∧
      (∀ x ∈ s'.module.live, x.2.initializer.isSome = true) ∧
      Build.resolveAll c s' = .ok 0 s' := by
  intro s
  obtain ⟨-, hs⟩ := run_coherent c.closed_true (Image.coherent_new c _ name) calls
    fun _ _ _ _ => trivial
  have same : ∀ visited outcome s', Build.Sweeps c (fun _ => 0) 0 s visited outcome s' ↔
      Build.Sweeps c (· + 1) 0 s visited outcome s' := by
    intro visited outcome s'
    have hzero : ∀ i : Nat, 0 ≤ i + 1 := fun i => Nat.zero_le _
    have hsucc : ∀ i : Nat, i + 1 ≤ i + 1 := fun i => Nat.le_refl _
    exact ⟨fun h => h.congr c.closed_true hzero hsucc hs (.zero s) (.zero s),
      fun h => h.congr c.closed_true hsucc hzero hs (.zero s) (.zero s)⟩
  refine ⟨same, fun n s' => ?_, fun f s' => ?_, fun n s' h => ?_⟩
  · rw [Build.resolveAll_eq_ok_iff c.closed_true hs]
    refine exists_congr fun visited => ?_
    rw [same]
    refine and_congr_right fun hsweep => ?_
    rw [and_iff_right (hsweep.nodup c.closed_true hs).1]
  · rw [Build.resolveAll_eq_error_iff c.closed_true hs]
    exact exists_congr fun visited => (same visited (some f) s').symm
  · obtain ⟨-, hs', hfilled, -⟩ := (Build.resolveAll_advances c.closed_true hs).of_ok h
    refine ⟨hs'.pending_eq_zero hfilled, fun x hx => hs'.isSome_of_mem_live hfilled hx, ?_⟩
    have hnone := hs'.nextPlaceholder?_eq_none hfilled
    exact (Build.resolveAll_eq_ok_iff c.closed_true hs').2 ⟨[], .done hnone, rfl⟩

/-- Of two nodes that refer to each other one is asked for. A sweep that starts over fills both, and
their virtual tables on the way. -/
theorem sweep_of_run_pair : ∃ n s' visited,
    Build.resolveAll Catalog.pair (run Catalog.pair [.request ⟨5⟩]
      (Image.new Catalog.pair "Pair")) = .ok n s' ∧ 2 ≤ n ∧
    Build.Sweeps Catalog.pair (fun _ => 0) 0 (run Catalog.pair [.request ⟨5⟩]
      (Image.new Catalog.pair "Pair")) visited none s' ∧ visited.length = n := by
  have hrun : (Build.resolveAll Catalog.pair).succeedsWith
      (run Catalog.pair [.request ⟨5⟩] (Image.new Catalog.pair "Pair"))
      (fun n _ => decide (2 ≤ n)) = true := by decide +kernel
  obtain ⟨n, s', h, hn⟩ := Build.exists_of_succeedsWith hrun
  obtain ⟨-, hok, -⟩ := sweep_of_run Catalog.pair "Pair" [.request ⟨5⟩]
  obtain ⟨visited, hsweep, -, hlen⟩ := (hok n s').1 h
  exact ⟨n, s', visited, h, of_decide_eq_true hn, hsweep, hlen⟩

end Call

end DataImage
