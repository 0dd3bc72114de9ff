import DataImage.Proofs.Build.Resolve
import DataImage.Proofs.Catalog.Acyclic
import Mathlib.Data.Finset.Card

/-!
# Recursion that comes to an end

Layouts ask for layouts and contents for contents, to a depth that is bounded from outside. Where a
catalog is acyclic (`Catalog.Acyclic`) the bounds are never reached: more depth gives the same
(`Build.layoutWithin_eq`, `Build.contentsWithin_eq`), so layouts and contents satisfy the equations
of the recursion without a bound (`Build.layoutOf_eq`, `Build.contentsAs_eq`), and nothing ends in
`Violation.endless` (`Build.Halts`). What is left besides results and errors is that a number is too
large for its word, which does not happen where words suffice for layouts (`Build.Returns`).

The types on the way to a layout are different from one another. On the way to contents there are
two kinds of steps. A value that is put in place is none of the values that it is inside of. An
array or a string that is built on request is not marked as being built yet, and is marked while its
contents are built. So either fewer values are unmarked than before, or as many, and the way from
the last marked value is longer.
-/

namespace DataImage

namespace Catalog

variable {c : Catalog}

/-- The positions of all values. -/
def positions (c : Catalog) : List DescriptorId :=
  (List.range c.descriptors.length).map DescriptorId.mk

theorem length_positions : c.positions.length = c.descriptors.length := by
  simp [positions]

theorem mem_positions {d : DescriptorId} {v : Descriptor} (h : c.descriptor? d = some v) :
    d ∈ c.positions :=
  List.mem_map.2 ⟨d.index, List.mem_range.2 (List.getElem?_eq_some_iff.1 h).1, rfl⟩

/-- How many values are not marked. -/
def unmarked (c : Catalog) (marks : List DescriptorId) : Nat :=
  (c.positions.toFinset \ marks.toFinset).card

theorem unmarked_le (marks : List DescriptorId) : c.unmarked marks ≤ c.descriptors.length := by
  rw [← length_positions]
  exact (Finset.card_le_card Finset.sdiff_subset).trans (List.toFinset_card_le _)

/-- One more mark leaves one value less without a mark. -/
theorem unmarked_cons {marks : List DescriptorId} {d : DescriptorId} (hd : d ∈ c.positions)
    (hmarks : d ∉ marks) : c.unmarked (d :: marks) + 1 = c.unmarked marks := by
  rw [unmarked, unmarked, List.toFinset_cons, Finset.sdiff_insert]
  refine Finset.card_erase_add_one (Finset.mem_sdiff.2 ⟨List.mem_toFinset.2 hd, ?_⟩)
  rwa [List.mem_toFinset]

/-- What the fields of an object laid out as a type or the elements of an array hold. -/
def payloadsAs (c : Catalog) : Descriptor → TypeId → List Payload
  | .object o, t => o.payloads (c.instanceParts t)
  | .array a, _ => a.values.getD []

/-- The causes that a step may fail for: no endless containment, and a number that is too large only
if words do not suffice for the layouts of the catalog. -/
def MayFail (c : Catalog) : Cause → Prop
  | .violation .endless => False
  | .overflow => ¬ c.InRange
  | _ => True

theorem mayFail_violation {v : Violation} (hv : v ≠ .endless) : c.MayFail (.violation v) := by
  cases v
  case endless => exact absurd rfl hv
  all_goals trivial

theorem MayFail.ne_endless {cause : Cause} (h : c.MayFail cause) :
    cause ≠ .violation .endless := by
  rintro rfl
  exact h

theorem MayFail.ne_overflow {cause : Cause} (h : c.MayFail cause) (hrange : c.InRange) :
    cause ≠ .overflow := by
  rintro rfl
  exact h hrange

theorem payloadsAs_context (v : Descriptor) : c.payloadsAs v v.context = c.payloads v := by
  cases v <;> rfl

end Catalog

namespace Build

variable {α β : Type} {c : Catalog} {marks : List DescriptorId}

/-! ## Steps that do the same -/

/-- Whether a step has come to an end: with the given marks, or with a failure that may be. -/
def Terminates (c : Catalog) (marks : List DescriptorId) : EStateM.Result Failure Image α → Prop
  | .ok _ s => s.building = marks
  | .error f _ => c.MayFail f.cause

/-- Two steps do the same at every image with the given marks, and come to an end. -/
def Agrees (c : Catalog) (marks : List DescriptorId) (x y : Build α) : Prop :=
  ∀ s : Image, s.building = marks → y s = x s ∧ Terminates c marks (x s)

namespace Agrees

protected theorem pure (a : α) : Agrees c marks (pure a) (pure a) := fun _ hs => ⟨rfl, hs⟩

theorem throw {f : Failure} (hf : c.MayFail f.cause) :
    Agrees c marks (throw f : Build α) (throw f) := fun _ _ => ⟨rfl, hf⟩

theorem violate {v : Violation} (hv : v ≠ .endless) :
    Agrees c marks (Build.violate v : Build α) (Build.violate v) :=
  throw (Catalog.mayFail_violation hv)

/-- A number is too large. -/
theorem overflow (hrange : ¬ c.InRange) :
    Agrees c marks (Build.overflow : Build α) Build.overflow :=
  throw hrange

/-- Nothing follows a failure. -/
theorem throw_bind {e : Failure} (he : c.MayFail e.cause) (f g : α → Build β) :
    Agrees c marks (MonadExcept.throw e >>= f) (MonadExcept.throw e >>= g) := fun _ _ => ⟨rfl, he⟩

theorem violate_bind {v : Violation} (hv : v ≠ .endless) (f g : α → Build β) :
    Agrees c marks (Build.violate v >>= f) (Build.violate v >>= g) :=
  throw_bind (Catalog.mayFail_violation hv) f g

protected theorem bind {x y : Build α} {f g : α → Build β} (hx : Agrees c marks x y)
    (hf : ∀ a, Agrees c marks (f a) (g a)) : Agrees c marks (x >>= f) (y >>= g) := by
  intro s hs
  obtain ⟨heq, hends⟩ := hx s hs
  cases hrun : x s with
  | ok a s₁ =>
    rw [hrun] at heq hends
    rw [run_bind heq, run_bind hrun]
    exact hf a s₁ hends
  | error e s₁ =>
    rw [hrun] at heq hends
    rw [run_bind_error heq, run_bind_error hrun]
    exact ⟨rfl, hends⟩

/-- Two steps and then the same. -/
theorem then_pure {x y : Build α} (hx : Agrees c marks x y) (f : α → β) :
    Agrees c marks (x >>= fun a => pure (f a)) (y >>= fun a => pure (f a)) :=
  hx.bind fun a => Agrees.pure (f a)

theorem get_bind {f g : Image → Build β}
    (hf : ∀ s, s.building = marks → Agrees c marks (f s) (g s)) :
    Agrees c marks (get >>= f) (get >>= g) :=
  fun s hs => hf s hs s hs

theorem onModule (f : Module → α × Module) :
    Agrees c marks (Build.onModule f) (Build.onModule f) :=
  fun _ hs => ⟨rfl, hs⟩

theorem modify {f : Image → Image} (hf : ∀ s, (f s).building = s.building) :
    Agrees c marks (modify f : Build Unit) (modify f) :=
  fun s hs => ⟨rfl, (hf s).trans hs⟩

theorem modifyModule (f : Module → Module) :
    Agrees c marks (Build.modifyModule f) (Build.modifyModule f) :=
  modify fun _ => rfl

theorem descriptor_bind {d : DescriptorId} {f g : Descriptor → Build β}
    (hf : ∀ v, c.descriptor? d = some v → Agrees c marks (f v) (g v)) :
    Agrees c marks (Build.descriptor c d >>= f) (Build.descriptor c d >>= g) := by
  rw [Build.descriptor]
  cases hv : c.descriptor? d with
  | none => exact violate_bind (v := .unknownDescriptor d) (fun h => by cases h) f g
  | some v => exact hf v hv

theorem mapM {f g : α → Build β} {l : List α} (hf : ∀ a ∈ l, Agrees c marks (f a) (g a)) :
    Agrees c marks (l.mapM f) (l.mapM g) := by
  induction l with
  | nil => exact Agrees.pure []
  | cons a l ih =>
    rw [List.mapM_cons, List.mapM_cons]
    exact (hf a List.mem_cons_self).bind fun _ =>
      (ih fun b hb => hf b (List.mem_cons_of_mem _ hb)).then_pure _

theorem within {x y : Build α} (hx : Agrees c marks x y) (d : DescriptorId) :
    Agrees c marks (Build.within d x) (Build.within d y) := by
  intro s hs
  obtain ⟨heq, hends⟩ := hx s hs
  simp only [Build.within, heq, true_and]
  cases hrun : x s with
  | ok a s₁ =>
    rw [hrun] at hends
    exact hends
  | error f s₁ =>
    rw [hrun] at hends
    exact hends

theorem whileBuilding {d : DescriptorId} (hd : d ∉ marks) {x y : Build α}
    (hx : Agrees c (d :: marks) x y) :
    Agrees c marks (Build.whileBuilding d x) (Build.whileBuilding d y) := by
  intro s hs
  obtain ⟨heq, hends⟩ := hx { s with building := d :: s.building } (congrArg _ hs)
  simp only [Build.whileBuilding, heq, true_and]
  cases hrun : x { s with building := d :: s.building } with
  | ok a s₁ =>
    rw [hrun] at hends
    -- the mark was not there before, so that taking it off leaves the marks from before
    have hmarks : s₁.building = d :: marks := hends
    change s₁.building.filter (· ≠ d) = marks
    rw [hmarks, List.filter_cons_of_neg (by simp), List.filter_eq_self]
    intro e he
    rw [decide_eq_true_iff]
    rintro rfl
    exact hd he
  | error f s₁ =>
    rw [hrun] at hends
    exact hends

end Agrees

/-! ## Layouts -/

theorem bitWidth_agrees {t : TypeId} (ht : (c.typeDef t).isScalar = true) :
    Agrees c marks (bitWidth c t) (bitWidth c t) := by
  rw [bitWidth_eq]
  split
  · exact Agrees.pure _
  · rename_i hwidth
    exact Agrees.overflow fun hrange => hwidth (hrange.widths t ht)

section

variable {layout layout' : TypeId → Build StructId}

theorem storageWith_agrees {t : TypeId}
    (h : ∀ u ∈ (c.shapeOf t).layouts, Agrees c marks (layout u) (layout' u)) :
    Agrees c marks (storageWith c layout t) (storageWith c layout' t) := by
  unfold storageWith
  unfold Catalog.shapeOf at h
  split
  · exact Agrees.pure _
  · rename_i hheld
    rw [if_neg hheld] at h
    exact (h t List.mem_cons_self).then_pure _

theorem partStorages_agrees {t : TypeId} {parts : List Part}
    (hparts : ∀ offset, .overflow offset ∈ parts → ¬ c.InRange)
    (h : ∀ u ∈ parts.flatMap c.partOpens, Agrees c marks (layout u) (layout' u)) :
    Agrees c marks (parts.mapM (partStorage c layout t))
      (parts.mapM (partStorage c layout' t)) := by
  refine Agrees.mapM fun part hpart => ?_
  have hopens : ∀ u ∈ c.partOpens part, Agrees c marks (layout u) (layout' u) :=
    fun u hu => h u (List.mem_flatMap.2 ⟨part, hpart, hu⟩)
  cases part with
  | padding => exact storageWith_agrees hopens
  | field f => exact storageWith_agrees hopens
  | zeroSized offset => exact Agrees.violate nofun
  | overflow offset => exact Agrees.overflow (hparts offset hpart)

/-- The fields of a struct depend on the layouts that the type asks for. -/
theorem layoutFields_agrees (hc : c.Rooted) {t : TypeId}
    (h : ∀ u ∈ c.opens t, Agrees c marks (layout u) (layout' u)) :
    Agrees c marks (layoutFields c layout t) (layoutFields c layout' t) := by
  unfold layoutFields
  unfold Catalog.opens at h
  dsimp only
  cases hkind : (c.typeDef t).kind with
  | scalar signed => exact (bitWidth_agrees (by rw [TypeDef.isScalar, hkind])).then_pure _
  | valueType =>
    rw [hkind] at h
    exact partStorages_agrees (fun _ hmem hrange => hrange.notMem_of_valueType hc hkind hmem) h
  | reference =>
    rw [hkind] at h
    dsimp only at h ⊢
    split
    · rename_i hobject
      rw [if_pos hobject] at h
      exact (h _ List.mem_cons_self).then_pure _
    · rename_i hobject
      rw [if_neg hobject] at h
      cases hbase : (c.typeDef t).base with
      | none => exact Agrees.violate (fun heq => by cases heq)
      | some base =>
        rw [hbase] at h
        refine (h base List.mem_cons_self).bind fun inherited => ?_
        have hown : ∀ offset, .overflow offset ∈ c.region t (c.typeDef base).size →
            ¬ c.InRange := fun _ hmem hrange =>
          hrange.notMem_of_wraps ⟨hkind, hobject, hbase⟩ hmem
        exact (partStorages_agrees hown fun u hu => h u (List.mem_cons_of_mem _ hu)).then_pure _
  | array element =>
    rw [hkind] at h
    refine (h _ List.mem_cons_self).bind fun inherited => ?_
    exact (storageWith_agrees fun u hu => h u (List.mem_cons_of_mem _ hu)).then_pure _

end

section

variable (h : c.Acyclic) (hc : c.Rooted)

include h hc

/-- Enough depth is left when the types that were passed are not asked for again. -/
theorem layoutWithin_agrees {depth depth' : Nat} {path : List TypeId} {t : TypeId}
    (htrail : Trail (fun t u => u ∈ c.opens t) c.knownTypes path t)
    (hdepth : c.typeCount + 1 ≤ depth + path.length)
    (hdepth' : c.typeCount + 1 ≤ depth' + path.length) :
    Agrees c marks (layoutWithin c depth t) (layoutWithin c depth' t) := by
  have hlength := htrail.length_le
  rw [Catalog.length_knownTypes] at hlength
  induction depth generalizing depth' path t with
  | zero => omega
  | succ depth ih =>
    obtain _ | depth' := depth'
    · omega
    rw [layoutWithin, layoutWithin]
    refine Agrees.get_bind fun s _ => ?_
    cases s.layouts.lookup t with
    | some id => exact Agrees.pure id
    | none =>
      refine (layoutFields_agrees hc fun u hu => ?_).bind fun fields => ?_
      · have hknown := Catalog.mem_knownTypes_of_mem_opens hu
        have htrail' := htrail.cons (h.not_opens_self hc) hknown hu
        have hlength' := htrail'.length_le
        rw [Catalog.length_knownTypes] at hlength'
        rw [← Nat.succ_eq_add_one, Nat.succ_add_eq_add_succ] at hdepth hdepth'
        exact ih htrail' hdepth hdepth' hlength'
      · refine (Agrees.onModule _).bind fun id => ?_
        refine Agrees.bind (Agrees.modify ?_) fun _ => Agrees.pure id
        exact fun _ => rfl

theorem layoutOf_agrees (t : TypeId) : Agrees c marks (layoutOf c t) (layoutOf c t) :=
  layoutWithin_agrees h hc (.nil _ _ t) (Nat.le_refl _) (Nat.le_refl _)

theorem storageOf_agrees (t : TypeId) : Agrees c marks (storageOf c t) (storageOf c t) :=
  storageWith_agrees fun u _ => layoutOf_agrees h hc u

theorem declarationOf_agrees (m : MethodId) :
    Agrees c marks (declarationOf c m) (declarationOf c m) := by
  rw [declarationOf]
  refine Agrees.get_bind fun s _ => ?_
  cases s.declarations.lookup m with
  | some id => exact Agrees.pure id
  | none =>
    refine (Agrees.mapM fun t _ => storageOf_agrees h hc t).bind fun params => ?_
    have hresult : Agrees c marks ((c.method m).result.mapM (storageOf c))
        ((c.method m).result.mapM (storageOf c)) := by
      cases (c.method m).result with
      | none => exact Agrees.pure none
      | some t =>
        rw [Option.mapM_some, map_eq_pure_bind]
        exact (storageOf_agrees h hc t).then_pure _
    refine hresult.bind fun result => (Agrees.onModule _).bind fun id => ?_
    refine Agrees.bind (Agrees.modify ?_) fun _ => Agrees.pure id
    exact fun _ => rfl

end

/-! ## References -/

theorem register_agrees (d : DescriptorId) (g : GlobalId) :
    Agrees c marks (register c d g) (register c d g) := by
  rw [register]
  refine Agrees.get_bind fun s _ => ?_
  cases s.global? d with
  | some registered => exact (Agrees.modifyModule _).then_pure _
  | none =>
    refine Agrees.bind (Agrees.modify ?_) fun _ => ?_
    · exact fun _ => rfl
    · split
      · exact (Agrees.modifyModule _).then_pure _
      · exact Agrees.pure g

section

variable (h : c.Acyclic) (hc : c.Rooted) {contents contents' : DescriptorId → Build Constant}

include h hc

/-- Contents are asked for only when the value is not marked as being built. -/
theorem requestWith_agrees {d : DescriptorId}
    (hcontents : ∀ v, c.descriptor? d = some v → d ∉ marks →
      Agrees c (d :: marks) (contents d) (contents' d)) :
    Agrees c marks (requestWith c contents d) (requestWith c contents' d) := by
  rw [requestWith, requestWith]
  refine Agrees.get_bind fun s hs => ?_
  cases s.global? d with
  | some g => exact Agrees.pure _
  | none =>
    refine Agrees.descriptor_bind fun v hv => ?_
    dsimp only
    split
    · exact Agrees.throw_bind (by trivial) _ _
    · split
      · rename_i htakes
        rw [Bool.and_eq_true, Bool.not_eq_true', List.contains_eq_mem, decide_eq_false_iff_not,
          hs] at htakes
        refine ((hcontents v hv htakes.2).whileBuilding htakes.2).bind fun built => ?_
        exact (Agrees.onModule _).bind fun g => register_agrees d g
      · exact (layoutOf_agrees h hc _).bind fun layout =>
          (Agrees.onModule _).bind fun g => register_agrees d g

/-! ## Integers and code -/

/-- Zero can be put anywhere, other integers only where the type is one. -/
theorem scalar_agrees {t : TypeId} {raw : UInt64} (ht : raw = 0 ∨ (c.typeDef t).isScalar = true) :
    Agrees c marks (scalar c t raw) (scalar c t raw) := by
  unfold scalar
  dsimp only
  split
  · exact Agrees.violate_bind (by nofun) _ _
  · split
    · exact (storageOf_agrees h hc t).then_pure _
    · rename_i hraw
      exact (bitWidth_agrees (ht.resolve_left hraw)).bind fun bits =>
        (layoutOf_agrees h hc t).then_pure _

theorem codeContents_agrees (t : TypeId) (place : Place) (p : CodePointerId) :
    Agrees c marks (codeContents c t place p) (codeContents c t place p) := by
  unfold codeContents
  split
  · exact Agrees.violate nofun
  · exact (declarationOf_agrees h hc _).bind fun function => (layoutOf_agrees h hc t).then_pure _
  · exact Agrees.throw trivial

end

/-! ## Contents -/

/-- Two ways to build contents do the same for the values that are put in place of payloads. -/
def AgreesInside (c : Catalog) (marks : List DescriptorId) (payloads : List Payload)
    (contents contents' : DescriptorId → Build Constant) : Prop :=
  ∀ e w, .descriptor e ∈ payloads → c.descriptor? e = some w → w.isNested = true →
    Agrees c marks (contents e) (contents' e)

theorem AgreesInside.mono {payloads some : List Payload}
    {contents contents' : DescriptorId → Build Constant}
    (h : AgreesInside c marks payloads contents contents') (hsub : some ⊆ payloads) :
    AgreesInside c marks some contents contents' :=
  fun e w he => h e w (hsub he)

section

variable (h : c.Acyclic) (hc : c.Rooted) {contents contents' : DescriptorId → Build Constant}
  (hrequests : ∀ d, Agrees c marks (requestWith c contents d) (requestWith c contents' d))

include h hc hrequests

theorem payloadContents_agrees (t : TypeId) (place : Place) {payload : Payload}
    (hinside : AgreesInside c marks [payload] contents contents') :
    Agrees c marks (payloadContents c contents t place payload)
      (payloadContents c contents' t place payload) := by
  unfold payloadContents
  cases payload with
  | null => exact scalar_agrees h hc (Or.inl rfl)
  | scalar raw =>
    dsimp only
    split
    · rename_i hscalar
      exact scalar_agrees h hc (Or.inr hscalar)
    · exact Agrees.throw trivial
  | descriptor d =>
    refine Agrees.descriptor_bind fun v hv => ?_
    split
    · rename_i hnested
      exact hinside d v List.mem_cons_self hv hnested
    · exact (hrequests d).then_pure _
  | code p => exact Agrees.throw trivial

theorem fieldContents_agrees {o : ObjectValue} {f : FieldId}
    (hinside : AgreesInside c marks (o.fields.lookup f).toList contents contents') :
    Agrees c marks (fieldContents c contents o f) (fieldContents c contents' o f) := by
  unfold fieldContents
  dsimp only
  cases hheld : o.fields.lookup f with
  | none => exact (storageOf_agrees h hc _).then_pure _
  | some payload =>
    rw [hheld] at hinside
    cases payload with
    | null => exact payloadContents_agrees h hc hrequests _ _ hinside
    | scalar raw => exact payloadContents_agrees h hc hrequests _ _ hinside
    | descriptor d => exact payloadContents_agrees h hc hrequests _ _ hinside
    | code p =>
      dsimp only
      split
      · exact codeContents_agrees h hc _ _ p
      · split
        · exact (codeContents_agrees h hc _ _ p).bind fun target =>
            (layoutOf_agrees h hc _).then_pure _
        · exact payloadContents_agrees h hc hrequests _ _ hinside

theorem regionContents_agrees {o : ObjectValue} {t : TypeId} {offset : Nat}
    (hparts : ∀ offset', .overflow offset' ∈ c.region t offset → ¬ c.InRange)
    (hinside : AgreesInside c marks (o.payloads (c.region t offset)) contents contents') :
    Agrees c marks (regionContents c contents o t offset)
      (regionContents c contents' o t offset) := by
  refine Agrees.mapM fun p hp => ?_
  cases p with
  | padding => exact scalar_agrees h hc (Or.inr (hc.isScalar_core rfl rfl))
  | field f =>
    refine fieldContents_agrees h hc hrequests (hinside.mono fun payload hpayload => ?_)
    exact List.mem_filterMap.2 ⟨.field f, hp, Option.mem_toList.1 hpayload⟩
  | zeroSized offset => exact Agrees.violate nofun
  | overflow offset => exact Agrees.overflow (hparts offset hp)

theorem headerContents_agrees (context : TypeId) (isMutable : Bool) :
    Agrees c marks (headerContents c contents context isMutable)
      (headerContents c contents' context isMutable) := by
  unfold headerContents
  split
  · exact Agrees.violate nofun
  · have hword : (c.typeDef (c.field Core.multiUseWord).type).isScalar = true := by
      rw [hc.type_multiUseWord]
      exact hc.isScalar_core rfl rfl
    exact (scalar_agrees h hc (Or.inr hword)).bind fun word => (hrequests _).bind fun table =>
      (layoutOf_agrees h hc _).bind fun header => (layoutOf_agrees h hc _).then_pure _

omit hrequests in
theorem characters_agrees (o : ObjectValue) :
    Agrees c marks (characters c o) (characters c o) := by
  have hchar : (c.typeDef (c.field Core.firstChar).type).isScalar = true := by
    rw [hc.type_firstChar]
    exact hc.isScalar_core rfl rfl
  exact (storageOf_agrees h hc _).bind fun _ =>
    (Agrees.mapM fun unit _ => scalar_agrees h hc (Or.inr hchar)).then_pure _

theorem topContents_agrees {o : ObjectValue} {t : TypeId}
    (hparts : t ≠ Core.object → ∀ offset, .overflow offset ∈ c.region t 0 → ¬ c.InRange)
    (hinside : t ≠ Core.object →
      AgreesInside c marks (o.payloads (c.region t 0)) contents contents') :
    Agrees c marks (topContents c contents o t) (topContents c contents' o t) := by
  unfold topContents
  split
  · exact headerContents_agrees h hc hrequests _ _
  · rename_i hobject
    exact (regionContents_agrees h hc hrequests (hparts hobject) (hinside hobject)).bind
      fun fields =>
      (layoutOf_agrees h hc t).then_pure _

theorem classContents_agrees {o : ObjectValue} {t : TypeId} (base : Constant)
    (hparts : ∀ offset, .overflow offset ∈ c.region t (c.ownStart t) → ¬ c.InRange)
    (hinside : AgreesInside c marks (o.payloads (c.region t (c.ownStart t))) contents contents') :
    Agrees c marks (classContents c contents o base t) (classContents c contents' o base t) := by
  unfold classContents
  refine (regionContents_agrees h hc hrequests hparts hinside).bind fun own => ?_
  split
  · exact (characters_agrees h hc o).then_pure _
  · exact (layoutOf_agrees h hc t).then_pure _

theorem foldlM_classContents_agrees {o : ObjectValue} {below : List TypeId} (base : Constant)
    (hparts : ∀ t ∈ below, ∀ offset, .overflow offset ∈ c.region t (c.ownStart t) → ¬ c.InRange)
    (hinside : AgreesInside c marks
      (o.payloads (below.flatMap fun t => c.region t (c.ownStart t))) contents contents') :
    Agrees c marks (below.foldlM (classContents c contents o) base)
      (below.foldlM (classContents c contents' o) base) := by
  induction below generalizing base with
  | nil => exact Agrees.pure base
  | cons t below ih =>
    rw [List.foldlM_cons, List.foldlM_cons]
    rw [List.flatMap_cons, ObjectValue.payloads, List.filterMap_append] at hinside
    exact (classContents_agrees h hc hrequests base (hparts t List.mem_cons_self)
      (hinside.mono (List.subset_append_left _ _))).bind fun built =>
        ih built (fun u hu => hparts u (List.mem_cons_of_mem _ hu))
          (hinside.mono (List.subset_append_right _ _))

theorem objectContents_agrees {o : ObjectValue} {t : TypeId}
    (hinside : AgreesInside c marks (o.payloads (c.instanceParts t)) contents contents') :
    Agrees c marks (objectContents c contents o t) (objectContents c contents' o t) := by
  unfold objectContents
  cases hancestry : c.ancestry t with
  | error e => exact Agrees.violate nofun
  | ok a =>
    rw [Catalog.instanceParts, hancestry, ObjectValue.payloads, List.filterMap_append] at hinside
    have hline := Catalog.ancestry_eq_ok_iff.1 hancestry
    refine (topContents_agrees h hc hrequests (fun hobject _ hmem hrange => ?_)
      fun hobject => ?_).bind fun top => ?_
    · exact hrange.notMem_of_valueType hc (hline.kind_top hobject) hmem
    · rw [if_neg hobject] at hinside
      exact hinside.mono (List.subset_append_left _ _)
    · refine foldlM_classContents_agrees h hc hrequests top (fun u hu _ hmem hrange => ?_)
        (hinside.mono (List.subset_append_right _ _))
      obtain ⟨base, hwraps⟩ := hline.wraps_of_mem hu
      rw [Catalog.ownStart, hwraps.2.2] at hmem
      exact hrange.notMem_of_wraps hwraps hmem

theorem valueElements_agrees {a : ArrayValue} {element : TypeId} {values : List Payload}
    (hinside : AgreesInside c marks values contents contents') :
    Agrees c marks (valueElements c contents a element values)
      (valueElements c contents' a element values) := by
  unfold valueElements
  dsimp only
  split
  · exact Agrees.violate_bind (by nofun) _ _
  · refine Agrees.mapM fun entry hentry => ?_
    obtain ⟨p, i⟩ := entry
    refine payloadContents_agrees h hc hrequests _ _ (hinside.mono ?_)
    exact List.cons_subset.2 ⟨List.fst_mem_of_mem_zipIdx hentry, List.nil_subset _⟩

omit hrequests in
theorem sourceElements_agrees (a : ArrayValue) (element : TypeId) (source : List UInt64) :
    Agrees c marks (sourceElements c a element source) (sourceElements c a element source) := by
  unfold sourceElements
  dsimp only
  split
  · exact Agrees.violate_bind (by nofun) _ _
  · split
    · exact Agrees.pure []
    · split
      · exact Agrees.throw_bind (by trivial) _ _
      · rename_i hscalar
        rw [Bool.not_eq_true', Bool.not_eq_false] at hscalar
        exact Agrees.mapM fun raw _ => scalar_agrees h hc (Or.inr hscalar)

theorem arrayContents_agrees {a : ArrayValue}
    (hinside : AgreesInside c marks (a.values.getD []) contents contents') :
    Agrees c marks (arrayContents c contents a) (arrayContents c contents' a) := by
  unfold arrayContents
  split
  · rename_i element hkind
    have hlength : (c.typeDef (c.field Core.arrayLength).type).isScalar = true := by
      rw [hc.type_arrayLength]
      exact hc.isScalar_core rfl rfl
    refine (headerContents_agrees h hc hrequests _ _).bind fun header =>
      (scalar_agrees h hc (Or.inr hlength)).bind fun length =>
        (layoutOf_agrees h hc _).bind fun layout => ?_
    cases hvalues : a.values with
    | some values =>
      rw [hvalues] at hinside
      exact (valueElements_agrees h hc hrequests hinside).bind fun elements =>
        (storageOf_agrees h hc element).then_pure _
    | none =>
      exact (sourceElements_agrees h hc a element _).bind fun elements =>
        (storageOf_agrees h hc element).then_pure _
  · exact Agrees.violate nofun

/-- The contents of a value depend on the contents of what is put in place inside it, and on how
values can be requested. -/
theorem valueContents_agrees {v : Descriptor} {t : TypeId}
    (hinside : AgreesInside c marks (c.payloadsAs v t) contents contents') :
    Agrees c marks (valueContents c contents v t) (valueContents c contents' v t) := by
  cases v with
  | object o => exact objectContents_agrees h hc hrequests hinside
  | array a => exact arrayContents_agrees h hc hrequests hinside

end

/-! ## Depth -/

/-- One round of the recursion of layouts, given the layouts that it asks for. -/
def layoutOnce (c : Catalog) (layout : TypeId → Build StructId) (t : TypeId) : Build StructId := do
  match (← get).layouts.lookup t with
  | some id => return id
  | none =>
    let fields ← layoutFields c layout t
    let id ← onModule (·.declareStruct (c.typeName t) fields)
    modify fun s => { s with layouts := Keyed.put t id s.layouts }
    return id

/-- One round of the recursion of contents, given the contents that it asks for. -/
def contentsOnce (c : Catalog) (contents : DescriptorId → Build Constant) (d : DescriptorId)
    (t : TypeId) : Build Constant := do
  let v ← descriptor c d
  within d (valueContents c contents v t)

section

variable (h : c.Acyclic) (hc : c.Rooted)

include h hc

/-- Contents to some depth depend on contents to one depth less: of what is put in place, and of
what is marked on request. -/
theorem contentsWithin_succ_agrees {depth depth' : Nat} {d : DescriptorId} {t : TypeId}
    (hparts : ∀ v e w, c.descriptor? d = some v → .descriptor e ∈ c.payloadsAs v t →
      c.descriptor? e = some w → w.isNested = true →
      Agrees c marks (contentsWithin c depth e w.context) (contentsWithin c depth' e w.context))
    (hmarked : ∀ e w, c.descriptor? e = some w → e ∉ marks →
      Agrees c (e :: marks) (contentsWithin c depth e w.context)
        (contentsWithin c depth' e w.context)) :
    Agrees c marks (contentsWithin c (depth + 1) d t) (contentsWithin c (depth' + 1) d t) := by
  rw [contentsWithin, contentsWithin]
  refine Agrees.descriptor_bind fun v hv => ?_
  refine (valueContents_agrees h hc (fun e => ?_) fun e w he hw hnested => ?_).within d
  · refine requestWith_agrees h hc fun w hw hmark => ?_
    exact Agrees.descriptor_bind fun w' hw' => hmarked e w' hw' hmark
  · refine Agrees.descriptor_bind fun w' hw' => ?_
    obtain rfl := Option.some.inj (hw.symm.trans hw')
    exact hparts v e w hv he hw hnested

/-- Enough depth is left when it suffices to pass all values for each value that is not marked, and
those that were not passed since the last mark. -/
theorem contentsWithin_agrees {depth depth' : Nat} {path : List DescriptorId} {d : DescriptorId}
    {v : Descriptor} (hv : c.descriptor? d = some v) (htrail : Trail c.Inlines c.positions path d)
    (hdepth : c.descriptors.length * c.unmarked marks + (c.descriptors.length - path.length) ≤
      depth)
    (hdepth' : c.descriptors.length * c.unmarked marks + (c.descriptors.length - path.length) ≤
      depth') :
    Agrees c marks (contentsWithin c depth d v.context) (contentsWithin c depth' d v.context) := by
  induction depth generalizing marks depth' path d v with
  | zero =>
    have hlength := htrail.length_lt h.inlining (Catalog.mem_positions hv)
    rw [Catalog.length_positions] at hlength
    omega
  | succ depth ih =>
    have hlength := htrail.length_lt h.inlining (Catalog.mem_positions hv)
    rw [Catalog.length_positions] at hlength
    obtain _ | depth' := depth'
    · omega
    refine contentsWithin_succ_agrees h hc (fun v' e w hv' he hw hnested => ?_)
      fun e w hw hmark => ?_
    -- in place: the same marks, and one more value passed
    · obtain rfl := Option.some.inj (hv.symm.trans hv')
      rw [Catalog.payloadsAs_context] at he
      have hinlines : c.Inlines d e := ⟨v, w, hv, he, hw, hnested⟩
      refine ih hw (htrail.cons h.inlining (Catalog.mem_positions hv) hinlines) ?_ ?_ <;>
        rw [List.length_cons] <;> omega
    -- marked: one value less without a mark, which pays for a way past all values
    · have hfewer := Catalog.unmarked_cons (Catalog.mem_positions hw) hmark
      rw [← hfewer, Nat.mul_add, Nat.mul_one] at hdepth hdepth'
      refine ih hw (.nil _ _ e) ?_ ?_ <;> rw [List.length_nil] <;> omega

/-- The bound leaves enough depth for a value that is laid out as any type. -/
theorem contentsAs_agrees {depth : Nat} (hdepth : depthBound c ≤ depth) (d : DescriptorId)
    (t : TypeId) : Agrees c marks (contentsAs c d t) (contentsWithin c depth d t) := by
  have hbound : ∃ k, depthBound c = k + 1 ∧
      c.descriptors.length * c.unmarked marks + c.descriptors.length ≤ k := by
    have hunmarked : c.unmarked marks ≤ c.descriptors.length + 1 :=
      (Catalog.unmarked_le marks).trans (Nat.le_succ _)
    exact ⟨c.descriptors.length * (c.descriptors.length + 1) + c.descriptors.length,
      Nat.add_one_mul _ _, Nat.add_le_add_right (Nat.mul_le_mul_left _ hunmarked) _⟩
  obtain ⟨k, hk, hle⟩ := hbound
  obtain ⟨depth, rfl⟩ : ∃ n, depth = n + 1 := ⟨depth - 1, by omega⟩
  have inner : ∀ {marks e w}, c.descriptor? e = some w →
      c.descriptors.length * c.unmarked marks + c.descriptors.length ≤ k →
      Agrees c marks (contentsWithin c k e w.context) (contentsWithin c depth e w.context) :=
    fun {marks e w} hw hle => contentsWithin_agrees h hc hw (.nil _ _ e) hle (by
      rw [List.length_nil]
      omega)
  rw [contentsAs, hk]
  refine contentsWithin_succ_agrees h hc (fun v e w _ _ hw _ => inner hw hle)
    fun e w hw hmark => inner hw ?_
  have hfewer := Catalog.unmarked_cons (Catalog.mem_positions hw) hmark
  rw [← hfewer, Nat.mul_add, Nat.mul_one] at hle
  omega

/-! ## Bounds that are never reached -/

omit h hc in
theorem Agrees.eq {x y : Build α} (hxy : ∀ marks, Agrees c marks x y) : y = x :=
  funext fun s => (hxy s.building s rfl).1

/-- **More depth gives the same layouts.** -/
theorem layoutWithin_eq {depth : Nat} (hdepth : c.typeCount + 1 ≤ depth) (t : TypeId) :
    layoutWithin c depth t = layoutOf c t :=
  Agrees.eq fun _ => layoutWithin_agrees h hc (.nil _ _ t) (Nat.le_refl _) hdepth

/-- **Layouts are those of the recursion without a bound.** -/
theorem layoutOf_eq (t : TypeId) : layoutOf c t = layoutOnce c (layoutOf c) t :=
  (layoutWithin_eq h hc (Nat.le_succ (c.typeCount + 1)) t).symm

/-- **More depth gives the same contents.** -/
theorem contentsWithin_eq {depth : Nat} (hdepth : depthBound c ≤ depth) (d : DescriptorId)
    (t : TypeId) : contentsWithin c depth d t = contentsAs c d t :=
  Agrees.eq fun _ => contentsAs_agrees h hc hdepth d t

/-- **Contents are those of the recursion without a bound.** -/
theorem contentsAs_eq (d : DescriptorId) (t : TypeId) :
    contentsAs c d t = contentsOnce c (contentsOf c) d t :=
  (contentsWithin_eq h hc (Nat.le_succ (depthBound c)) d t).symm

end

/-! ## Steps that come to an end -/

/-- Whatever image a step starts from, it does not fail for endless containment. -/
def Halts (x : Build α) : Prop :=
  ∀ s f s', x s = .error f s' → f.cause ≠ .violation .endless

/-- Whatever image a step starts from, it ends with a result or with an error that is reported. -/
def Returns (x : Build α) : Prop :=
  Halts x ∧ ∀ s f s', x s = .error f s' → f.cause ≠ .overflow

theorem mayFail_of_agrees {x y : Build α} (hxy : ∀ marks, Agrees c marks x y) {s s' : Image}
    {f : Failure} (hrun : x s = .error f s') : c.MayFail f.cause := by
  obtain ⟨-, hends⟩ := hxy s.building s rfl
  rwa [hrun] at hends

theorem Halts.of_agrees {x y : Build α} (hxy : ∀ marks, Agrees c marks x y) : Halts x :=
  fun _ _ _ hrun => (mayFail_of_agrees hxy hrun).ne_endless

/-- Words suffice for the layouts of the catalog. -/
theorem Returns.of_agrees {x y : Build α} (hxy : ∀ marks, Agrees c marks x y)
    (hrange : c.InRange) : Returns x :=
  ⟨.of_agrees hxy, fun _ _ _ hrun => (mayFail_of_agrees hxy hrun).ne_overflow hrange⟩

section

variable (h : c.Acyclic) (hc : c.Rooted)

include h hc

theorem contentsOf_agrees (d : DescriptorId) :
    Agrees c marks (contentsOf c d) (contentsOf c d) :=
  Agrees.descriptor_bind fun _ _ => contentsAs_agrees h hc (Nat.le_refl _) d _

theorem request_agrees (d : DescriptorId) : Agrees c marks (request c d) (request c d) :=
  requestWith_agrees h hc fun _ _ _ => contentsOf_agrees h hc d

theorem fill_agrees (d : DescriptorId) (g : GlobalId) :
    Agrees c marks (fill c d g) (fill c d g) := by
  refine (contentsOf_agrees h hc d).bind fun built => Agrees.descriptor_bind fun v _ => ?_
  split
  · exact (Agrees.onModule _).bind fun fresh => Agrees.modifyModule _
  · exact Agrees.modifyModule _

theorem materialize_agrees (d : DescriptorId) :
    Agrees c marks (materialize c d) (materialize c d) := by
  refine (request_agrees h hc d).bind fun g => Agrees.get_bind fun s _ => ?_
  split
  · exact (fill_agrees h hc d g).then_pure _
  · exact Agrees.pure g

theorem resolveFrom_agrees (steps start filled : Nat) :
    Agrees c marks (resolveFrom c steps start filled) (resolveFrom c steps start filled) := by
  induction steps generalizing start filled with
  | zero => exact Agrees.pure filled
  | succ steps ih =>
    rw [resolveFrom]
    refine Agrees.get_bind fun s _ => ?_
    cases s.nextPlaceholder? start with
    | none => exact Agrees.pure filled
    | some found => exact (fill_agrees h hc _ _).bind fun _ => ih _ _

end

end Build

end DataImage
