import DataImage.Proofs.Build.Failures
import DataImage.Proofs.Build.Roots

/-!
# Why building fails

Each step on an image fails for reasons of its own kind. Layouts and declarations fail only because
a rule is broken (`Build.declarationOf_raises`), and never because of what a value holds. Contents
also fail because a payload does not suit its place, or because a code pointer leads to an exception
handler (`Build.fromRoots_raises`). No step fails for a reason that belongs to the settings, to the
verification or to the object.
-/

namespace DataImage

namespace Cause

/-- Whether this is why a type has no struct: a rule is broken, or a number is too large. -/
def isOfTypes : Cause → Bool
  | .violation _ | .overflow => true
  | _ => false

/-- Whether the reason is what a value holds: a payload that does not suit its place, a code pointer
to an exception handler, or a wrong number of elements. -/
def isOfContent : Cause → Bool
  | .typeConsistency .. | .handlerPointer .. | .violation (.elementCount ..) => true
  | .violation _ | .overflow | .missingBootstrap _ | .verification _ | .settings _ | .lowering _
  | .emission _ => false

/-- Whether this is a reason why a type has no struct, other than what a value holds. -/
def isOfRules (cause : Cause) : Bool := cause.isOfTypes && !cause.isOfContent

/-- Whether this is a reason why values cannot be built. -/
def isOfBuilding : Cause → Bool
  | .typeConsistency .. | .handlerPointer .. | .violation _ | .overflow => true
  | .missingBootstrap _ | .verification _ | .settings _ | .lowering _ | .emission _ => false

variable {cause : Cause} (h : cause.isOfRules = true)

include h

theorem isOfTypes_of_isOfRules : cause.isOfTypes = true := (Bool.and_eq_true_iff.1 h).1

theorem isOfContent_of_isOfRules : cause.isOfContent = false := by
  simpa using (Bool.and_eq_true_iff.1 h).2

theorem isOfBuilding_of_isOfRules : cause.isOfBuilding = true := by
  cases cause <;> simp_all [isOfRules, isOfTypes, isOfBuilding]

end Cause

namespace Build

variable {α β : Type} {c : Catalog} {p q : Cause → Bool}

/-- A step whose failures all have a cause of some kind. -/
def Raises (p : Cause → Bool) (x : Build α) : Prop :=
  ∀ s f s', x s = .error f s' → p f.cause = true

namespace Raises

theorem failsOnly {x : Build α} (hx : Raises p x) : FailsOnly (fun f => p f.cause = true) x := hx

theorem mono {x : Build α} (hx : Raises p x) (h : ∀ cause, p cause = true → q cause = true) :
    Raises q x :=
  hx.failsOnly.mono fun _ => h _

protected theorem pure (a : α) : Raises p (pure a : Build α) := FailsOnly.pure a

protected theorem throw {f : Failure} (h : p f.cause = true) :
    Raises p (MonadExcept.throw f : Build α) :=
  FailsOnly.throw h

protected theorem bind {x : Build α} {f : α → Build β} (hx : Raises p x)
    (hf : ∀ a, Raises p (f a)) : Raises p (x >>= f) :=
  hx.failsOnly.bind hf

/-- Nothing follows a failure. -/
theorem throw_bind {e : Failure} (h : p e.cause = true) (f : α → Build β) :
    Raises p (MonadExcept.throw e >>= f) :=
  FailsOnly.throw_bind h f

/-- A step and then a result. -/
theorem then_pure {x : Build α} (hx : Raises p x) (f : α → β) :
    Raises p (x >>= fun a => pure (f a)) :=
  hx.failsOnly.then_pure f

theorem get_bind {f : Image → Build β} (hf : ∀ s, Raises p (f s)) : Raises p (get >>= f) :=
  FailsOnly.get_bind hf

theorem onModule (f : Module → α × Module) : Raises p (Build.onModule f) := FailsOnly.onModule f

theorem modify (f : Image → Image) : Raises p (modify f : Build Unit) := FailsOnly.modify f

theorem modifyModule (f : Module → Module) : Raises p (Build.modifyModule f) :=
  FailsOnly.modifyModule f

theorem mapM {f : α → Build β} (hf : ∀ a, Raises p (f a)) (l : List α) :
    Raises p (l.mapM f) :=
  FailsOnly.mapM fun a _ => hf a

theorem foldlM {f : β → α → Build β} (hf : ∀ b a, Raises p (f b a)) (l : List α) (b : β) :
    Raises p (l.foldlM f b) :=
  FailsOnly.foldlM (fun b a _ => hf b a) b

/-- To name a value in a failure does not change its cause. -/
theorem within {x : Build α} (hx : Raises p x) (d : DescriptorId) :
    Raises p (Build.within d x) :=
  hx.failsOnly.within fun _ h => h

theorem whileBuilding {x : Build α} (hx : Raises p x) (d : DescriptorId) :
    Raises p (Build.whileBuilding d x) :=
  hx.failsOnly.whileBuilding d

end Raises

/-! ## Layouts and declarations -/

theorem violate_raises {v : Violation} (h : (Cause.violation v).isOfRules = true) :
    Raises Cause.isOfRules (Build.violate v : Build α) :=
  .throw h

theorem descriptor_raises (d : DescriptorId) : Raises Cause.isOfRules (descriptor c d) := by
  unfold descriptor
  split
  · exact .pure _
  · exact violate_raises rfl

theorem bitWidth_raises (t : TypeId) : Raises Cause.isOfRules (bitWidth c t) := by
  rw [bitWidth_eq]
  split
  · exact .pure _
  · exact .throw rfl

section

variable {layout : TypeId → Build StructId}
  (hlayout : ∀ u, Raises Cause.isOfRules (layout u))

include hlayout

theorem storageWith_raises (t : TypeId) : Raises Cause.isOfRules (storageWith c layout t) := by
  unfold storageWith
  split
  · exact .pure _
  · exact (hlayout t).then_pure _

theorem partStorage_raises (t : TypeId) (part : Part) :
    Raises Cause.isOfRules (partStorage c layout t part) := by
  cases part with
  | padding => exact storageWith_raises hlayout _
  | field f => exact storageWith_raises hlayout _
  | zeroSized offset => exact violate_raises rfl
  | overflow offset => exact .throw rfl

theorem layoutFields_raises (t : TypeId) : Raises Cause.isOfRules (layoutFields c layout t) := by
  have parts : ∀ l, Raises Cause.isOfRules (List.mapM (partStorage c layout t) l) :=
    Raises.mapM fun part => partStorage_raises hlayout t part
  unfold layoutFields
  dsimp only
  split
  · exact (bitWidth_raises t).then_pure _
  · exact parts _
  · split
    · exact (hlayout _).then_pure _
    · split
      · exact violate_raises rfl
      · exact (hlayout _).bind fun _ => (parts _).then_pure _
  · exact (hlayout _).bind fun _ => (storageWith_raises hlayout _).then_pure _

end

theorem layoutWithin_raises (depth : Nat) (t : TypeId) :
    Raises Cause.isOfRules (layoutWithin c depth t) := by
  induction depth generalizing t with
  | zero => exact violate_raises rfl
  | succ depth ih =>
    rw [layoutWithin]
    refine .get_bind fun s => ?_
    cases s.layouts.lookup t with
    | some id => exact .pure id
    | none =>
      refine (layoutFields_raises ih t).bind fun fields => (Raises.onModule _).bind fun id => ?_
      exact (Raises.modify _).then_pure _

theorem layoutOf_raises (t : TypeId) : Raises Cause.isOfRules (layoutOf c t) :=
  layoutWithin_raises _ t

theorem storageOf_raises (t : TypeId) : Raises Cause.isOfRules (storageOf c t) :=
  storageWith_raises layoutOf_raises t

theorem declarationOf_raises_rules (m : MethodId) :
    Raises Cause.isOfRules (declarationOf c m) := by
  rw [declarationOf]
  refine .get_bind fun s => ?_
  cases s.declarations.lookup m with
  | some id => exact .pure id
  | none =>
    refine (Raises.mapM storageOf_raises _).bind fun params => ?_
    have hresult : Raises Cause.isOfRules ((c.method m).result.mapM (storageOf c)) := by
      cases (c.method m).result with
      | none => exact .pure none
      | some t =>
        rw [Option.mapM_some, map_eq_pure_bind]
        exact (storageOf_raises t).then_pure _
    refine hresult.bind fun result => (Raises.onModule _).bind fun id => ?_
    exact (Raises.modify _).then_pure _

/-- **To declare a method fails only because a rule is broken.** -/
theorem declarationOf_raises (m : MethodId) : Raises Cause.isOfTypes (declarationOf c m) :=
  (declarationOf_raises_rules m).mono fun _ => Cause.isOfTypes_of_isOfRules

/-! ## References, integers and code -/

/-- What fails only because a rule is broken fails for a reason of building. -/
theorem Raises.building {x : Build α} (hx : Raises Cause.isOfRules x) :
    Raises Cause.isOfBuilding x :=
  hx.mono fun _ => Cause.isOfBuilding_of_isOfRules

theorem register_raises (d : DescriptorId) (g : GlobalId) : Raises p (register c d g) := by
  rw [register]
  refine .get_bind fun s => ?_
  cases s.global? d with
  | some registered => exact (Raises.modifyModule _).then_pure _
  | none =>
    refine (Raises.modify _).bind fun _ => ?_
    split
    · exact (Raises.modifyModule _).then_pure _
    · exact .pure g

theorem scalar_raises (t : TypeId) (raw : UInt64) : Raises Cause.isOfRules (scalar c t raw) := by
  unfold scalar
  dsimp only
  split
  · exact Raises.throw_bind rfl _
  · split
    · exact (storageOf_raises t).then_pure _
    · exact (bitWidth_raises t).bind fun _ => (layoutOf_raises t).then_pure _

theorem codeContents_raises (t : TypeId) (place : Place) (pointer : CodePointerId) :
    Raises Cause.isOfBuilding (codeContents c t place pointer) := by
  unfold codeContents
  split
  · exact (violate_raises rfl).building
  · refine (declarationOf_raises_rules _).building.bind fun _ => ?_
    exact (layoutOf_raises t).building.then_pure _
  · exact .throw rfl

section

variable {contents : DescriptorId → Build Constant}
  (hcontents : ∀ d, Raises Cause.isOfBuilding (contents d))

include hcontents

theorem requestWith_raises (d : DescriptorId) :
    Raises Cause.isOfBuilding (requestWith c contents d) := by
  rw [requestWith]
  refine .get_bind fun s => ?_
  cases s.global? d with
  | some g => exact .pure _
  | none =>
    refine (descriptor_raises d).building.bind fun v => ?_
    dsimp only
    split
    · exact Raises.throw_bind rfl _
    · split
      · exact ((hcontents d).whileBuilding d).bind fun built =>
          (Raises.onModule _).bind fun g => register_raises d g
      · exact (layoutOf_raises _).building.bind fun layout =>
          (Raises.onModule _).bind fun g => register_raises d g

/-! ## Contents -/

theorem payloadContents_raises (t : TypeId) (place : Place) (payload : Payload) :
    Raises Cause.isOfBuilding (payloadContents c contents t place payload) := by
  unfold payloadContents
  cases payload with
  | null => exact (scalar_raises t 0).building
  | scalar raw =>
    dsimp only
    split
    · exact (scalar_raises t raw).building
    · exact .throw rfl
  | descriptor d =>
    refine (descriptor_raises d).building.bind fun v => ?_
    split
    · exact hcontents d
    · exact (requestWith_raises hcontents d).then_pure _
  | code pointer => exact .throw rfl

theorem fieldContents_raises (o : ObjectValue) (f : FieldId) :
    Raises Cause.isOfBuilding (fieldContents c contents o f) := by
  unfold fieldContents
  dsimp only
  split
  · exact (storageOf_raises _).building.then_pure _
  · split
    · exact codeContents_raises _ _ _
    · split
      · exact (codeContents_raises _ _ _).bind fun target =>
          (layoutOf_raises _).building.then_pure _
      · exact payloadContents_raises hcontents _ _ _
  · exact payloadContents_raises hcontents _ _ _

theorem regionContents_raises (o : ObjectValue) (t : TypeId) (offset : Nat) :
    Raises Cause.isOfBuilding (regionContents c contents o t offset) := by
  refine Raises.mapM (fun part => ?_) _
  cases part with
  | padding => exact (scalar_raises _ _).building
  | field f => exact fieldContents_raises hcontents o f
  | zeroSized offset => exact (violate_raises rfl).building
  | overflow offset => exact .throw rfl

theorem headerContents_raises (context : TypeId) (isMutable : Bool) :
    Raises Cause.isOfBuilding (headerContents c contents context isMutable) := by
  unfold headerContents
  split
  · exact (violate_raises rfl).building
  · exact (scalar_raises _ _).building.bind fun word =>
      (requestWith_raises hcontents _).bind fun table =>
        (layoutOf_raises _).building.bind fun header => (layoutOf_raises _).building.then_pure _

omit hcontents in
theorem characters_raises (o : ObjectValue) : Raises Cause.isOfBuilding (characters c o) :=
  (storageOf_raises _).building.bind fun _ =>
    (Raises.mapM (fun _ => (scalar_raises _ _).building) _).then_pure _

theorem topContents_raises (o : ObjectValue) (t : TypeId) :
    Raises Cause.isOfBuilding (topContents c contents o t) := by
  unfold topContents
  split
  · exact headerContents_raises hcontents _ _
  · exact (regionContents_raises hcontents o t 0).bind fun fields =>
      (layoutOf_raises t).building.then_pure _

theorem classContents_raises (o : ObjectValue) (base : Constant) (t : TypeId) :
    Raises Cause.isOfBuilding (classContents c contents o base t) := by
  unfold classContents
  refine (regionContents_raises hcontents o t _).bind fun own => ?_
  split
  · exact (characters_raises o).then_pure _
  · exact (layoutOf_raises t).building.then_pure _

theorem objectContents_raises (o : ObjectValue) (t : TypeId) :
    Raises Cause.isOfBuilding (objectContents c contents o t) := by
  unfold objectContents
  split
  · exact (violate_raises rfl).building
  · exact (topContents_raises hcontents o _).bind fun top =>
      Raises.foldlM (fun base u => classContents_raises hcontents o base u) _ top

theorem valueElements_raises (a : ArrayValue) (element : TypeId) (values : List Payload) :
    Raises Cause.isOfBuilding (valueElements c contents a element values) := by
  unfold valueElements
  dsimp only
  split
  · exact Raises.throw_bind rfl _
  · exact Raises.mapM (fun _ => payloadContents_raises hcontents _ _ _) _

omit hcontents in
theorem sourceElements_raises (a : ArrayValue) (element : TypeId) (source : List UInt64) :
    Raises Cause.isOfBuilding (sourceElements c a element source) := by
  unfold sourceElements
  dsimp only
  split
  · exact Raises.throw_bind rfl _
  · split
    · exact .pure []
    · split
      · exact Raises.throw_bind rfl _
      · exact Raises.mapM (fun raw => (scalar_raises element raw).building) _

theorem arrayContents_raises (a : ArrayValue) :
    Raises Cause.isOfBuilding (arrayContents c contents a) := by
  unfold arrayContents
  split
  · refine (headerContents_raises hcontents _ _).bind fun header =>
      (scalar_raises _ _).building.bind fun length =>
        (layoutOf_raises _).building.bind fun layout => ?_
    cases a.values with
    | some values =>
      exact (valueElements_raises hcontents a _ values).bind fun elements =>
        (storageOf_raises _).building.then_pure _
    | none =>
      exact (sourceElements_raises a _ _).bind fun elements =>
        (storageOf_raises _).building.then_pure _
  · exact (violate_raises rfl).building

theorem valueContents_raises (v : Descriptor) (t : TypeId) :
    Raises Cause.isOfBuilding (valueContents c contents v t) := by
  cases v with
  | object o => exact objectContents_raises hcontents o t
  | array a => exact arrayContents_raises hcontents a

end

theorem contentsWithin_raises (depth : Nat) (d : DescriptorId) (t : TypeId) :
    Raises Cause.isOfBuilding (contentsWithin c depth d t) := by
  induction depth generalizing d t with
  | zero => exact (violate_raises rfl).building
  | succ depth ih =>
    rw [contentsWithin]
    refine (descriptor_raises d).building.bind fun v => ?_
    refine (valueContents_raises (fun inner => ?_) v t).within d
    exact (descriptor_raises inner).building.bind fun w => ih inner _

theorem contentsOf_raises (d : DescriptorId) : Raises Cause.isOfBuilding (contentsOf c d) :=
  (descriptor_raises d).building.bind fun _ => contentsWithin_raises _ d _

/-! ## Images of roots -/

theorem fill_raises (d : DescriptorId) (g : GlobalId) :
    Raises Cause.isOfBuilding (fill c d g) := by
  rw [fill]
  refine (contentsOf_raises d).bind fun built => (descriptor_raises d).building.bind fun v => ?_
  split
  · exact (Raises.onModule _).bind fun fresh => Raises.modifyModule _
  · exact Raises.modifyModule _

theorem materialize_raises (d : DescriptorId) :
    Raises Cause.isOfBuilding (materialize c d) := by
  rw [materialize]
  refine (requestWith_raises contentsOf_raises d).bind fun g => .get_bind fun s => ?_
  split
  · exact (fill_raises d g).then_pure _
  · exact .pure g

theorem materializeAll_raises (roots : List DescriptorId) :
    Raises Cause.isOfBuilding (materializeAll c roots) := by
  induction roots with
  | nil => exact .pure ()
  | cons r roots ih => exact (materialize_raises r).bind fun _ => ih

theorem resolveFrom_raises (steps start filled : Nat) :
    Raises Cause.isOfBuilding (resolveFrom c steps start filled) := by
  induction steps generalizing start filled with
  | zero => exact .pure filled
  | succ steps ih =>
    rw [resolveFrom]
    refine .get_bind fun s => ?_
    split
    · exact .pure filled
    · exact (fill_raises _ _).bind fun _ => ih _ _

/-- **Why the image of some roots cannot be built**: a payload does not suit its place, a code
pointer leads to an exception handler, or a rule is broken. -/
theorem fromRoots_raises (roots : List DescriptorId) :
    Raises Cause.isOfBuilding (fromRoots c roots) :=
  (materializeAll_raises roots).bind fun _ => (resolveFrom_raises _ 0 0).then_pure _

end Build

end DataImage
