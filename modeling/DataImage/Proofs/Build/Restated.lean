import DataImage.Catalog.Declare
import DataImage.Proofs.Build.Calls

/-!
# Arrays restated

The elements of an array are given one by one, or as bit patterns. Values are restated
(`Descriptor.RestatedAs`) if some arrays of bit patterns are replaced by the same arrays with these
patterns given one by one. The two ways to build elements agree (`Build.valueElements_map_scalar`):
bit patterns need an integer type, and where they have none the first of them fails either way.
Everything else looks at a value in the same way, so **the builder does the same with restated
values**, on every image and also where it fails (`Build.contentsAs_restated`,
`Call.run_restated`).
-/

namespace DataImage

/-- Whether the second value is the first, or the array with its bit patterns given one by one. It
does not matter whether the patterns are kept as well. -/
inductive Descriptor.RestatedAs : Descriptor → Descriptor → Prop where
  | same (v : Descriptor) : RestatedAs v v
  | explicit {a : ArrayValue} {raws : List UInt64} (values : a.values = none)
    (source : a.source = some raws) (source' : Option (List UInt64)) :
    RestatedAs (.array a)
      (.array { a with values := some (raws.map .scalar), source := source' })

namespace Descriptor.RestatedAs

variable {v w : Descriptor} (h : v.RestatedAs w)

include h

theorem context_eq : w.context = v.context := by cases h <;> rfl

theorem isNested_eq : w.isNested = v.isNested := by cases h <;> rfl

theorem isMutable_eq : w.isMutable = v.isMutable := by cases h <;> rfl

theorem takesTypeFromContents_eq : w.takesTypeFromContents = v.takesTypeFromContents := by
  cases h <;> rfl

end Descriptor.RestatedAs

/-! ## What does not look at values -/

namespace Catalog

/-- The catalog with other values. -/
def withValues (c : Catalog) (ds : List Descriptor) : Catalog := { c with descriptors := ds }

variable (c : Catalog) (ds : List Descriptor)

theorem regionWithin_withValues (t : TypeId) (steps offset : Nat) :
    (c.withValues ds).regionWithin t steps offset = c.regionWithin t steps offset := by
  induction steps generalizing offset with
  | zero => rfl
  | succ steps ih =>
    simp only [regionWithin, ih]
    rfl

theorem region_withValues : (c.withValues ds).region = c.region :=
  funext fun t => funext fun offset => c.regionWithin_withValues ds t _ offset

theorem ancestryWithin_withValues (steps : Nat) (below : List TypeId) (t : TypeId) :
    (c.withValues ds).ancestryWithin steps below t = c.ancestryWithin steps below t := by
  induction steps generalizing below t with
  | zero => rfl
  | succ steps ih =>
    simp only [ancestryWithin, ih]
    rfl

theorem ancestry_withValues : (c.withValues ds).ancestry = c.ancestry :=
  funext fun t => c.ancestryWithin_withValues ds _ [] t

end Catalog

namespace Build

section

variable (c : Catalog) (ds : List Descriptor)

theorem layoutWithin_withValues (depth : Nat) :
    layoutWithin (c.withValues ds) depth = layoutWithin c depth := by
  induction depth with
  | zero => rfl
  | succ depth ih =>
    funext t
    unfold layoutWithin layoutFields
    simp only [ih, Catalog.region_withValues]
    rfl

theorem layoutOf_withValues : layoutOf (c.withValues ds) = layoutOf c :=
  funext fun t => congrFun (layoutWithin_withValues c ds _) t

theorem storageOf_withValues : storageOf (c.withValues ds) = storageOf c := by
  funext t
  unfold storageOf
  rw [layoutOf_withValues]
  rfl

theorem declarationOf_withValues : declarationOf (c.withValues ds) = declarationOf c := by
  funext m
  unfold declarationOf
  rw [storageOf_withValues]
  rfl

theorem scalar_withValues : scalar (c.withValues ds) = scalar c := by
  funext t raw
  unfold scalar
  rw [storageOf_withValues, layoutOf_withValues]
  rfl

theorem codeContents_withValues : codeContents (c.withValues ds) = codeContents c := by
  funext t place p
  unfold codeContents
  rw [declarationOf_withValues, layoutOf_withValues]
  rfl

theorem characters_withValues : characters (c.withValues ds) = characters c := by
  funext o
  unfold characters
  rw [storageOf_withValues, scalar_withValues]
  rfl

theorem sourceElements_withValues : sourceElements (c.withValues ds) = sourceElements c := by
  funext a element source
  unfold sourceElements
  rw [scalar_withValues]
  rfl

end

/-! ## Bit patterns one by one -/

section

variable {c : Catalog} {contents : DescriptorId → Build Constant} {element : TypeId}

theorem mapM_payloadContents_scalar (hscalar : (c.typeDef element).isScalar = true) (name : String)
    (raws : List UInt64) (start : Nat) :
    (((raws.map Payload.scalar).zipIdx start).mapM fun (p, i) =>
      payloadContents c contents element (.element i name) p) = raws.mapM (scalar c element) := by
  induction raws generalizing start with
  | nil => rfl
  | cons raw raws ih =>
    have hraw : payloadContents c contents element (.element start name) (.scalar raw) =
        scalar c element raw := if_pos hscalar
    rw [List.map_cons, List.zipIdx_cons, List.mapM_cons, List.mapM_cons]
    simp only [hraw, ih]

variable (contents) in
/-- **Bit patterns given one by one** are built as bit patterns, or fail as these do. -/
theorem valueElements_map_scalar (a : ArrayValue) (raws : List UInt64) :
    valueElements c contents a element (raws.map .scalar) = sourceElements c a element raws := by
  unfold valueElements sourceElements
  rw [List.length_map]
  by_cases hlen : raws.length = a.length
  · rw [if_neg (not_not.2 hlen), if_neg (not_not.2 hlen)]
    by_cases hscalar : (c.typeDef element).isScalar = true
    · rw [mapM_payloadContents_scalar hscalar]
      cases raws with
      | nil => rfl
      | cons first rest => simp only [hscalar, Bool.not_true, Bool.false_eq_true, if_false]
    · cases raws with
      | nil => rfl
      | cons first rest =>
        -- the first of the bit patterns fails
        rw [List.map_cons, List.zipIdx_cons, List.mapM_cons]
        simp only [payloadContents, hscalar, Bool.not_false, Bool.false_eq_true, if_true, if_false]
        rfl
  · rw [if_pos hlen, if_pos hlen]
    rfl

end

/-! ## References -/

section

variable {c : Catalog} {ds : List Descriptor}
  (h : List.Forall₂ Descriptor.RestatedAs c.descriptors ds)

include h

theorem descriptor?_restated (d : DescriptorId) :
    c.descriptor? d = none ∧ (c.withValues ds).descriptor? d = none ∨
      ∃ v w, c.descriptor? d = some v ∧ (c.withValues ds).descriptor? d = some w ∧
        v.RestatedAs w := by
  have hvalues : Option.Rel _ (c.descriptor? d) ((c.withValues ds).descriptor? d) :=
    Partial.rel_getElem? h d.index
  generalize c.descriptor? d = v?, (c.withValues ds).descriptor? d = w? at hvalues
  cases hvalues with
  | none => exact Or.inl ⟨rfl, rfl⟩
  | some hvw => exact Or.inr ⟨_, _, rfl, rfl, hvw⟩

/-- What is done alike with restated values is done alike with the values at a position. -/
theorem descriptor_bind_restated {α : Type} {f f' : Descriptor → Build α}
    (hf : ∀ v w, v.RestatedAs w → f' w = f v) (d : DescriptorId) :
    (descriptor (c.withValues ds) d >>= f') = descriptor c d >>= f := by
  unfold descriptor
  rcases descriptor?_restated h d with ⟨hv, hw⟩ | ⟨v, w, hv, hw, hvw⟩
  · rw [hv, hw]
    rfl
  · rw [hv, hw]
    exact hf v w hvw

theorem register_restated : register (c.withValues ds) = register c := by
  have hmutable : ∀ d, ((c.withValues ds).descriptor? d).any (!·.isMutable) =
      (c.descriptor? d).any (!·.isMutable) := by
    intro d
    rcases descriptor?_restated h d with ⟨hv, hw⟩ | ⟨v, w, hv, hw, hvw⟩
    · rw [hv, hw]
    · simp only [hv, hw, Option.any_some, hvw.isMutable_eq]
  funext d g
  unfold register
  simp only [hmutable]

omit h in
theorem globalName_restated {d : DescriptorId} {v w : Descriptor} (hvw : v.RestatedAs w) :
    (c.withValues ds).globalName d w = c.globalName d v := by
  unfold Catalog.globalName
  rw [hvw.context_eq]
  rfl

theorem requestWith_restated (contents : DescriptorId → Build Constant) :
    requestWith (c.withValues ds) contents = requestWith c contents := by
  have hplaceholder : ∀ d v w, v.RestatedAs w →
      placeholder (c.withValues ds) d w = placeholder c d v := by
    intro d v w hvw
    unfold placeholder
    rw [hvw.context_eq, globalName_restated hvw, layoutOf_withValues, register_restated h]
  have heager : ∀ d v w, v.RestatedAs w →
      eager (c.withValues ds) contents d w = eager c contents d v := by
    intro d v w hvw
    unfold eager
    rw [globalName_restated hvw, register_restated h]
  funext d
  unfold requestWith
  refine congrArg _ (funext fun s => ?_)
  cases s.global? d with
  | some g => rfl
  | none =>
    refine descriptor_bind_restated h (fun v w hvw => ?_) d
    rw [hvw.isNested_eq, hvw.takesTypeFromContents_eq, heager d v w hvw, hplaceholder d v w hvw]

/-! ## Contents -/

theorem payloadContents_restated (contents : DescriptorId → Build Constant) :
    payloadContents (c.withValues ds) contents = payloadContents c contents := by
  funext t place payload
  cases payload with
  | null => exact congrFun (congrFun (scalar_withValues c ds) t) 0
  | scalar raw =>
    unfold payloadContents
    rw [scalar_withValues]
    rfl
  | descriptor d =>
    refine descriptor_bind_restated h (fun v w hvw => ?_) d
    rw [hvw.isNested_eq, requestWith_restated h]
  | code p => rfl

theorem headerContents_restated (contents : DescriptorId → Build Constant) :
    headerContents (c.withValues ds) contents = headerContents c contents := by
  funext context isMutable
  unfold headerContents
  rw [scalar_withValues, requestWith_restated h, layoutOf_withValues]
  rfl

theorem objectContents_restated (contents : DescriptorId → Build Constant) :
    objectContents (c.withValues ds) contents = objectContents c contents := by
  have hregion : regionContents (c.withValues ds) contents = regionContents c contents := by
    funext o t offset
    unfold regionContents
    rw [Catalog.region_withValues]
    refine congrArg (fun f => List.mapM f (c.region t offset)) (funext fun p => ?_)
    unfold partContents fieldContents
    rw [scalar_withValues, storageOf_withValues, codeContents_withValues, layoutOf_withValues,
      payloadContents_restated h]
    rfl
  funext o t
  unfold objectContents
  rw [Catalog.ancestry_withValues]
  cases c.ancestry t with
  | error e => rfl
  | ok a =>
    have htop : topContents (c.withValues ds) contents = topContents c contents := by
      funext o t
      unfold topContents
      rw [headerContents_restated h, hregion, layoutOf_withValues]
    have hclass : classContents (c.withValues ds) contents = classContents c contents := by
      funext o base t
      unfold classContents
      rw [hregion, characters_withValues, layoutOf_withValues]
      rfl
    simp only [htop, hclass]

theorem arrayContents_restated (contents : DescriptorId → Build Constant) {a b : ArrayValue}
    (hab : (Descriptor.array a).RestatedAs (.array b)) :
    arrayContents (c.withValues ds) contents b = arrayContents c contents a := by
  have helements : valueElements (c.withValues ds) contents = valueElements c contents := by
    funext a element values
    unfold valueElements
    rw [payloadContents_restated h]
    rfl
  unfold arrayContents
  rw [headerContents_restated h, scalar_withValues, layoutOf_withValues, storageOf_withValues,
    helements, sourceElements_withValues]
  cases hab with
  | same => rfl
  | @explicit a raws hvalues hsource source' =>
    dsimp only
    rw [hvalues, hsource]
    simp only [← valueElements_map_scalar contents, Option.getD_some]
    rfl

theorem valueContents_restated (contents : DescriptorId → Build Constant) {v w : Descriptor}
    (hvw : v.RestatedAs w) (t : TypeId) :
    valueContents (c.withValues ds) contents w t = valueContents c contents v t := by
  unfold valueContents
  rw [objectContents_restated h]
  cases hvw with
  | same v =>
    cases v with
    | object o => rfl
    | array a => exact arrayContents_restated h contents (.same _)
  | explicit hvalues hsource source' =>
    exact arrayContents_restated h contents (.explicit hvalues hsource source')

theorem contentsWithin_restated (depth : Nat) :
    contentsWithin (c.withValues ds) depth = contentsWithin c depth := by
  induction depth with
  | zero => rfl
  | succ depth ih =>
    funext d t
    refine descriptor_bind_restated h (fun v w hvw => congrArg (within d) ?_) d
    have hparts : (fun inner => descriptor (c.withValues ds) inner >>= fun v =>
        contentsWithin (c.withValues ds) depth inner v.context) =
        fun inner => descriptor c inner >>= fun v => contentsWithin c depth inner v.context := by
      funext inner
      refine descriptor_bind_restated h (fun v w hvw => ?_) inner
      rw [ih, hvw.context_eq]
    rw [hparts, valueContents_restated h _ hvw]

/-- **Contents of restated values.** -/
theorem contentsAs_restated : contentsAs (c.withValues ds) = contentsAs c := by
  have hdepth : depthBound (c.withValues ds) = depthBound c := by
    unfold depthBound
    rw [h.length_eq]
    rfl
  funext d t
  unfold contentsAs
  rw [hdepth, contentsWithin_restated h]

theorem contentsOf_restated : contentsOf (c.withValues ds) = contentsOf c := by
  funext d
  refine descriptor_bind_restated h (fun v w hvw => ?_) d
  rw [contentsAs_restated h, hvw.context_eq]

/-! ## Globals -/

theorem request_restated : request (c.withValues ds) = request c := by
  funext d
  unfold request
  rw [contentsOf_restated h, requestWith_restated h]

theorem fill_restated : fill (c.withValues ds) = fill c := by
  funext d g
  unfold fill
  rw [contentsOf_restated h]
  refine congrArg _ (funext fun built => descriptor_bind_restated h (fun v w hvw => ?_) d)
  rw [hvw.takesTypeFromContents_eq, globalName_restated hvw]

theorem materialize_restated : materialize (c.withValues ds) = materialize c := by
  funext d
  unfold materialize
  rw [request_restated h, fill_restated h]

theorem resolveAll_restated : resolveAll (c.withValues ds) = resolveAll c := by
  have hfrom : ∀ steps, resolveFrom (c.withValues ds) steps = resolveFrom c steps := by
    intro steps
    induction steps with
    | zero => rfl
    | succ steps ih =>
      funext start filled
      unfold resolveFrom
      rw [fill_restated h, ih]
  unfold resolveAll
  rw [hfrom]
  exact congrArg (fun n => resolveFrom c (n + 1) 0 0) h.length_eq.symm

end

end Build

/-- An array of three bytes, given by bit patterns. -/
def Catalog.threeBytes : Catalog :=
  let c := ((Catalog.new 4).addArrayType Core.byte).2
  (c.addDescriptor (.array
    { context := ⟨18⟩, isMutable := false, length := 3, source := some [7, 0, 255] })).2

namespace Call

variable {c : Catalog} {ds : List Descriptor}

/-- Calls do the same with restated values. -/
theorem run_restated (h : List.Forall₂ Descriptor.RestatedAs c.descriptors ds)
    (calls : List Call) (s : Image) : run (c.withValues ds) calls s = run c calls s := by
  have hafter : after (c.withValues ds) = after c := by
    funext s call
    cases call <;>
      simp only [after, Build.request_restated h, Build.materialize_restated h,
        Build.contentsOf_restated h, Build.contentsAs_restated h, Build.scalar_withValues,
        Build.layoutOf_withValues, Build.storageOf_withValues, Build.declarationOf_withValues,
        Build.resolveAll_restated h]
  unfold run
  rw [hafter]

/-- Restating the value at one position. -/
theorem forall₂_modify {l : List Descriptor} {i : Nat} {v w : Descriptor} (hv : l[i]? = some v)
    (h : v.RestatedAs w) : List.Forall₂ Descriptor.RestatedAs l (l.modify i fun _ => w) := by
  induction l generalizing i with
  | nil => cases hv
  | cons u l ih =>
    cases i with
    | zero =>
      obtain rfl := Option.some.inj hv
      exact .cons h (List.forall₂_same.2 fun x _ => .same x)
    | succ i => exact .cons (.same u) (ih hv)

/-- **Bit patterns and explicit elements.** An array that is given by bit patterns can be given by
the same integers one by one. On every image the builder gives the same contents for it and leaves
the same image, or fails with the same failure and leaves the same image; and so it does for every
other value, laid out as any type, and in any sequence of calls. -/
theorem restated_of_source (c : Catalog) {d : DescriptorId} {a : ArrayValue} {raws : List UInt64}
    (hd : c.descriptor? d = some (.array a)) (hvalues : a.values = none)
    (hsource : a.source = some raws) (source' : Option (List UInt64)) :
    let c' := c.updateDescriptor d fun _ =>
      .array { a with values := some (raws.map .scalar), source := source' }
    (∀ s, Build.contentsOf c' d s = Build.contentsOf c d s) ∧
      (∀ e t s, Build.contentsAs c' e t s = Build.contentsAs c e t s) ∧
      ∀ calls s, run c' calls s = run c calls s := by
  have h := forall₂_modify hd (.explicit hvalues hsource source')
  exact ⟨fun s => congrFun (congrFun (Build.contentsOf_restated h) d) s,
    fun e t s => congrFun (congrFun (congrFun (Build.contentsAs_restated h) e) t) s,
    run_restated h⟩

/-- The three bytes given one by one, as contents that both catalogs give. -/
theorem restated_of_source_threeBytes : ∃ k s,
    Build.contentsOf (Catalog.threeBytes.updateDescriptor ⟨5⟩ fun _ => .array
      { context := ⟨18⟩, isMutable := false, length := 3
        values := some [.scalar 7, .scalar 0, .scalar 255] }) ⟨5⟩
        (Image.new Catalog.threeBytes "Bytes") = .ok k s ∧
      Build.contentsOf Catalog.threeBytes ⟨5⟩ (Image.new Catalog.threeBytes "Bytes") = .ok k s := by
  have hrun : (Build.contentsOf Catalog.threeBytes ⟨5⟩).succeedsWith
      (Image.new Catalog.threeBytes "Bytes") (fun _ _ => true) = true := by decide +kernel
  obtain ⟨k, s, h, -⟩ := Build.exists_of_succeedsWith hrun
  obtain ⟨same, -, -⟩ := restated_of_source Catalog.threeBytes (d := ⟨5⟩) rfl rfl rfl none
  exact ⟨k, s, (same _).trans h, h⟩

end Call

end DataImage
