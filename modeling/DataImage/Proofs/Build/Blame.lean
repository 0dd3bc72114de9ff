import DataImage.Catalog.Declare
import DataImage.Proofs.Build.Causes
import DataImage.Proofs.Catalog.Citations

/-!
# The value at fault

Some failures are about what a value holds: a payload that does not suit its place, a code pointer
to an exception handler, or a wrong number of elements (`Cause.isOfContent`). Such a failure comes
out of a recursion through values that are put in place, through arrays and strings that are built
on request, and through the sweep over placeholders. It takes its name where the contents of a value
are left for the first time, and keeps it.

* `Catalog.Offends` says of a value and a cause that the value holds what the cause reports, in the
  field or at the element that the cause names.
* **The value that a failure names is the one that offends** (`Build.blamed_of_failure`), whichever
  way led to it.
-/

namespace DataImage

/-- What the elements of an array hold. -/
def ArrayValue.held (a : ArrayValue) : List Payload :=
  a.values.getD ((a.source.getD []).map .scalar)

namespace Catalog

/-! ## What can be wrong with a value -/

/-- Whether a payload has no place in a field or an element of a type: a bit pattern where there is
no integer, or a code pointer. -/
def Unsuited (c : Catalog) (t : TypeId) : Payload → Prop
  | .scalar _ => (c.typeDef t).isScalar = false
  | .code _ => True
  | .null | .descriptor _ => False

/-- Whether a field takes code pointers after all: the address of a code pointer, or a whole one. -/
def TakesCode (c : Catalog) (f : FieldId) : Prop :=
  f = Core.codePointerTarget ∨ (c.field f).type = Core.codePointer

/-- A field as a place for payloads. -/
def placeOf (c : Catalog) (f : FieldId) : Place :=
  .field (c.field f).name (c.typeName (c.field f).owner)

/-- Whether a value, laid out as a type, holds what a cause reports. -/
inductive Offends (c : Catalog) : Descriptor → TypeId → Cause → Prop where
  /-- A field that the walk over an instance meets holds a payload that does not suit it. -/
  | field {o : ObjectValue} {t : TypeId} {f : FieldId} {payload : Payload}
    (visited : .field f ∈ c.instanceParts t) (holds : o.fields.lookup f = some payload)
    (unsuited : c.Unsuited (c.field f).type payload)
    (noCode : ∀ p, payload = .code p → ¬ c.TakesCode f) :
    Offends c (.object o) t (.typeConsistency payload (c.placeOf f))
  /-- Such a field holds a code pointer to an exception handler. -/
  | handler {o : ObjectValue} {t : TypeId} {f : FieldId} {p : CodePointerId} {name : String}
    (visited : .field f ∈ c.instanceParts t) (holds : o.fields.lookup f = some (.code p))
    (takes : c.TakesCode f) (target : c.codePointer? p = some (.handler name)) :
    Offends c (.object o) t (.handlerPointer name (c.placeOf f))
  /-- An element holds a payload that does not suit the type of the elements. -/
  | element {a : ArrayValue} {t element : TypeId} {i : Nat} {payload : Payload}
    (kind : (c.typeDef a.context).kind = .array element) (holds : a.held[i]? = some payload)
    (unsuited : c.Unsuited element payload) :
    Offends c (.array a) t (.typeConsistency payload (.element i (c.typeName a.context)))
  /-- There are more or fewer elements than the length says. -/
  | count {a : ArrayValue} {t element : TypeId}
    (kind : (c.typeDef a.context).kind = .array element) (ne : a.held.length ≠ a.length) :
    Offends c (.array a) t
      (.violation (.elementCount (c.typeName a.context) a.length a.held.length))

/-- Whether a failure names a value that offends, as an instance of its own type. -/
def Blamed (c : Catalog) (f : Failure) : Prop :=
  ∃ d v, f.descriptor = some d ∧ c.descriptor? d = some v ∧ c.Offends v v.context f.cause

/-- Whether a failure is about contents only as one with a name that is rightly blamed. -/
def BlamesRightly (c : Catalog) (f : Failure) : Prop :=
  f.cause.isOfContent = true → c.Blamed f

/-- The same while a value is built, whose own offences are not given a name yet. -/
def BlamesWithin (c : Catalog) (own : Cause → Prop) (f : Failure) : Prop :=
  f.cause.isOfContent = true → f.descriptor = none ∧ own f.cause ∨ c.Blamed f

variable {c : Catalog} {own : Cause → Prop}

/-- Nobody is to blame for a rule that is broken. -/
theorem BlamesRightly.of_isOfRules {f : Failure} (h : f.cause.isOfRules = true) :
    c.BlamesRightly f := by
  intro hcause
  rw [Cause.isOfContent_of_isOfRules h] at hcause
  cases hcause

theorem BlamesRightly.blamesWithin {f : Failure} (h : c.BlamesRightly f) : c.BlamesWithin own f :=
  fun hcause => Or.inr (h hcause)

/-- **A failure takes its name** where the contents of a value are left. -/
theorem BlamesWithin.within {d : DescriptorId} {v : Descriptor} (hd : c.descriptor? d = some v)
    {f : Failure} (h : c.BlamesWithin (c.Offends v v.context) f) :
    c.BlamesRightly (f.within d) := by
  intro hcause
  obtain ⟨hnone, hown⟩ | ⟨e, w, he, hw, hoffends⟩ := h hcause
  · exact ⟨d, v, by rw [Failure.within, hnone]; rfl, hd, hown⟩
  · exact ⟨e, w, by rw [Failure.within, he]; rfl, hw, hoffends⟩

end Catalog

namespace Build

variable {α : Type} {c : Catalog} {own : Cause → Prop}

/-! ## Steps that no value is to blame for -/

section

variable {x : Build α} (hx : Raises Cause.isOfRules x)

include hx

theorem Raises.blamesRightly : FailsOnly c.BlamesRightly x :=
  hx.failsOnly.mono fun _ hf => .of_isOfRules hf

theorem Raises.blamesWithin : FailsOnly (c.BlamesWithin own) x :=
  hx.blamesRightly.mono fun _ h => h.blamesWithin

end

/-- A code pointer leads to an exception handler, or a rule is broken. -/
theorem codeContents_blames {t : TypeId} {place : Place} {p : CodePointerId}
    (hown : ∀ name, c.codePointer? p = some (.handler name) → own (.handlerPointer name place)) :
    FailsOnly (c.BlamesWithin own) (codeContents c t place p) := by
  unfold codeContents
  cases hp : c.codePointer? p with
  | none => exact (violate_raises rfl).blamesWithin
  | some target =>
    cases target with
    | method m =>
      exact (declarationOf_raises_rules m).blamesWithin.bind fun _ =>
        (layoutOf_raises t).blamesWithin.then_pure _
    | handler name => exact .throw fun _ => Or.inl ⟨rfl, hown name hp⟩

section

variable {contents : DescriptorId → Build Constant}
  (hcontents : ∀ d, FailsOnly c.BlamesRightly (contents d))

include hcontents

theorem requestWith_blames (d : DescriptorId) :
    FailsOnly c.BlamesRightly (requestWith c contents d) := by
  rw [requestWith]
  refine .get_bind fun s => ?_
  cases s.global? d with
  | some g => exact .pure _
  | none =>
    refine .descriptor_bind (.of_isOfRules rfl) fun v _ => ?_
    dsimp only
    split
    · exact FailsOnly.throw_bind (Catalog.BlamesRightly.of_isOfRules rfl) _
    · split
      · exact ((hcontents d).whileBuilding d).bind fun built =>
          (FailsOnly.onModule _).bind fun g => (register_raises d g).blamesRightly
      · exact (layoutOf_raises _).blamesRightly.bind fun layout =>
          (FailsOnly.onModule _).bind fun g => (register_raises d g).blamesRightly

/-! ## Fields and elements -/

theorem payloadContents_blames {t : TypeId} {place : Place} {payload : Payload}
    (hown : c.Unsuited t payload → own (.typeConsistency payload place)) :
    FailsOnly (c.BlamesWithin own) (payloadContents c contents t place payload) := by
  unfold payloadContents
  cases payload with
  | null => exact (scalar_raises t 0).blamesWithin
  | scalar raw =>
    dsimp only
    split
    · exact (scalar_raises t raw).blamesWithin
    · rename_i hscalar
      exact .throw fun _ => Or.inl ⟨rfl, hown (Bool.eq_false_iff.2 hscalar)⟩
  | descriptor d =>
    have hrules {d : DescriptorId} : c.BlamesRightly
        { cause := .violation (.unknownDescriptor d) } := .of_isOfRules rfl
    refine .descriptor_bind hrules.blamesWithin fun v _ => ?_
    split
    · exact (hcontents d).mono fun _ h => h.blamesWithin
    · exact ((requestWith_blames hcontents d).mono fun _ h => h.blamesWithin).then_pure _
  | code p => exact .throw fun _ => Or.inl ⟨rfl, hown trivial⟩

variable {o : ObjectValue} {t : TypeId}

/-- **A field** is to blame for what it holds itself. -/
theorem fieldContents_blames {f : FieldId} (visited : .field f ∈ c.instanceParts t) :
    FailsOnly (c.BlamesWithin (c.Offends (.object o) t)) (fieldContents c contents o f) := by
  unfold fieldContents
  dsimp only
  cases hheld : o.fields.lookup f with
  | none => exact (storageOf_raises _).blamesWithin.then_pure _
  | some payload =>
    have payloads : (∀ p, payload = .code p → ¬ c.TakesCode f) →
        FailsOnly (c.BlamesWithin (c.Offends (.object o) t))
          (payloadContents c contents (c.field f).type (c.placeOf f) payload) :=
      fun noCode => payloadContents_blames hcontents fun unsuited =>
        .field visited hheld unsuited noCode
    cases payload with
    | null => exact payloads nofun
    | scalar raw => exact payloads nofun
    | descriptor d => exact payloads nofun
    | code p =>
      dsimp only
      split
      · rename_i htarget
        exact codeContents_blames fun _ target => .handler visited hheld (.inl htarget) target
      · rename_i htarget
        split
        · rename_i htype
          exact (codeContents_blames fun _ target =>
            .handler visited hheld (.inr htype) target).bind fun _ =>
              (layoutOf_raises _).blamesWithin.then_pure _
        · rename_i htype
          exact payloads fun _ _ takes => takes.elim htarget htype

theorem regionContents_blames {u : TypeId} {offset : Nat}
    (hparts : c.region u offset ⊆ c.instanceParts t) :
    FailsOnly (c.BlamesWithin (c.Offends (.object o) t))
      (regionContents c contents o u offset) := by
  refine FailsOnly.mapM fun part hpart => ?_
  cases part with
  | padding => exact (scalar_raises _ _).blamesWithin
  | field f => exact fieldContents_blames hcontents (hparts hpart)
  | zeroSized offset => exact (violate_raises rfl).blamesWithin
  | overflow offset =>
    exact (Raises.throw (p := Cause.isOfRules) (f := { cause := .overflow }) rfl).blamesWithin

/-! ## Objects -/

theorem headerContents_blames (context : TypeId) (isMutable : Bool) :
    FailsOnly (c.BlamesWithin own) (headerContents c contents context isMutable) := by
  unfold headerContents
  split
  · exact (violate_raises rfl).blamesWithin
  · exact (scalar_raises _ _).blamesWithin.bind fun word =>
      ((requestWith_blames hcontents _).mono fun _ h => h.blamesWithin).bind fun table =>
        (layoutOf_raises _).blamesWithin.bind fun header =>
          (layoutOf_raises _).blamesWithin.then_pure _

theorem topContents_blames {u : TypeId}
    (hparts : u ≠ Core.object → c.region u 0 ⊆ c.instanceParts t) :
    FailsOnly (c.BlamesWithin (c.Offends (.object o) t)) (topContents c contents o u) := by
  unfold topContents
  split
  · exact headerContents_blames hcontents _ _
  · rename_i hobject
    exact (regionContents_blames hcontents (hparts hobject)).bind fun fields =>
      (layoutOf_raises u).blamesWithin.then_pure _

theorem classContents_blames {u : TypeId} (base : Constant)
    (hparts : c.region u (c.ownStart u) ⊆ c.instanceParts t) :
    FailsOnly (c.BlamesWithin (c.Offends (.object o) t)) (classContents c contents o base u) := by
  unfold classContents
  refine (regionContents_blames hcontents hparts).bind fun own => ?_
  split
  · have hchars : Raises Cause.isOfRules (characters c o) :=
      (storageOf_raises _).bind fun _ => (Raises.mapM (fun _ => scalar_raises _ _) _).then_pure _
    exact hchars.blamesWithin.then_pure _
  · exact (layoutOf_raises u).blamesWithin.then_pure _

/-- **An object** is to blame for what the fields hold that the walk over an instance meets. -/
theorem objectContents_blames :
    FailsOnly (c.BlamesWithin (c.Offends (.object o) t)) (objectContents c contents o t) := by
  unfold objectContents
  cases hancestry : c.ancestry t with
  | error e => exact (violate_raises rfl).blamesWithin
  | ok a =>
    have hparts : c.instanceParts t = (if a.top = Core.object then [] else c.region a.top 0) ++
        a.below.flatMap fun u => c.region u (c.ownStart u) := by
      rw [Catalog.instanceParts, hancestry]
    refine (topContents_blames hcontents fun hobject => ?_).bind
      (FailsOnly.foldlM fun base u hu => classContents_blames hcontents base ?_)
    · rw [hparts, if_neg hobject]
      exact List.subset_append_left _ _
    · rw [hparts]
      exact fun part hpart => List.mem_append_right _ (List.mem_flatMap.2 ⟨u, hu, hpart⟩)

/-! ## Arrays -/

/-- **An array** is to blame for what its elements hold, and for their number. -/
theorem arrayContents_blames {a : ArrayValue} :
    FailsOnly (c.BlamesWithin (c.Offends (.array a) t)) (arrayContents c contents a) := by
  unfold arrayContents
  split
  · rename_i element kind
    refine (headerContents_blames hcontents _ _).bind fun header =>
      (scalar_raises _ _).blamesWithin.bind fun length =>
        (layoutOf_raises _).blamesWithin.bind fun layout => ?_
    have count : a.held.length ≠ a.length → c.BlamesWithin (c.Offends (.array a) t)
        { cause := .violation (.elementCount (c.typeName a.context) a.length a.held.length) } :=
      fun ne _ => Or.inl ⟨rfl, .count kind ne⟩
    cases hvalues : a.values with
    | some values =>
      have hheld : a.held = values := by rw [ArrayValue.held, hvalues, Option.getD_some]
      rw [hheld] at count
      refine FailsOnly.bind ?_ fun elements => (storageOf_raises _).blamesWithin.then_pure _
      unfold valueElements
      dsimp only
      split
      · rename_i hlength
        exact FailsOnly.throw_bind (count hlength) _
      · refine FailsOnly.mapM fun entry hentry => ?_
        refine payloadContents_blames hcontents fun unsuited => ?_
        exact .element kind (by rw [hheld]; exact List.mem_zipIdx_iff_getElem?.1 hentry) unsuited
    | none =>
      have hheld : a.held = (a.source.getD []).map .scalar := by
        rw [ArrayValue.held, hvalues, Option.getD_none]
      rw [hheld, List.length_map] at count
      refine FailsOnly.bind ?_ fun elements => (storageOf_raises _).blamesWithin.then_pure _
      unfold sourceElements
      dsimp only
      split
      · rename_i hlength
        exact FailsOnly.throw_bind (count hlength) _
      · split
        · exact .pure []
        · rename_i first rest hsource
          split
          · rename_i hscalar
            refine FailsOnly.throw_bind (fun _ => Or.inl ⟨rfl, .element kind ?_ ?_⟩) _
            · rw [hheld, hsource]
              rfl
            · simpa [Catalog.Unsuited] using hscalar
          · exact (Raises.mapM (fun raw => scalar_raises element raw) _).blamesWithin
  · exact (violate_raises rfl).blamesWithin

/-! ## Values -/

theorem valueContents_blames {v : Descriptor} :
    FailsOnly (c.BlamesWithin (c.Offends v t)) (valueContents c contents v t) := by
  cases v with
  | object o => exact objectContents_blames hcontents
  | array a => exact arrayContents_blames hcontents

end

/-- A value is built as an instance of its own type, with the name of the one that offends. -/
theorem contentsWithin_blames {depth : Nat} {d : DescriptorId} {t : TypeId}
    (ht : ∀ v, c.descriptor? d = some v → v.context = t) :
    FailsOnly c.BlamesRightly (contentsWithin c depth d t) := by
  induction depth generalizing d t with
  | zero => exact (violate_raises rfl).blamesRightly
  | succ depth ih =>
    rw [contentsWithin]
    refine .descriptor_bind (.of_isOfRules rfl) fun v hv => ?_
    obtain rfl := ht v hv
    refine (valueContents_blames fun inner => ?_).within fun f h => h.within hv
    refine .descriptor_bind (.of_isOfRules rfl) fun w hw => ih fun w' hw' => ?_
    rw [Option.some.inj (hw'.symm.trans hw)]

theorem contentsOf_blames (d : DescriptorId) : FailsOnly c.BlamesRightly (contentsOf c d) :=
  .descriptor_bind (.of_isOfRules rfl) fun v hv => contentsWithin_blames fun w hw => by
    rw [Option.some.inj (hw.symm.trans hv)]

/-! ## Calls -/

theorem request_blames (d : DescriptorId) : FailsOnly c.BlamesRightly (request c d) :=
  requestWith_blames contentsOf_blames d

theorem fill_blames (d : DescriptorId) (g : GlobalId) :
    FailsOnly c.BlamesRightly (fill c d g) := by
  rw [fill]
  refine (contentsOf_blames d).bind fun built => .descriptor_bind (.of_isOfRules rfl) fun v _ => ?_
  split
  · exact (FailsOnly.onModule _).bind fun fresh => FailsOnly.modifyModule _
  · exact FailsOnly.modifyModule _

theorem materialize_blames (d : DescriptorId) :
    FailsOnly c.BlamesRightly (materialize c d) := by
  rw [materialize]
  refine (request_blames d).bind fun g => .get_bind fun s => ?_
  split
  · exact (fill_blames d g).then_pure _
  · exact .pure g

theorem resolveFrom_blames (steps start filled : Nat) :
    FailsOnly c.BlamesRightly (resolveFrom c steps start filled) := by
  induction steps generalizing start filled with
  | zero => exact .pure filled
  | succ steps ih =>
    rw [resolveFrom]
    refine .get_bind fun s => ?_
    split
    · exact .pure filled
    · exact (fill_blames _ _).bind fun _ => ih _ _

/-- **Failures name the value at fault.** Whatever the image is, if the contents of a value, its
global, its global with contents or the contents of all placeholders are asked for and the failure
is about what a value holds, then it names a value that holds just that: an object one of whose
fields, met by the walk over an instance and named in the message, holds the reported payload or a
code pointer to the reported handler; or an array whose element at the reported index holds the
payload, or which has another number of elements than its length says. -/
theorem blamed_of_failure {c : Catalog} {s s' : Image} {f : Failure}
    (hfails : (∃ d, contentsOf c d s = .error f s') ∨ (∃ d, request c d s = .error f s') ∨
      (∃ d, materialize c d s = .error f s') ∨ resolveAll c s = .error f s')
    (hcause : f.cause.isOfContent = true) :
    ∃ d v, f.descriptor = some d ∧ c.descriptor? d = some v ∧
      c.Offends v v.context f.cause := by
  obtain ⟨d, h⟩ | ⟨d, h⟩ | ⟨d, h⟩ | h := hfails
  · exact contentsOf_blames d s f s' h hcause
  · exact request_blames d s f s' h hcause
  · exact materialize_blames d s f s' h hcause
  · exact resolveFrom_blames _ 0 0 s f s' h hcause

end Build

/-- A shelf with an array of one cell, which is put in place there and holds a code pointer to a
handler. -/
def Catalog.shelf : Catalog :=
  let shelf : TypeId := ⟨18⟩
  let cell : TypeId := ⟨19⟩
  let cells : TypeId := ⟨20⟩
  let items : FieldId := ⟨8⟩
  let run : FieldId := ⟨9⟩
  let c := ((new 4).addClass "Shelf" Core.object 12).2
  let c := (c.addValueType "Cell" 4).2
  let c := (c.addArrayType cell).2
  let c := (c.addField shelf "Items" 8 cells).2
  let c := (c.addField cell "Run" 0 Core.codePointer).2
  let c := (c.addCodePointer (.handler "catch")).2
  let c := (c.addDescriptor (.object
    { context := shelf, isMutable := true, fields := [(items, .descriptor ⟨7⟩)] })).2
  let c := (c.addDescriptor (.array
    { context := cells, isMutable := true, length := 1, values := some [.descriptor ⟨8⟩] })).2
  (c.addDescriptor (.object
    { context := cell, nesting := some ⟨7⟩, isMutable := true, fields := [(run, .code ⟨0⟩)] })).2

/-- The shelf is asked for with its contents, and the cell is to blame. -/
theorem Build.blamed_of_failure_shelf : ∃ f s v,
    materialize Catalog.shelf ⟨6⟩ (Image.new Catalog.shelf "Shelf") = .error f s ∧
      f.message = "unsupported: exception handler code pointers (handler catch in " ++
        "field Run of Cell) (descriptor #8)" ∧
      Catalog.shelf.descriptor? ⟨8⟩ = some v ∧ Catalog.shelf.Offends v v.context f.cause := by
  have hrun : (materialize Catalog.shelf ⟨6⟩).failsWith (Image.new Catalog.shelf "Shelf")
      (fun f => f.descriptor = some ⟨8⟩ && f.cause.isOfContent &&
        f.message = "unsupported: exception handler code pointers (handler catch in " ++
          "field Run of Cell) (descriptor #8)") = true := by decide +kernel
  obtain ⟨f, s, h, hf⟩ := exists_of_failsWith hrun
  simp only [Bool.and_eq_true, decide_eq_true_eq] at hf
  obtain ⟨⟨hname, hcause⟩, hmessage⟩ := hf
  obtain ⟨d, v, hd, hv, hoffends⟩ := blamed_of_failure (.inr (.inr (.inl ⟨⟨6⟩, h⟩))) hcause
  obtain rfl := Option.some.inj (hd.symm.trans hname)
  exact ⟨f, s, v, h, hmessage, hv, hoffends⟩

end DataImage
