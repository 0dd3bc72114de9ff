import DataImage.Proofs.Catalog.Forms

/-!
# What a value cites

Which values a value mentions can be read off the catalog without building anything: what the fields
hold that lie in the regions of its type, what its elements hold, its virtual table if it has a
header, and the same for the values that are put in place inside it. This is `Catalog.Cites`.

`Catalog.mem_references_iff_cites` says that the contents of a value refer to exactly the standalone
values that the value cites. On the way there, `Catalog.valueAs?_references` gives the references in
their order: the virtual table first, then what the payloads refer to, one after the other.
-/

namespace DataImage

/-- What the fields among some parts of an object hold. -/
def ObjectValue.payloads (o : ObjectValue) (parts : List Part) : List Payload :=
  parts.filterMap fun
    | .field f => o.fields.lookup f
    | .padding | .zeroSized _ | .overflow _ => none

theorem ObjectValue.payloads_field (o : ObjectValue) (f : FieldId) :
    o.payloads [.field f] = (o.fields.lookup f).toList := by
  cases h : o.fields.lookup f <;> simp [payloads, h]

theorem Value.referencesAll_append (vs ws : List Value) :
    referencesAll (vs ++ ws) = referencesAll vs ++ referencesAll ws := by
  induction vs with
  | nil => rfl
  | cons v vs ih =>
    rw [List.cons_append, referencesAll, referencesAll, ih, List.append_assoc]

namespace Catalog

variable (c : Catalog)

/-! ## Citations -/

/-- The parts that the walk over an instance of a type meets. The root class has no parts. -/
def instanceParts (t : TypeId) : List Part :=
  match c.ancestry t with
  | .error _ => []
  | .ok a => (if a.top = Core.object then [] else c.region a.top 0) ++
      a.below.flatMap fun u => c.region u (c.ownStart u)

/-- Whether an instance starts with the header of the root class. -/
def hasHeader : Descriptor → Bool
  | .array _ => true
  | .object o =>
    match c.ancestry o.context with
    | .error _ => false
    | .ok a => a.top = Core.object

/-- What the fields of an object or the elements of an array hold. -/
def payloads : Descriptor → List Payload
  | .object o => o.payloads (c.instanceParts o.context)
  | .array a => a.values.getD []

/-- Whether a value mentions another one, itself or in a value that is put in place inside it. -/
inductive Cites : DescriptorId → DescriptorId → Prop where
  /-- A field or an element holds the value. -/
  | payload {d e : DescriptorId} {v : Descriptor} : c.descriptor? d = some v →
      .descriptor e ∈ c.payloads v → Cites d e
  /-- The value is the virtual table in the header. -/
  | table {d e : DescriptorId} {v : Descriptor} : c.descriptor? d = some v →
      c.hasHeader v = true → c.vtable? v.context = some e → Cites d e
  /-- A value that is put in place mentions the value. -/
  | inlined {d p e : DescriptorId} {v w : Descriptor} : c.descriptor? d = some v →
      .descriptor p ∈ c.payloads v → c.descriptor? p = some w → w.isNested = true → Cites p e →
      Cites d e

/-- Whether a value exists and is no part of another one. -/
def Standalone (e : DescriptorId) : Prop := ∃ v, c.descriptor? e = some v ∧ v.isNested = false

/-! ## References of payloads -/

section

variable (part : DescriptorId → Option Value)

/-- The values that a payload refers to, given what the parts of a value become. -/
def payloadReferences? : Payload → Option (List DescriptorId)
  | .descriptor d => (c.descriptor? d).bind fun w =>
    if w.isNested then (part d).map Value.references else some [d]
  | .null | .scalar _ | .code _ => some []

/-- The values that payloads refer to, one payload after the other. -/
def references? (ps : List Payload) : Option (List DescriptorId) :=
  (ps.mapM (c.payloadReferences? part)).map List.flatten

/-- The virtual table that a value refers to. -/
def tableReferences (v : Descriptor) : List DescriptorId :=
  if c.hasHeader v then (c.vtable? v.context).toList else []

end

variable {c} {part : DescriptorId → Option Value}

theorem references?_append {ps qs : List Payload} {rs rs' : List DescriptorId}
    (h : c.references? part ps = some rs) (h' : c.references? part qs = some rs') :
    c.references? part (ps ++ qs) = some (rs ++ rs') := by
  obtain ⟨rss, hrss, rfl⟩ := Option.map_eq_some_iff.1 h
  obtain ⟨rss', hrss', rfl⟩ := Option.map_eq_some_iff.1 h'
  rw [references?, List.mapM_append, hrss, hrss', ← List.flatten_append]
  rfl

theorem references?_singleton {p : Payload} {rs : List DescriptorId}
    (h : c.payloadReferences? part p = some rs) : c.references? part [p] = some rs := by
  rw [references?, List.mapM_cons, h]
  simp

theorem mem_of_references? {ps : List Payload} {rs : List DescriptorId}
    (h : c.references? part ps = some rs) {e : DescriptorId} :
    e ∈ rs ↔ ∃ p ∈ ps, ∃ es, c.payloadReferences? part p = some es ∧ e ∈ es := by
  obtain ⟨rss, hrss, rfl⟩ := Option.map_eq_some_iff.1 h
  have hall := Partial.mapM_eq_some_iff.1 hrss
  rw [List.mem_flatten]
  constructor
  · rintro ⟨es, hes, he⟩
    obtain ⟨p, hp, hpes⟩ := Partial.exists_of_forall₂_right hall hes
    exact ⟨p, hp, es, hpes, he⟩
  · rintro ⟨p, hp, es, hpes, he⟩
    obtain ⟨es', hes', hpes'⟩ := Partial.exists_of_forall₂_right hall.flip hp
    obtain rfl := Option.some.inj (hpes.symm.trans hpes')
    exact ⟨es, hes', he⟩

/-- Every payload of a value that was built has its references. -/
theorem exists_payloadReferences? {ps : List Payload} {rs : List DescriptorId}
    (h : c.references? part ps = some rs) {p : Payload} (hp : p ∈ ps) :
    ∃ es, c.payloadReferences? part p = some es := by
  obtain ⟨rss, hrss, -⟩ := Option.map_eq_some_iff.1 h
  obtain ⟨es, -, hes⟩ :=
    Partial.exists_of_forall₂_right (Partial.mapM_eq_some_iff.1 hrss).flip hp
  exact ⟨es, hes⟩

/-! ## References of contents -/

/-- Integers refer to nothing. -/
theorem references_scalar? {t : TypeId} {raw : UInt64} {v : Value}
    (h : c.scalar? t raw = some v) : v.references = [] := by
  obtain ⟨-, ⟨-, -, rfl⟩ | ⟨-, -, -, rfl⟩⟩ := scalar?_eq_some_iff.1 h
  · rfl
  · rfl

theorem references_code? {t : TypeId} {p : CodePointerId} {v : Value}
    (h : c.code? t p = some v) : v.references = [] := by
  obtain ⟨m, -, -, -, rfl⟩ := code?_eq_some_iff.1 h
  rfl

theorem references_codeField? {f : FieldId} {p : CodePointerId} {v : Value}
    (h : c.codeField? f p = some v) : v.references = [] := by
  unfold codeField? at h
  split at h
  · exact references_code? h
  · split at h
    · obtain ⟨target, htarget, h⟩ := Option.bind_eq_some_iff.1 h
      obtain ⟨-, rfl⟩ := instance?_eq_some_iff.1 h
      simp [Value.references, Value.referencesAll, references_code? htarget]
    · cases h

theorem payloadReferences?_payload? {t : TypeId} {p : Payload} {v : Value}
    (h : c.payload? part t p = some v) : c.payloadReferences? part p = some v.references := by
  cases p with
  | null => rw [references_scalar? h, payloadReferences?]
  | scalar raw =>
    rw [payload?] at h
    split at h
    · rw [references_scalar? h, payloadReferences?]
    · cases h
  | descriptor d =>
    obtain ⟨w, hw, h⟩ := Option.bind_eq_some_iff.1 h
    rw [payloadReferences?, hw, Option.bind_some]
    split at h
    · rename_i hnested
      rw [if_pos hnested, h, Option.map_some]
    · rename_i hnested
      obtain rfl := Option.some.inj h
      rw [if_neg hnested, Value.references]
  | code p => cases h

/-- Payloads refer to what the values refer to that they become. -/
theorem references?_mapM {t : TypeId} {ps : List Payload} {vs : List Value}
    (h : ps.mapM (c.payload? part t) = some vs) :
    c.references? part ps = some (Value.referencesAll vs) := by
  have hall := Partial.mapM_eq_some_iff.1 h
  clear h
  induction hall with
  | nil => rfl
  | cons hv _ ih =>
    exact references?_append (references?_singleton (payloadReferences?_payload? hv)) ih

theorem references?_held? {o : ObjectValue} {f : FieldId} {v : Value}
    (h : c.held? part f (o.fields.lookup f) = some v) :
    c.references? part (o.payloads [.field f]) = some v.references := by
  rw [o.payloads_field]
  rcases hheld : o.fields.lookup f with _ | _ | raw | d | p
  all_goals rw [hheld] at h
  · obtain ⟨-, rfl⟩ := zero?_eq_some_iff.1 h
    rfl
  · exact references?_singleton (payloadReferences?_payload? (p := .null) h)
  · exact references?_singleton (payloadReferences?_payload? (p := .scalar raw) h)
  · exact references?_singleton
      (payloadReferences?_payload? (t := (c.field f).type) (p := .descriptor d) h)
  · rw [references_codeField? h]
    rfl

theorem references?_regionValues? {o : ObjectValue} {t : TypeId} {offset : Nat} {vs : List Value}
    (h : c.regionValues? part o t offset = some vs) :
    c.references? part (o.payloads (c.region t offset)) = some (Value.referencesAll vs) := by
  have hall := Partial.mapM_eq_some_iff.1 h
  generalize c.region t offset = parts at hall
  clear h
  induction hall with
  | nil => rfl
  | @cons p v ps vs hv _ ih =>
    have hp : c.references? part (o.payloads [p]) = some v.references := by
      cases p with
      | padding =>
        rw [references_scalar? hv]
        rfl
      | field f => exact references?_held? hv
      | zeroSized offset | overflow offset => cases hv
    have hsplit : o.payloads (p :: ps) = o.payloads [p] ++ o.payloads ps := by
      rw [ObjectValue.payloads, ← List.singleton_append, List.filterMap_append]
      rfl
    rw [hsplit]
    exact references?_append hp ih

theorem referencesAll_eq_nil {vs : List Value} (h : ∀ v ∈ vs, v.references = []) :
    Value.referencesAll vs = [] := by
  induction vs with
  | nil => rfl
  | cons v vs ih =>
    rw [Value.referencesAll, h v List.mem_cons_self,
      ih fun w hw => h w (List.mem_cons_of_mem _ hw), List.append_nil]

theorem referencesAll_mapM_scalar? {α : Type} {t : TypeId} {raw : α → UInt64} {l : List α}
    {vs : List Value} (h : (l.mapM fun a => c.scalar? t (raw a)) = some vs) :
    Value.referencesAll vs = [] := by
  refine referencesAll_eq_nil fun v hv => ?_
  obtain ⟨a, -, ha⟩ := Partial.exists_of_forall₂_right (Partial.mapM_eq_some_iff.1 h) hv
  exact references_scalar? ha

/-- A header refers to the virtual table. -/
theorem references_header? {context : TypeId} {isMutable : Bool} {v : Value}
    (h : c.header? context isMutable = some v) : v.references = (c.vtable? context).toList := by
  obtain ⟨vtable, word, hvtable, hword, -, -, rfl⟩ := header?_eq_some_iff.1 h
  simp [Value.references, Value.referencesAll, references_scalar? hword, hvtable]

/-- An instance of a class refers to what the instance of its base refers to, and then to what its
own fields refer to. -/
theorem references_class? {o : ObjectValue} {base v : Value} {t : TypeId}
    (h : c.class? part o base t = some v) :
    ∃ rs, c.references? part (o.payloads (c.region t (c.ownStart t))) = some rs ∧
      v.references = base.references ++ rs := by
  obtain ⟨own, hown, h⟩ := class?_eq_some_iff.1 h
  refine ⟨_, references?_regionValues? hown, ?_⟩
  obtain ⟨-, chars, hchars, rfl⟩ | ⟨-, -, rfl⟩ := h
  · have hnone : chars.references = [] := by
      obtain ⟨-, units, hunits, rfl⟩ := characters?_eq_some_iff.1 hchars
      exact referencesAll_mapM_scalar? hunits
    rw [Value.references, Value.referencesAll_append, Value.referencesAll, Value.referencesAll,
      hnone, Value.referencesAll, List.append_nil, List.append_nil]
  · rfl

theorem references_foldlM {o : ObjectValue} {below : List TypeId} {base v : Value}
    (h : below.foldlM (c.class? part o) base = some v) :
    ∃ rs, c.references? part (o.payloads (below.flatMap fun u => c.region u (c.ownStart u))) =
        some rs ∧ v.references = base.references ++ rs := by
  induction below generalizing base with
  | nil =>
    obtain rfl := Option.some.inj h
    exact ⟨[], rfl, (List.append_nil _).symm⟩
  | cons t below ih =>
    rw [List.foldlM_cons, Option.bind_eq_bind, Option.bind_eq_some_iff] at h
    obtain ⟨w, hw, h⟩ := h
    obtain ⟨rs, hrs, hwr⟩ := references_class? hw
    obtain ⟨rs', hrs', hvr⟩ := ih h
    refine ⟨rs ++ rs', ?_, by rw [hvr, hwr, List.append_assoc]⟩
    rw [List.flatMap_cons, ObjectValue.payloads, List.filterMap_append]
    exact references?_append hrs hrs'

theorem references_object? {o : ObjectValue} {v : Value}
    (h : c.object? part o o.context = some v) :
    ∃ rs, c.references? part (c.payloads (.object o)) = some rs ∧
      v.references = c.tableReferences (.object o) ++ rs := by
  obtain ⟨a, top, ha, htop, h⟩ := object?_eq_some_iff.1 h
  obtain ⟨rs, hrs, hv⟩ := references_foldlM h
  have hpayloads : c.payloads (.object o) =
      o.payloads (if a.top = Core.object then [] else c.region a.top 0) ++
        o.payloads (a.below.flatMap fun u => c.region u (c.ownStart u)) := by
    rw [payloads, instanceParts, ha]
    exact List.filterMap_append
  rw [hpayloads, hv, tableReferences, hasHeader, ha]
  obtain ⟨ht, htop⟩ | ⟨ht, -, fields, hfields, rfl⟩ := top?_eq_some_iff.1 htop
  · refine ⟨rs, ?_, ?_⟩
    · rw [if_pos ht]
      exact hrs
    · rw [references_header? htop]
      simp [ht, Descriptor.context]
  · refine ⟨Value.referencesAll fields ++ rs, ?_, ?_⟩
    · rw [if_neg ht]
      exact references?_append (references?_regionValues? hfields) hrs
    · simp [ht, Value.references]

theorem references_array? {a : ArrayValue} {v : Value} (h : c.array? part a = some v) :
    ∃ rs, c.references? part (c.payloads (.array a)) = some rs ∧
      v.references = c.tableReferences (.array a) ++ rs := by
  obtain ⟨element, base, elements, -, hbase, helements, -, rfl⟩ := array?_eq_some_iff.1 h
  obtain ⟨header, length, hheader, hlength, -, rfl⟩ := arrayBase?_eq_some_iff.1 hbase
  refine ⟨Value.referencesAll elements, ?_, ?_⟩
  · rw [payloads]
    obtain ⟨values, hvalues, -, hmap⟩ | ⟨hvalues, -, -, hmap⟩ := elements?_eq_some_iff.1 helements
    · rw [hvalues]
      exact references?_mapM hmap
    · rw [hvalues, referencesAll_mapM_scalar? hmap]
      rfl
  · simp [Value.references, Value.referencesAll, references_header? hheader,
      references_scalar? hlength, tableReferences, hasHeader, Descriptor.context]

/-- **The references of a value**: its virtual table, and what its payloads refer to. -/
theorem valueAs?_references {w : Descriptor} {v : Value}
    (h : c.valueAs? part w w.context = some v) :
    ∃ rs, c.references? part (c.payloads w) = some rs ∧
      v.references = c.tableReferences w ++ rs := by
  cases w with
  | object o => exact references_object? h
  | array a => exact references_array? h

/-! ## References and citations -/

theorem mem_tableReferences {w : Descriptor} {e : DescriptorId} :
    e ∈ c.tableReferences w ↔ c.hasHeader w = true ∧ c.vtable? w.context = some e := by
  unfold tableReferences
  split <;> simp_all

/-- Contents refer to cited values only. -/
theorem cites_of_contentsWithin? {depth : Nat} {d : DescriptorId} {v : Value}
    (h : c.contentsWithin? depth d = some v) {e : DescriptorId} (he : e ∈ v.references) :
    c.Cites d e := by
  induction depth generalizing d v with
  | zero =>
    obtain ⟨w, -, h⟩ := Option.bind_eq_some_iff.1 h
    cases h
  | succ depth ih =>
    obtain ⟨w, hw, h⟩ := Option.bind_eq_some_iff.1 h
    rw [valueWithin_succ, hw, Option.bind_some] at h
    obtain ⟨rs, hrs, hv⟩ := valueAs?_references h
    rw [hv, List.mem_append, mem_tableReferences, mem_of_references? hrs] at he
    obtain ⟨hheader, htable⟩ | ⟨p, hp, es, hes, he⟩ := he
    · exact .table hw hheader htable
    · cases p with
      | descriptor b =>
        obtain ⟨u, hu, hes⟩ := Option.bind_eq_some_iff.1 hes
        split at hes
        · rename_i hnested
          obtain ⟨inner, hinner, rfl⟩ := Option.map_eq_some_iff.1 hes
          exact .inlined hw hp hu hnested (ih hinner he)
        · obtain rfl := Option.some.inj hes
          obtain rfl := List.mem_singleton.1 he
          exact .payload hw hp
      | null | scalar raw | code q =>
        obtain rfl := Option.some.inj hes
        cases he

/-- Contents refer to every standalone value that is cited. -/
theorem mem_references_of_cites {d e : DescriptorId} (h : c.Cites d e) (he : c.Standalone e)
    {v : Value} (hv : c.contents? d = some v) : e ∈ v.references := by
  induction h generalizing v with
  | @payload d e w hw hp =>
    rw [contents?_eq, hw, Option.bind_some] at hv
    obtain ⟨rs, hrs, hv⟩ := valueAs?_references hv
    obtain ⟨u, hu, hnested⟩ := he
    rw [hv, List.mem_append, mem_of_references? hrs]
    refine Or.inr ⟨.descriptor e, hp, [e], ?_, List.mem_singleton.2 rfl⟩
    rw [payloadReferences?, hu, Option.bind_some, hnested]
    rfl
  | table hw hheader htable =>
    rw [contents?_eq, hw, Option.bind_some] at hv
    obtain ⟨rs, -, hv⟩ := valueAs?_references hv
    rw [hv, List.mem_append, mem_tableReferences]
    exact Or.inl ⟨hheader, htable⟩
  | @inlined d p e w u hw hp hu hnested _ ih =>
    rw [contents?_eq, hw, Option.bind_some] at hv
    obtain ⟨rs, hrs, hv⟩ := valueAs?_references hv
    obtain ⟨es, hes⟩ := exists_payloadReferences? hrs hp
    rw [hv, List.mem_append, mem_of_references? hrs]
    refine Or.inr ⟨.descriptor p, hp, es, hes, ?_⟩
    rw [payloadReferences?, hu, Option.bind_some, if_pos hnested] at hes
    obtain ⟨inner, hinner, rfl⟩ := Option.map_eq_some_iff.1 hes
    exact ih he hinner

/-- **The contents of a value refer to exactly the standalone values that it cites.** -/
theorem mem_references_iff_cites {d e : DescriptorId} (he : c.Standalone e) {v : Value}
    (hv : c.contents? d = some v) : e ∈ v.references ↔ c.Cites d e :=
  ⟨cites_of_contentsWithin? hv, fun h => mem_references_of_cites h he hv⟩

end Catalog

end DataImage
