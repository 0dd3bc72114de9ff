import DataImage.Proofs.Catalog.Altering
import DataImage.Proofs.Description.Places

/-!
# Filling values

Once every value has a place, the places are filled one after the other. Nothing is declared any
more, so names mean the same for all values, wherever these are described. `Description.Filled` says
what a filled place holds, and `Description.Ready.fill` that filling leads there for all values.
-/

namespace DataImage.Description

variable {d : Description} {p : Nat} {c₀ c c' : Catalog} {names : Names} {e : ValueEntry}
  {T : DescriptorId → Prop} {δ : DescriptorId} {n : String}

/-! ## Payloads -/

/-- What a described payload stands for. -/
inductive Translates (names : Names) (c : Catalog) : PayloadEntry → Payload → Prop where
  | null : Translates names c .null .null
  | scalar (raw : UInt64) : Translates names c (.scalar raw) (.scalar raw)
  | value {n : String} {δ : DescriptorId} (found : names.lookup n = some δ) :
    Translates names c (.value n) (.descriptor δ)
  | method {n : String} {m : MethodId} {id : CodePointerId} (found : c.findMethod? n = some m)
    (target : c.codePointer? id = some (.method m)) : Translates names c (.method n) (.code id)
  | handler {n : String} {id : CodePointerId} (target : c.codePointer? id = some (.handler n)) :
    Translates names c (.handler n) (.code id)

theorem Translates.alters {entry : PayloadEntry} {held : Payload}
    (h : Translates names c entry held) (ha : c.Alters T c') : Translates names c' entry held := by
  cases h with
  | null => exact .null
  | scalar raw => exact .scalar raw
  | value found => exact .value found
  | method found target => exact .method ((ha.findMethod? _).trans found) (ha.codePointer? target)
  | handler target => exact .handler (ha.codePointer? target)

/-- What a described field stands for, in a value of a type. -/
def TranslatesField (names : Names) (c : Catalog) (t : TypeId) (field : String × PayloadEntry)
    (held : FieldId × Payload) : Prop :=
  c.findField? t field.1 = some held.1 ∧ Translates names c field.2 held.2

theorem TranslatesField.alters {t : TypeId} {field : String × PayloadEntry}
    {held : FieldId × Payload} (h : TranslatesField names c t field held) (ha : c.Alters T c') :
    TranslatesField names c' t field held :=
  ⟨(ha.findField? t _).trans h.1, h.2.alters ha⟩

/-- A new code pointer. -/
theorem addCodePointer_yields (target : CodeTarget) (c : Catalog) (fault : Error → Prop) :
    Yields (onCatalog (·.addCodePointer target)) c fault fun id c' =>
      c.Alters (fun _ => False) c' ∧ c'.codePointer? id = some target :=
  Yields.onCatalog (f := (·.addCodePointer target))
    ⟨.addCodePointer target, List.getElem?_concat_length⟩

section

variable (h : Ready d p names c₀)

include h

/-- Looking a value up. -/
theorem Ready.valueNamed (hn : d.CitesName n) (c : Catalog) :
    Yields (valueNamed names n) c (Faulty d p) fun δ c' => c = c' ∧ names.lookup n = some δ := by
  unfold Description.valueNamed
  cases hlookup : names.lookup n with
  | some δ => exact .pure ⟨rfl, rfl⟩
  | none =>
    refine .throw (.unknownValue hn fun e he hname => notMem_of_lookup_eq_none hlookup ?_)
    rw [h.placed.named, ← hname]
    exact List.mem_map_of_mem he

/-- Finding out what a payload stands for. -/
theorem Ready.payload (ha : c₀.Alters T c) {entry : PayloadEntry} (hentry : d.Contains entry) :
    Yields (payload names entry) c (Faulty d p) fun held c' =>
      c.Alters (fun _ => False) c' ∧ Translates names c' entry held := by
  cases entry with
  | null => exact .pure ⟨.refl c _, .null⟩
  | scalar raw => exact .pure ⟨.refl c _, .scalar raw⟩
  | value n =>
    refine (h.valueNamed (.payload hentry) c).bind ?_
    rintro δ _ ⟨rfl, hδ⟩
    exact .pure ⟨.refl c _, .value hδ⟩
  | method n =>
    unfold Description.payload
    refine .get_bind ?_
    cases hm : c.findMethod? n with
    | some m =>
      refine (addCodePointer_yields (.method m) c _).bind ?_
      rintro id c' ⟨ha', hid⟩
      exact .pure ⟨ha', .method ((ha'.findMethod? n).trans hm) hid⟩
    | none =>
      refine .throw (.unknownMethod hentry fun e he hname => ?_)
      rw [ha.findMethod?, Catalog.findMethod?, Option.map_eq_none_iff,
        List.findIdx?_eq_none_iff] at hm
      have hmem : n ∈ c₀.methods.map MethodDef.name := by
        rw [h.methods, ← hname]
        exact List.mem_map_of_mem he
      obtain ⟨x, hx, rfl⟩ := List.mem_map.1 hmem
      simpa using hm x hx
  | handler n =>
    refine (addCodePointer_yields (.handler n) c _).bind ?_
    rintro id c' ⟨ha', hid⟩
    exact .pure ⟨ha', .handler hid⟩

/-- Finding out what payloads stand for. -/
theorem Ready.payloads (ha : c₀.Alters T c) {entries : List PayloadEntry}
    (hentries : ∀ entry ∈ entries, d.Contains entry) :
    Yields (entries.mapM (Description.payload names)) c (Faulty d p) fun held c' =>
      c.Alters (fun _ => False) c' ∧ List.Forall₂ (Translates names c') entries held := by
  refine .mapM (I := fun before held c' => c.Alters (fun _ => False) c' ∧
    List.Forall₂ (Translates names c') before held) ⟨.refl c _, .nil⟩ ?_
  rintro before entry after held c₁ heq ⟨ha₁, hheld⟩
  have ha₀ : c₀.Alters T c₁ := ha.trans ha₁ fun _ => False.elim
  refine (h.payload ha₀ (hentries entry (by simp [heq]))).mono ?_
  rintro x c₂ ⟨ha₂, hx⟩
  exact ⟨ha₁.trans ha₂ fun _ => id,
    List.rel_append (hheld.imp fun _ _ h => h.alters ha₂) (.cons hx .nil)⟩

end

/-- The length of an array. -/
theorem arrayLength_yields {fault : Error → Prop} (name : String)
    (length values source : Option Nat) (c : Catalog)
    (hfault : length = none → UInt32.size ≤ (values <|> source).getD 0 →
      fault (.tooManyElements name ((values <|> source).getD 0))) :
    Yields (arrayLength name length values source) c fault fun n c' => c = c' ∧
      n = length.getD ((values <|> source).getD 0) ∧
        (length = none → (values <|> source).getD 0 < UInt32.size) := by
  unfold arrayLength
  cases length with
  | some n => exact .pure ⟨rfl, rfl, nofun⟩
  | none =>
    dsimp only
    split
    · rename_i hlt
      exact .pure ⟨rfl, rfl, fun _ => hlt⟩
    · rename_i hge
      exact .throw (hfault rfl (Nat.not_lt.1 hge))

/-! ## Values -/

/-- What the fields of a value hold once they are set one after the other. -/
def inOrder (held : List (FieldId × Payload)) : List (FieldId × Payload) :=
  held.foldl (fun kept x => Keyed.put x.1 x.2 kept) []

/-- What a value is, but for the names that it is described with. A field that is named twice keeps
its place and holds what it is said to hold last. -/
inductive Filled (names : Names) (c : Catalog) (e : ValueEntry) (nesting : Option DescriptorId) :
    Descriptor → Prop where
  | object {type : String} {fields : List (String × PayloadEntry)} {context : TypeId}
    {held : List (FieldId × Payload)} (body : e.body = .object type fields)
    (found : c.findType? type = some context)
    (translated : List.Forall₂ (TranslatesField names c context) fields held) :
    Filled names c e nesting
      (.object { context, nesting, isMutable := e.isMutable, fields := inOrder held })
  | string {text : String} (body : e.body = .string text) : Filled names c e nesting (.object
    { context := Core.string
      nesting
      isMutable := false
      fields := [(Core.stringLength, .scalar (UInt64.ofNat (Text.utf16 text).length))]
      source := some text })
  | array {type : String} {values : Option (List PayloadEntry)} {source : Option (List UInt64)}
    {length : Option Nat} {context : TypeId} {held : Option (List Payload)}
    (body : e.body = .array type values source length) (found : c.findType? type = some context)
    (translated : Option.Rel (List.Forall₂ (Translates names c)) values held)
    (count : length = none → elementCount values source < UInt32.size) :
    Filled names c e nesting (.array
      { context, nesting, isMutable := e.isMutable
        length := length.getD (elementCount values source), values := held, source })

theorem translates_alters {values : Option (List PayloadEntry)} {held : Option (List Payload)}
    (h : Option.Rel (List.Forall₂ (Translates names c)) values held) (ha : c.Alters T c') :
    Option.Rel (List.Forall₂ (Translates names c')) values held := by
  cases h with
  | none => exact .none
  | some h => exact .some (h.imp fun _ _ h => h.alters ha)

theorem Filled.alters {nesting : Option DescriptorId} {v : Descriptor}
    (h : Filled names c e nesting v) (ha : c.Alters T c') : Filled names c' e nesting v := by
  cases h with
  | object body found translated =>
    exact .object body ((ha.findType? _).trans found) (translated.imp fun _ _ h => h.alters ha)
  | string body => exact .string body
  | array body found translated count =>
    exact .array body ((ha.findType? _).trans found) (translates_alters translated ha) count

/-- What an object is filled with. -/
theorem Filled.of_object {nesting : Option DescriptorId} {v : Descriptor}
    (h : Filled names c e nesting v) {type : String} {fields : List (String × PayloadEntry)}
    (hbody : e.body = .object type fields) : ∃ context held, c.findType? type = some context ∧
      List.Forall₂ (TranslatesField names c context) fields held ∧
      v = .object { context, nesting, isMutable := e.isMutable, fields := inOrder held } := by
  cases h with
  | object body found translated =>
    rw [hbody] at body
    cases body
    exact ⟨_, _, found, translated, rfl⟩
  | string body => rw [hbody] at body; cases body
  | array body => rw [hbody] at body; cases body

/-- What an array is filled with. -/
theorem Filled.of_array {nesting : Option DescriptorId} {v : Descriptor}
    (h : Filled names c e nesting v) {type : String} {values : Option (List PayloadEntry)}
    {source : Option (List UInt64)} {length : Option Nat}
    (hbody : e.body = .array type values source length) :
    (∃ held, Option.Rel (List.Forall₂ (Translates names c)) values held) ∧
      (length = none → elementCount values source < UInt32.size) := by
  cases h with
  | object body => rw [hbody] at body; cases body
  | string body => rw [hbody] at body; cases body
  | array body _ translated count =>
    rw [hbody] at body
    cases body
    exact ⟨⟨_, translated⟩, count⟩

theorem Filled.nestedIn {v : Descriptor} (h : Filled names c e none v)
    (container : DescriptorId) : Filled names c e (some container) (v.nestedIn container) := by
  cases h with
  | object body found translated => exact .object body found translated
  | string body => exact .string body
  | array body found translated count => exact .array body found translated count

section

variable (h : Ready d p names c₀) (hplaces : d.places (Catalog.new p) = .ok (names, c₀))
  (ha : c₀.Alters T c) (hδ : ¬ c.IsTable δ) (he : e ∈ d.values)

include h ha hδ he

include hplaces in
/-- Filling a field. -/
theorem Ready.fillField {o : ObjectValue} (ho : c.descriptor? δ = some (.object o))
    {type name : String} {fields : List (String × PayloadEntry)} {entry : PayloadEntry}
    (hbody : e.body = .object type fields) (hmem : (name, entry) ∈ fields)
    (hcontext : c₀.findType? type = some o.context) :
    Yields (fillField names δ name entry) c (Faulty d p) fun _ c' => c.Alters (· = δ) c' ∧
      ∃ held, TranslatesField names c' o.context (name, entry) held ∧ c'.descriptor? δ =
        some (.object { o with fields := Keyed.put held.1 held.2 o.fields }) := by
  have hcontextOf : c.contextOf δ = o.context := Catalog.contextOf_eq ho
  unfold Description.fillField
  refine .get_bind ?_
  rw [hcontextOf]
  dsimp only
  cases hfield : c.findField? o.context name with
  | none =>
    have hname : c.typeName o.context = type := by
      rw [ha.typeName, Catalog.typeName, h.placed.settled.rooted.typeDef_eq]
      exact (h.placed.settled.rooted.findType?_eq_some_iff.1 hcontext).2
    rw [ha.findField?] at hfield
    dsimp only
    rw [hname]
    exact .throw (Faulty.unknownField hplaces he hbody hmem hcontext hfield)
  | some f =>
    refine (h.payload ha (.field he hbody hmem)).bind ?_
    rintro held c₁ ⟨ha₁, hheld⟩
    have ha₂ := Catalog.Alters.updateDescriptor (ha₁.isTable_iff.not.2 hδ) (·.withField f held)
    have ha₁₂ : c.Alters (· = δ) (c₁.setPayload δ f held) :=
      (ha₁.mono fun _ => False.elim).trans ha₂ fun _ => id
    refine .modify ⟨ha₁₂, (f, held), ⟨(ha₁₂.findField? _ _).trans hfield, hheld.alters ha₂⟩, ?_⟩
    have ho₁ := (ha₁.others δ not_false).trans ho
    rw [Catalog.setPayload, Catalog.descriptor?_updateDescriptor ho₁]
    rfl

include hplaces in
/-- Filling the fields of an object. -/
theorem Ready.fillFields {o : ObjectValue} (ho : c.descriptor? δ = some (.object o))
    {type : String} {fields : List (String × PayloadEntry)}
    (hbody : e.body = .object type fields) (hcontext : c₀.findType? type = some o.context)
    (hempty : o.fields = []) :
    Yields (fields.forM fun (field, entry) => Description.fillField names δ field entry) c
      (Faulty d p) fun _ c' => c.Alters (· = δ) c' ∧
        ∃ held, List.Forall₂ (TranslatesField names c' o.context) fields held ∧
          c'.descriptor? δ = some (.object { o with fields := inOrder held }) := by
  refine .forM (I := fun before c' => c.Alters (· = δ) c' ∧
    ∃ held, List.Forall₂ (TranslatesField names c' o.context) before held ∧
      c'.descriptor? δ = some (.object { o with fields := inOrder held }))
    ⟨.refl c _, [], .nil, by rw [ho, inOrder, List.foldl_nil, ← hempty]⟩ ?_
  rintro before ⟨name, entry⟩ after c₁ heq ⟨ha₁, held, hheld, ho₁⟩
  have ha₀ : c₀.Alters (fun δ' => T δ' ∨ δ' = δ) c₁ :=
    (ha.mono fun _ => Or.inl).trans ha₁ fun _ => Or.inr
  refine (h.fillField hplaces ha₀ (ha₁.isTable_iff.not.2 hδ) he ho₁ hbody
    (by simp [heq]) hcontext).mono ?_
  rintro _ c₂ ⟨ha₂, x, hx, ho₂⟩
  refine ⟨ha₁.trans ha₂ fun _ => id, held ++ [x], ?_, ?_⟩
  · exact List.rel_append (hheld.imp fun _ _ h => h.alters ha₂) (.cons hx .nil)
  · rw [ho₂, inOrder, inOrder, List.foldl_append]
    rfl

include hplaces in
/-- Filling the contents of a value. -/
theorem Ready.fillBody {v : Descriptor} (hv : c.descriptor? δ = some v) (hblank : Blank c₀ e v) :
    Yields (fillBody names e.name δ e.body) c (Faulty d p) fun _ c' => c.Alters (· = δ) c' ∧
      ∃ w, c'.descriptor? δ = some w ∧ Filled names c' e none w := by
  cases hblank with
  | string body =>
    rw [body]
    exact .pure ⟨.refl c _, _, hv, .string body⟩
  | object body found =>
    rw [body]
    refine (h.fillFields hplaces ha hδ he hv body found rfl).mono ?_
    rintro _ c' ⟨ha', held, hheld, ho⟩
    exact ⟨ha', _, ho, .object body
      ((ha'.findType? _).trans ((ha.findType? _).trans found)) hheld⟩
  | @array type values source length context body found =>
    rw [body]
    refine (Yields.optionMapM (I := fun held c' => c.Alters (fun _ => False) c' ∧
      Option.Rel (List.Forall₂ (Translates names c')) values held) ?_ ?_).bind ?_
    · rintro rfl
      exact ⟨.refl c _, .none⟩
    · rintro entries rfl
      refine (h.payloads ha fun x hx => .element he body hx).mono ?_
      exact fun held c' hheld => ⟨hheld.1, .some hheld.2⟩
    rintro held c₁ ⟨ha₁, hheld⟩
    have hcount : (held.map List.length <|> source.map List.length).getD 0 =
        elementCount values source := by
      cases hheld with
      | none => rfl
      | some hall => exact hall.length_eq.symm
    refine (arrayLength_yields e.name length (held.map List.length) (source.map List.length) c₁
      fun hnone hge => ?_).bind ?_
    · rw [hcount] at hge ⊢
      exact .tooManyElements he (hnone ▸ body) hge
    rintro n _ ⟨rfl, rfl, hlt⟩
    rw [hcount] at hlt ⊢
    have ha₂ := Catalog.Alters.updateDescriptor (ha₁.isTable_iff.not.2 hδ)
      (withElements (length.getD (elementCount values source)) held source)
    have ha₁₂ := (ha₁.mono fun _ => False.elim).trans ha₂ fun _ => id
    have hv₁ := (ha₁.others δ not_false).trans hv
    refine .modify ⟨ha₁₂, _, Catalog.descriptor?_updateDescriptor hv₁ _, ?_⟩
    exact .array body ((ha₁₂.findType? _).trans ((ha.findType? _).trans found))
      (translates_alters hheld ha₂) hlt

end

/-- What holds of a value that is filled: it has its contents, and it is a part of the value that it
is said to be nested in. -/
def IsFilledIn (names : Names) (c : Catalog) (e : ValueEntry) (δ : DescriptorId) : Prop :=
  ∃ nesting v, Option.Rel (fun n container => names.lookup n = some container) e.nestedIn nesting ∧
    c.descriptor? δ = some v ∧ Filled names c e nesting v

theorem IsFilledIn.alters (h : IsFilledIn names c e δ) (ha : c.Alters T c') (hδ : ¬ T δ) :
    IsFilledIn names c' e δ := by
  obtain ⟨nesting, v, hnesting, hv, hfilled⟩ := h
  exact ⟨nesting, v, hnesting, (ha.others δ hδ).trans hv, hfilled.alters ha⟩

/-! ## The names of values -/

section

variable {before : List ValueEntry} (h : HavePlaces d p before names c)

include h

/-- No two names have one place. -/
theorem HavePlaces.name_unique {m : String} (hn : names.lookup n = some δ)
    (hm : names.lookup m = some δ) : n = m :=
  congrArg Prod.fst (List.inj_on_of_nodup_map h.nodup (Partial.mem_of_lookup_eq_some hn)
    (Partial.mem_of_lookup_eq_some hm) rfl)

/-- No two values have one place. -/
theorem HavePlaces.entry_unique {e' : ValueEntry} (he : e ∈ before) (he' : e' ∈ before)
    (hn : names.lookup e.name = some δ) (hn' : names.lookup e'.name = some δ) : e = e' :=
  List.inj_on_of_nodup_map (h.named ▸ h.distinct) he he' (h.name_unique hn hn')

theorem HavePlaces.not_isTable (hn : names.lookup n = some δ) : ¬ c.IsTable δ :=
  ((h.settled.standing.apart δ).1
    (List.mem_map_of_mem (f := Prod.snd) (Partial.mem_of_lookup_eq_some hn))).2

end

/-! ## All values -/

section

variable (h : Ready d p names c₀) (hplaces : d.places (Catalog.new p) = .ok (names, c₀))

include h hplaces

/-- Filling a value and making it a part of another one. -/
theorem Ready.fillValue (ha : c₀.Alters T c) (he : e ∈ d.values)
    (hlookup : names.lookup e.name = some δ) {v : Descriptor} (hv : c.descriptor? δ = some v)
    (hblank : Blank c₀ e v) : Yields (fillValue names e) c (Faulty d p) fun _ c' =>
      c.Alters (· = δ) c' ∧ IsFilledIn names c' e δ := by
  have hδ : ¬ c.IsTable δ := ha.isTable_iff.not.2 (h.placed.not_isTable hlookup)
  have hplace : Description.valueNamed names e.name = pure δ := by
    unfold Description.valueNamed
    rw [hlookup]
  unfold Description.fillValue
  rw [hplace, pure_bind]
  refine (Yields.optionMapM (I := fun nesting c' => c = c' ∧
    Option.Rel (fun n container => names.lookup n = some container) e.nestedIn nesting)
    (fun hnone => ⟨rfl, by rw [hnone]; exact .none⟩) fun n hn => ?_).bind ?_
  · refine (h.valueNamed (.container he hn) c).mono ?_
    rintro container _ ⟨rfl, hcontainer⟩
    exact ⟨rfl, by rw [hn]; exact .some hcontainer⟩
  rintro nesting _ ⟨rfl, hnesting⟩
  refine (h.fillBody hplaces ha hδ he hv hblank).bind ?_
  rintro _ c₁ ⟨ha₁, w, hw, hfilled⟩
  cases nesting with
  | none => exact .pure ⟨ha₁, none, w, hnesting, hw, hfilled⟩
  | some container =>
    have ha₂ := Catalog.Alters.updateDescriptor (ha₁.isTable_iff.not.2 hδ)
      (·.nestedIn container)
    exact Yields.modify ⟨ha₁.trans ha₂ fun _ => id, some container, _, hnesting,
      Catalog.descriptor?_updateDescriptor hw _, (hfilled.nestedIn container).alters ha₂⟩

/-- **Filling all values.** Each holds what it is described with, and nothing else changes. -/
theorem Ready.fillValues : Yields (d.values.forM (Description.fillValue names)) c₀ (Faulty d p)
    fun _ c => c₀.Alters (· ∈ names.map Prod.snd) c ∧
      ∀ e ∈ d.values, ∃ δ, names.lookup e.name = some δ ∧ IsFilledIn names c e δ := by
  have hvalues : d.values.Nodup := List.Nodup.of_map _ (h.placed.named ▸ h.placed.distinct)
  have hstart : ∀ e ∈ d.values, ∀ δ, names.lookup e.name = some δ →
      (e ∈ [] → IsFilledIn names c₀ e δ) ∧ (e ∉ [] → c₀.descriptor? δ = c₀.descriptor? δ) :=
    fun e _ δ _ => ⟨fun hmem => absurd hmem List.not_mem_nil, fun _ => rfl⟩
  refine (Yields.forM (I := fun before c => c₀.Alters (· ∈ names.map Prod.snd) c ∧
    ∀ e ∈ d.values, ∀ δ, names.lookup e.name = some δ →
      (e ∈ before → IsFilledIn names c e δ) ∧
      (e ∉ before → c.descriptor? δ = c₀.descriptor? δ)) ⟨.refl c₀ _, hstart⟩ ?_).mono ?_
  · rintro before e after c heq ⟨ha, hbefore⟩
    have he : e ∈ d.values := by simp [heq]
    have hnew : e ∉ before := by
      rw [heq] at hvalues
      exact fun hmem => (List.nodup_append.1 hvalues).2.2 e hmem e List.mem_cons_self rfl
    obtain ⟨δ, v, hlookup, hv, hblank⟩ := h.placed.blank e he
    have hv' := ((hbefore e he δ hlookup).2 hnew).trans hv
    refine (h.fillValue hplaces ha he hlookup hv' hblank).mono ?_
    rintro _ c' ⟨ha', hfilled⟩
    have hδ : δ ∈ names.map Prod.snd :=
      List.mem_map_of_mem (f := Prod.snd) (Partial.mem_of_lookup_eq_some hlookup)
    refine ⟨ha.trans ha' fun δ' hδ' => hδ' ▸ hδ, fun e' he' δ' hlookup' => ?_⟩
    by_cases heq' : e' = e
    · subst heq'
      obtain rfl := Option.some.inj (hlookup.symm.trans hlookup')
      exact ⟨fun _ => hfilled, fun hmem => absurd (by simp) hmem⟩
    · have hne : δ' ≠ δ := by
        rintro rfl
        exact heq' (h.placed.entry_unique he' he hlookup' hlookup)
      obtain ⟨hdone, hleft⟩ := hbefore e' he' δ' hlookup'
      refine ⟨fun hmem => ?_, fun hmem => ?_⟩
      · have hmem' : e' ∈ before := by simpa [heq'] using hmem
        exact (hdone hmem').alters ha' hne
      · exact (ha'.others δ' hne).trans (hleft fun hmem' => hmem (List.mem_append_left _ hmem'))
  · rintro _ c ⟨ha, hall⟩
    refine ⟨ha, fun e he => ?_⟩
    obtain ⟨δ, -, hlookup, -⟩ := h.placed.blank e he
    exact ⟨δ, hlookup, (hall e he δ hlookup).1 he⟩

/-- **Filling the places**, and finding the values to start from. -/
theorem Ready.fill : Yields (d.fill names) c₀ (Faulty d p) fun roots c =>
    c₀.Alters (· ∈ names.map Prod.snd) c ∧
      (∀ e ∈ d.values, ∃ δ, names.lookup e.name = some δ ∧ IsFilledIn names c e δ) ∧
      List.Forall₂ (fun n δ => names.lookup n = some δ) d.roots roots := by
  unfold Description.fill
  refine (h.fillValues hplaces).bind ?_
  rintro _ c ⟨ha, hvalues⟩
  refine (Yields.mapM (I := fun before roots c' => c = c' ∧
    List.Forall₂ (fun n δ => names.lookup n = some δ) before roots) ⟨rfl, .nil⟩ ?_).mono ?_
  · rintro before n after roots c' heq ⟨rfl, hroots⟩
    refine (h.valueNamed (.root (by simp [heq])) c).mono ?_
    rintro δ _ ⟨rfl, hδ⟩
    exact ⟨rfl, List.rel_append hroots (.cons hδ .nil)⟩
  · rintro roots _ ⟨rfl, hroots⟩
    exact ⟨ha, hvalues, hroots⟩

end

end DataImage.Description
