import DataImage.Image.Content
import DataImage.Proofs.Catalog.Shape
import Mathlib.Logic.Relation

/-!
# Contents before they have positions

What a described value becomes is fixed by the catalog alone, up to the positions of structs,
globals and functions. A `Value` is a constant in which these are named by declared types, by
described values and by declared methods.

* `Catalog.valueAs?` is what a value becomes laid out as a type, given what the parts of a value
  become that are put in place.
* `Catalog.contents?` closes the circle: it is what a value becomes laid out as its declared type
  (`Catalog.contents?_eq`). It exists unless a rule is broken in the value or in one of its parts;
  values that are referred to do not matter.
* `Catalog.Refers` says which value refers to which.
-/

namespace DataImage

/-- A constant with structs, globals and functions named by what they stand for. -/
inductive Value where
  /-- An integer. -/
  | int (bits : Nat) (value : UInt64) (signed : Bool)
  /-- All-zero memory of a shape. -/
  | zeroed (shape : Shape)
  /-- Fields of the struct of a declared type. -/
  | named (type : TypeId) (fields : List Value)
  /-- Fields of a struct without name. -/
  | anon (fields : List Value)
  /-- Elements of one shape. -/
  | array (element : Shape) (elements : List Value)
  /-- The address of the global of another value. -/
  | reference (d : DescriptorId)
  /-- The address of a method. -/
  | function (m : MethodId)
deriving Inhabited

namespace Value

mutual

/-- The values that are referred to, in reading order. -/
def references : Value → List DescriptorId
  | .reference d => [d]
  | .named _ fields => referencesAll fields
  | .anon fields => referencesAll fields
  | .array _ elements => referencesAll elements
  | .int .. | .zeroed _ | .function _ => []

/-- The values that are referred to in one of the values. -/
def referencesAll : List Value → List DescriptorId
  | [] => []
  | v :: vs => v.references ++ referencesAll vs

end

theorem mem_referencesAll {d : DescriptorId} {vs : List Value} :
    d ∈ referencesAll vs ↔ ∃ v ∈ vs, d ∈ v.references := by
  induction vs with
  | nil => simp [referencesAll]
  | cons v vs ih => simp [referencesAll, ih]

mutual

/-- Proofs about all constants with names follow their nesting. -/
@[elab_as_elim] theorem induct {P : Value → Prop}
    (int : ∀ bits value signed, P (.int bits value signed))
    (zeroed : ∀ shape, P (.zeroed shape))
    (named : ∀ t fields, (∀ f ∈ fields, P f) → P (.named t fields))
    (anon : ∀ fields, (∀ f ∈ fields, P f) → P (.anon fields))
    (array : ∀ shape elements, (∀ e ∈ elements, P e) → P (.array shape elements))
    (reference : ∀ d, P (.reference d)) (function : ∀ m, P (.function m)) : (v : Value) → P v
  | .int bits value signed => int bits value signed
  | .zeroed shape => zeroed shape
  | .named t fields => named t fields
      (inductAll int zeroed named anon array reference function fields)
  | .anon fields => anon fields (inductAll int zeroed named anon array reference function fields)
  | .array shape elements => array shape elements
      (inductAll int zeroed named anon array reference function elements)
  | .reference d => reference d
  | .function m => function m

theorem inductAll {P : Value → Prop}
    (int : ∀ bits value signed, P (.int bits value signed))
    (zeroed : ∀ shape, P (.zeroed shape))
    (named : ∀ t fields, (∀ f ∈ fields, P f) → P (.named t fields))
    (anon : ∀ fields, (∀ f ∈ fields, P f) → P (.anon fields))
    (array : ∀ shape elements, (∀ e ∈ elements, P e) → P (.array shape elements))
    (reference : ∀ d, P (.reference d)) (function : ∀ m, P (.function m)) :
    (vs : List Value) → ∀ v ∈ vs, P v
  | [], _, h => absurd h List.not_mem_nil
  | w :: ws, v, h => by
    rcases List.mem_cons.1 h with h | h
    · rw [h]
      exact induct int zeroed named anon array reference function w
    · exact inductAll int zeroed named anon array reference function ws v h

end

end Value

namespace Catalog

variable (c : Catalog)

/-! ## Integers and code -/

/-- Zeroed memory of a type. -/
def zero? (t : TypeId) : Option Value :=
  if c.Stored t then some (.zeroed (c.shapeOf t)) else none

/-- An instance of the struct of a type. -/
def instance? (t : TypeId) (fields : List Value) : Option Value :=
  if c.Laid t then some (.named t fields) else none

/-- The integer type `t` with the bits of `raw`. -/
def scalar? (t : TypeId) (raw : UInt64) : Option Value :=
  let d := c.typeDef t
  if d.isScalar && (d.size = 0 || 8 < d.size) then none
  else if raw = 0 then c.zero? t
  else if c.FitsWidth t then
    c.instance? t [.int (d.size * 8) (Bits.lowBits raw (d.size * 8)) d.isSigned]
  else none

/-- Whether the declaration of a method can be written down. -/
def Declarable (m : MethodId) : Prop :=
  (∀ t ∈ (c.method m).params, c.Stored t) ∧ ∀ t ∈ (c.method m).result, c.Stored t

instance (m : MethodId) : Decidable (c.Declarable m) :=
  inferInstanceAs (Decidable ((∀ t ∈ (c.method m).params, c.Stored t) ∧
    ∀ t ∈ (c.method m).result, c.Stored t))

/-- A code pointer in a field of type `t`. -/
def code? (t : TypeId) (p : CodePointerId) : Option Value :=
  match c.codePointer? p with
  | some (.method m) => if c.Declarable m then c.instance? t [.function m] else none
  | some (.handler _) => none
  | none => none

/-! ## Fields and elements -/

variable (part : DescriptorId → Option Value)

/-- What a field or an element of type `t` becomes. -/
def payload? (t : TypeId) : Payload → Option Value
  | .null => c.scalar? t 0
  | .scalar raw => if (c.typeDef t).isScalar then c.scalar? t raw else none
  | .descriptor d =>
    (c.descriptor? d).bind fun v => if v.isNested then part d else some (.reference d)
  | .code _ => none

/-- A code pointer in a field. -/
def codeField? (f : FieldId) (p : CodePointerId) : Option Value :=
  if f = Core.codePointerTarget then c.code? (c.field f).type p
  else if (c.field f).type = Core.codePointer then
    (c.code? (c.field Core.codePointerTarget).type p).bind fun target =>
      c.instance? (c.field f).type [target]
  else none

/-- What a field of an object becomes, from what it holds. -/
def held? (f : FieldId) : Option Payload → Option Value
  | none => c.zero? (c.field f).type
  | some (.code p) => c.codeField? f p
  | some .null => c.payload? part (c.field f).type .null
  | some (.scalar raw) => c.payload? part (c.field f).type (.scalar raw)
  | some (.descriptor d) => c.payload? part (c.field f).type (.descriptor d)

/-- What a part of an object becomes. -/
def partValue? (o : ObjectValue) : Part → Option Value
  | .padding => c.scalar? Core.byte Build.paddingByte
  | .field f => c.held? part f (o.fields.lookup f)
  | .zeroSized _ | .overflow _ => none

/-- What the parts of an object from an offset to the end of a type become. -/
def regionValues? (o : ObjectValue) (t : TypeId) (offset : Nat) : Option (List Value) :=
  (c.region t offset).mapM (c.partValue? part o)

/-! ## Objects and arrays -/

/-- The flag word of an instance. -/
def flagWord (isMutable : Bool) : UInt64 :=
  if isMutable then Core.mutableFlags else Core.readOnlyFlags

/-- The root class's share of an instance. -/
def header? (context : TypeId) (isMutable : Bool) : Option Value :=
  (c.vtable? context).bind fun vtable =>
    (c.scalar? (c.field Core.multiUseWord).type (flagWord isMutable)).bind fun word =>
      (c.instance? Core.objectHeader [word, .reference vtable]).bind fun header =>
        c.instance? Core.object [header]

/-- The characters of a string. -/
def characters? (o : ObjectValue) : Option Value :=
  let t := (c.field Core.firstChar).type
  if c.Stored t then
    ((Text.utf16 (o.source.getD "")).mapM fun unit => c.scalar? t unit.toUInt64).map
      (.array (c.shapeOf t))
  else none

/-- The top of an instance. -/
def top? (o : ObjectValue) (t : TypeId) : Option Value :=
  if t = Core.object then c.header? o.context o.isMutable
  else (c.regionValues? part o t 0).bind (c.instance? t)

/-- An instance of a class, around the instance of its base. -/
def class? (o : ObjectValue) (base : Value) (t : TypeId) : Option Value :=
  (c.regionValues? part o t (c.ownStart t)).bind fun own =>
    if t = Core.string then (c.characters? o).map fun chars => .anon (base :: own ++ [chars])
    else c.instance? t (base :: own)

/-- An object laid out as an instance of a type. -/
def object? (o : ObjectValue) (t : TypeId) : Option Value :=
  match c.ancestry t with
  | .error _ => none
  | .ok a => (c.top? part o a.top).bind fun top => a.below.foldlM (c.class? part o) top

/-- The elements of an array. -/
def elements? (a : ArrayValue) (element : TypeId) : Option (List Value) :=
  match a.values with
  | some values =>
    if values.length = a.length then values.mapM (c.payload? part element) else none
  | none =>
    let source := a.source.getD []
    if source.length = a.length ∧ (source = [] ∨ (c.typeDef element).isScalar = true) then
      source.mapM (c.scalar? element)
    else none

/-- The header and the length of an array. -/
def arrayBase? (a : ArrayValue) : Option Value :=
  (c.header? a.context a.isMutable).bind fun header =>
    (c.scalar? (c.field Core.arrayLength).type (UInt64.ofNat a.length)).bind fun length =>
      c.instance? Core.array [header, length]

/-- An array with its header, its length and its elements. -/
def array? (a : ArrayValue) : Option Value :=
  match (c.typeDef a.context).kind with
  | .array element =>
    (c.arrayBase? a).bind fun base =>
      (c.elements? part a element).bind fun elements =>
        if c.Stored element then some (.anon [base, .array (c.shapeOf element) elements])
        else none
  | _ => none

/-- A value laid out as a type. -/
def valueAs? (v : Descriptor) (t : TypeId) : Option Value :=
  match v with
  | .object o => c.object? part o t
  | .array a => c.array? part a

/-! ## Parts of parts -/

/-- A value laid out as a type if its parts nest at most `depth` deep. -/
def valueWithin (c : Catalog) : (depth : Nat) → DescriptorId → TypeId → Option Value
  | 0, _, _ => none
  | depth + 1, d, t =>
    (c.descriptor? d).bind fun v =>
      c.valueAs? (fun e => (c.descriptor? e).bind fun w => c.valueWithin depth e w.context) v t

/-- A value laid out as its declared type if its parts nest at most `depth` deep. -/
def contentsWithin? (depth : Nat) (d : DescriptorId) : Option Value :=
  (c.descriptor? d).bind fun v => c.valueWithin depth d v.context

/-- A value laid out as a type. No value is a part of itself, so the parts nest no deeper than there
are values. -/
def contentsAs? (d : DescriptorId) (t : TypeId) : Option Value :=
  c.valueWithin (c.descriptors.length + 1) d t

/-- A value laid out as its declared type. -/
def contents? (d : DescriptorId) : Option Value :=
  c.contentsWithin? (c.descriptors.length + 1) d

/-- Whether the contents of a value refer to another one. -/
def Refers (d e : DescriptorId) : Prop := ∃ v, c.contents? d = some v ∧ e ∈ v.references

/-- Whether a value is referred to by a value, directly or through others. -/
def Reaches : DescriptorId → DescriptorId → Prop := Relation.ReflTransGen c.Refers

variable {c} {part} {part' : DescriptorId → Option Value}

theorem payload?_mono (h : ∀ d v, part d = some v → part' d = some v) {t : TypeId} {p : Payload}
    {v : Value} (hv : c.payload? part t p = some v) : c.payload? part' t p = some v := by
  cases p with
  | null => exact hv
  | scalar raw => exact hv
  | code p => exact hv
  | descriptor d =>
    refine Partial.bind_mono (fun _ h => h) (fun w v hw => ?_) hv
    by_cases hn : w.isNested = true
    · rw [if_pos hn] at hw ⊢
      exact h d v hw
    · rwa [if_neg hn] at hw ⊢

theorem held?_mono (h : ∀ d v, part d = some v → part' d = some v) {f : FieldId}
    {p : Option Payload} {v : Value} (hv : c.held? part f p = some v) :
    c.held? part' f p = some v := by
  rcases p with _ | _ | raw | d | p
  · exact hv
  · exact payload?_mono (p := .null) h hv
  · exact payload?_mono (p := .scalar raw) h hv
  · exact payload?_mono (t := (c.field f).type) (p := .descriptor d) h hv
  · exact hv

theorem regionValues?_mono (h : ∀ d v, part d = some v → part' d = some v) {o : ObjectValue}
    {t : TypeId} {offset : Nat} {vs : List Value} (hv : c.regionValues? part o t offset = some vs) :
    c.regionValues? part' o t offset = some vs := by
  refine Partial.mapM_mono (fun p v hv => ?_) hv
  cases p with
  | padding => exact hv
  | field f => exact held?_mono h hv
  | zeroSized offset | overflow offset => exact hv

theorem class?_mono (h : ∀ d v, part d = some v → part' d = some v) {o : ObjectValue}
    {base : Value} {t : TypeId} {v : Value} (hv : c.class? part o base t = some v) :
    c.class? part' o base t = some v :=
  Partial.bind_mono (fun _ => regionValues?_mono h) (fun _ _ h => h) hv

theorem object?_mono (h : ∀ d v, part d = some v → part' d = some v) {o : ObjectValue}
    {t : TypeId} {v : Value} (hv : c.object? part o t = some v) :
    c.object? part' o t = some v := by
  unfold object? at hv ⊢
  split at hv
  · exact hv
  · rename_i a _
    refine Partial.bind_mono (fun top htop => ?_)
      (fun _ _ => Partial.foldlM_mono fun _ _ _ => class?_mono h) hv
    by_cases ht : a.top = Core.object
    · rw [top?, if_pos ht] at htop ⊢
      exact htop
    · rw [top?, if_neg ht] at htop ⊢
      exact Partial.bind_mono (fun _ => regionValues?_mono h) (fun _ _ h => h) htop

theorem elements?_mono (h : ∀ d v, part d = some v → part' d = some v) {a : ArrayValue}
    {t : TypeId} {vs : List Value} (hv : c.elements? part a t = some vs) :
    c.elements? part' a t = some vs := by
  cases hvalues : a.values with
  | none =>
    simp only [elements?, hvalues] at hv ⊢
    exact hv
  | some values =>
    simp only [elements?, hvalues] at hv ⊢
    by_cases hlen : values.length = a.length
    · rw [if_pos hlen] at hv ⊢
      exact Partial.mapM_mono (fun _ _ => payload?_mono h) hv
    · rw [if_neg hlen] at hv
      cases hv

theorem array?_mono (h : ∀ d v, part d = some v → part' d = some v) {a : ArrayValue} {v : Value}
    (hv : c.array? part a = some v) : c.array? part' a = some v := by
  unfold array? at hv ⊢
  split at hv
  · exact Partial.bind_mono (fun _ h => h) (fun _ _ hb =>
      Partial.bind_mono (fun _ => elements?_mono h) (fun _ _ h => h) hb) hv
  · exact hv

/-- More parts give more values and no other ones. -/
theorem valueAs?_mono (h : ∀ d v, part d = some v → part' d = some v) {w : Descriptor}
    {t : TypeId} {v : Value} (hv : c.valueAs? part w t = some v) :
    c.valueAs? part' w t = some v := by
  cases w with
  | object o => exact object?_mono h hv
  | array a => exact array?_mono h hv

theorem valueWithin_succ (depth : Nat) (d : DescriptorId) (t : TypeId) :
    c.valueWithin (depth + 1) d t =
      (c.descriptor? d).bind fun v => c.valueAs? (c.contentsWithin? depth) v t := rfl

theorem valueWithin_mono (depth : Nat) (d : DescriptorId) (t : TypeId) (v : Value)
    (h : c.valueWithin depth d t = some v) : c.valueWithin (depth + 1) d t = some v := by
  induction depth generalizing d t v with
  | zero => simp [valueWithin] at h
  | succ depth ih =>
    rw [valueWithin_succ] at h ⊢
    refine Partial.bind_mono (fun _ h => h) (fun w v => valueAs?_mono fun e v he => ?_) h
    exact Partial.bind_mono (fun _ h => h) (fun w v hw => ih e w.context v hw) he

theorem contentsWithin?_mono (depth : Nat) (d : DescriptorId) (v : Value)
    (h : c.contentsWithin? depth d = some v) : c.contentsWithin? (depth + 1) d = some v :=
  Partial.bind_mono (fun _ h => h) (fun _ _ hw => valueWithin_mono depth d _ _ hw) h

/-- **Parts nest no deeper than there are values.** -/
theorem contentsWithin?_length :
    c.contentsWithin? c.descriptors.length = c.contents? := by
  have known : ((List.range c.descriptors.length).map DescriptorId.mk).length =
      c.descriptors.length := by simp
  have h := Partial.eq_succ_of_length c.contentsWithin? contentsWithin?_mono ?_
    ((List.range c.descriptors.length).map DescriptorId.mk) 0 ?_
  · rw [known, Nat.add_zero] at h
    exact h
  · intro n hn
    funext d
    unfold contentsWithin?
    refine congrArg _ (funext fun v => ?_)
    rw [valueWithin_succ, valueWithin_succ, hn]
  · intro d hd n _
    have hlen : c.descriptors.length ≤ d.index := by
      by_contra hlt
      exact hd (List.mem_map.2 ⟨d.index, List.mem_range.2 (by omega), rfl⟩)
    have hnone : c.descriptor? d = none := List.getElem?_eq_none hlen
    rw [contentsWithin?, contentsWithin?, hnone, Option.bind_none, Option.bind_none]

theorem contentsAs?_eq (d : DescriptorId) (t : TypeId) :
    c.contentsAs? d t = (c.descriptor? d).bind fun v => c.valueAs? c.contents? v t := by
  rw [contentsAs?, valueWithin_succ, contentsWithin?_length]

/-- The contents of a value from the contents of its parts. -/
theorem contents?_eq (d : DescriptorId) :
    c.contents? d = (c.descriptor? d).bind fun v => c.valueAs? c.contents? v v.context := by
  rw [contents?, contentsWithin?]
  cases h : c.descriptor? d with
  | none => rfl
  | some v => rw [Option.bind_some, Option.bind_some, valueWithin_succ, contentsWithin?_length, h,
      Option.bind_some]

theorem contents?_eq_contentsAs? {d : DescriptorId} {v : Descriptor}
    (h : c.descriptor? d = some v) : c.contents? d = c.contentsAs? d v.context := by
  rw [contents?_eq, contentsAs?_eq, h, Option.bind_some, Option.bind_some]

end Catalog

end DataImage
