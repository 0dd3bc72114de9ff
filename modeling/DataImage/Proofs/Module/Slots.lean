import DataImage.Proofs.Module.Lowering

/-!
# What fills a pointer

The contents of a global have a type of their own, and the comparison with the declared type lets an
address fill an integer of the width of a pointer. This module follows both types down to the
primitive slots, along paths of positions, and says what a verified module may hold there
(`Module.pointer_slots`).

* `Module.storageAt?` and `Module.constantAt?` are what lies at the end of a path in a type and in a
  constant.
* `Module.declaredAt?` is a constant inside another one with the type declared for its place there.
* `Module.exchanged` says on which paths a comparison of types looks at its two sides the other way
  round. It does so when an anonymous struct is to be filled by a named one: the fields of the named
  struct then are the slots, and the fields of the slot are what fills them.

A pointer holds an address, an integer holds an address only if it has the width of a pointer, and
the one exception are paths on which the sides are exchanged: there a pointer may be filled by an
integer of the width of a pointer.
-/

namespace DataImage

/-- Whether a constant is an address, or zeroed memory for one. -/
def Constant.isAddress : Constant → Bool
  | .globalAddr _ | .functionAddr _ | .zeroed .ptr => true
  | _ => false

theorem Constant.isAddress_iff {c : Constant} : c.isAddress = true ↔ c.type = .ptr := by
  cases c with
  | int bits value signed => simp [isAddress, type]
  | zeroed t => cases t <;> simp [isAddress, type]
  | aggregate name fields => cases name <;> simp [isAddress, type]
  | array element elements => simp [isAddress, type]
  | globalAddr id => simp [isAddress, type]
  | functionAddr id => simp [isAddress, type]

namespace Module

variable {m : Module}

/-! ## Paths -/

/-- The type of the `i`-th part of a type: a field of the struct or an element of the array. -/
def part? (m : Module) : Storage → Nat → Option Storage
  | .int _, _ | .ptr, _ => none
  | .struct id, i => (m.struct id).fields[i]?
  | .anon fields, i => fields[i]?
  | .array element count, i => if i < count then some element else none

/-- The `i`-th part of a constant. The parts of zeroed memory are zeroed. -/
def constantPart? (m : Module) : Constant → Nat → Option Constant
  | .int .., _ | .globalAddr _, _ | .functionAddr _, _ => none
  | .zeroed type, i => (m.part? type i).map .zeroed
  | .aggregate _ fields, i => fields[i]?
  | .array _ elements, i => elements[i]?

/-- The type at the end of a path of positions. -/
def storageAt? (m : Module) : List Nat → Storage → Option Storage
  | [], t => some t
  | i :: path, t => (m.part? t i).bind (m.storageAt? path)

/-- The constant at the end of a path of positions. -/
def constantAt? (m : Module) : List Nat → Constant → Option Constant
  | [], c => some c
  | i :: path, c => (m.constantPart? c i).bind (m.constantAt? path)

/-- The constant at the end of a path in `c`, with the type declared for its place: `slot` for `c`
itself, and for every part of a constant what the type of that constant says. -/
def declaredAt? (m : Module) : List Nat → Storage → Constant → Option (Storage × Constant)
  | [], slot, c => some (slot, c)
  | i :: path, _, c =>
    match m.part? c.type i, m.constantPart? c i with
    | some slot, some part => m.declaredAt? path slot part
    | _, _ => none

/-- Whether a comparison of these types goes on with its sides exchanged: the fields of a named
struct are the slots even if the struct is what fills an anonymous one. -/
def exchanges : (expected actual : Storage) → Bool
  | .anon _, .struct _ => true
  | _, _ => false

/-- Whether a comparison has its two sides exchanged when it gets to the end of a path. -/
def exchanged (m : Module) : List Nat → (expected actual : Storage) → Bool
  | [], _, _ => false
  | i :: path, expected, actual =>
    match m.part? expected i, m.part? actual i with
    | some slot, some part =>
      if exchanges expected actual then !m.exchanged path part slot
      else m.exchanged path slot part
    | _, _ => false

/-- Whether a constant on the way along a path in `c` has a type whose comparison with the type
declared for its place has the sides exchanged at the end of the path. -/
def ExchangedOn (m : Module) (path : List Nat) (slot : Storage) (c : Constant) : Prop :=
  ∃ front back declared inner, path = front ++ back ∧
    m.declaredAt? front slot c = some (declared, inner) ∧
    m.exchanged back declared inner.type = true

/-! ## Types that match -/

/-- Types for which some comparison of bounded depth succeeds. -/
def Matches (m : Module) (expected actual : Storage) : Prop :=
  ∃ opened : List Storage → List Storage → Bool,
    (∀ as bs, opened as bs = true → ∃ depth, m.compatibleWithin depth as bs = true) ∧
    m.compatibleWith opened expected actual = true

theorem matches_self (t : Storage) : m.Matches t t :=
  ⟨m.compatibleWithin 0, fun _ _ h => ⟨0, h⟩, compatibleWith_self _ t⟩

theorem matches_of_compatible {expected actual : Storage}
    (h : m.compatible expected actual = true) : m.Matches expected actual :=
  ⟨m.opened, fun _ _ h => ⟨_, h⟩, h⟩

/-- The fields of a struct that was opened match one by one. -/
theorem forall₂_matches_of_compatibleWithin {depth : Nat} {as bs : List Storage}
    (h : m.compatibleWithin depth as bs = true) : List.Forall₂ m.Matches as bs := by
  cases depth with
  | zero => cases h
  | succ depth =>
    exact (forall₂_of_compatibleAllWith h).imp fun _ _ hab =>
      ⟨m.compatibleWithin depth, fun _ _ h => ⟨depth, h⟩, hab⟩

/-- Only an address fills a pointer. -/
theorem Matches.ptr_left {actual : Storage} (h : m.Matches .ptr actual) : actual = .ptr := by
  obtain ⟨opened, -, h⟩ := h
  simpa [compatibleWith] using h

/-- An integer is filled by integers of its width, or by addresses if they have that width. -/
theorem Matches.int_left {bits : Nat} {actual : Storage} (h : m.Matches (.int bits) actual) :
    actual = .int bits ∨ actual = .ptr ∧ bits = m.nativeBits := by
  obtain ⟨opened, -, h⟩ := h
  simpa [compatibleWith] using h

/-- What an integer fills is an integer of its width. -/
theorem Matches.int_right {bits : Nat} {expected : Storage} (h : m.Matches expected (.int bits)) :
    expected = .int bits := by
  obtain ⟨opened, -, h⟩ := h
  cases expected <;> simp_all [compatibleWith]

/-- What an address fills is a pointer or an integer of its width. -/
theorem Matches.ptr_right {expected : Storage} (h : m.Matches expected .ptr) :
    expected = .ptr ∨ expected = .int m.nativeBits := by
  obtain ⟨opened, -, h⟩ := h
  cases expected <;> simp_all [compatibleWith]

/-- The parts of types that match do so as well, from the side of the named struct if there is one
against an anonymous one. -/
theorem Matches.part {expected actual : Storage} (h : m.Matches expected actual) (i : Nat) :
    Option.Rel (fun slot part =>
        if exchanges expected actual then m.Matches part slot else m.Matches slot part)
      (m.part? expected i) (m.part? actual i) := by
  obtain ⟨opened, hopened, h⟩ := h
  cases expected with
  | int bits =>
    obtain rfl | ⟨rfl, -⟩ := Matches.int_left ⟨opened, hopened, h⟩
    · exact .none
    · exact .none
  | ptr =>
    obtain rfl := Matches.ptr_left ⟨opened, hopened, h⟩
    exact .none
  | struct id =>
    cases actual with
    | struct id' =>
      obtain rfl : id' = id := by simpa [compatibleWith] using h
      exact Partial.rel_getElem? (List.forall₂_same.2 fun t _ => matches_self t) i
    | anon fields =>
      obtain ⟨depth, hdepth⟩ := hopened _ _ h
      exact Partial.rel_getElem? (forall₂_matches_of_compatibleWithin hdepth) i
    | int bits | ptr | array element count => simp [compatibleWith] at h
  | anon slots =>
    cases actual with
    | struct id =>
      obtain ⟨depth, hdepth⟩ := hopened _ _ h
      exact Partial.rel_swap (Partial.rel_getElem? (forall₂_matches_of_compatibleWithin hdepth) i)
    | anon fields =>
      have hall : List.Forall₂ m.Matches slots fields :=
        (forall₂_of_compatibleAllWith h).imp fun _ _ hab => ⟨opened, hopened, hab⟩
      exact Partial.rel_getElem? hall i
    | int bits | ptr | array element count => simp [compatibleWith] at h
  | array slot count =>
    cases actual with
    | array element count' =>
      simp only [compatibleWith, Bool.and_eq_true, beq_iff_eq] at h
      obtain ⟨rfl, helement⟩ := h
      by_cases hi : i < count
      · rw [part?, part?, if_pos hi, if_pos hi]
        exact .some ⟨opened, hopened, helement⟩
      · rw [part?, part?, if_neg hi, if_neg hi]
        exact .none
    | int bits | ptr | struct id | anon fields => simp [compatibleWith] at h

/-- Types that match have the same paths, and what lies at the end of a path matches, with the sides
exchanged as often as the comparison exchanges them. -/
theorem Matches.at {expected actual : Storage} (h : m.Matches expected actual) (path : List Nat) :
    Option.Rel (fun slot part =>
        if m.exchanged path expected actual then m.Matches part slot else m.Matches slot part)
      (m.storageAt? path expected) (m.storageAt? path actual) := by
  induction path generalizing expected actual with
  | nil => exact .some h
  | cons i path ih =>
    refine Partial.rel_bind (h.part i) fun slot part hslot hpart hmatch => ?_
    have hstep : m.exchanged (i :: path) expected actual =
        if exchanges expected actual then !m.exchanged path part slot
        else m.exchanged path slot part := by
      rw [exchanged, hslot, hpart]
    rw [hstep]
    by_cases hex : exchanges expected actual = true
    · rw [if_pos hex] at hmatch ⊢
      have hswap := Partial.rel_swap (ih hmatch)
      cases hpath : m.exchanged path part slot <;> simpa [hpath] using hswap
    · rw [if_neg hex] at hmatch ⊢
      exact ih hmatch

/-! ## Contents without faults -/

/-- The parts of a constant without faults have none either, and each may fill what the type of the
constant declares for it. -/
theorem rel_parts {c : Constant} (h : m.constantFaults c = []) (i : Nat) :
    Option.Rel (fun slot part => m.compatible slot part.type = true ∧ m.constantFaults part = [])
      (m.part? c.type i) (m.constantPart? c i) := by
  cases c with
  | int bits value signed => exact .none
  | globalAddr id => exact .none
  | functionAddr id => exact .none
  | zeroed t =>
    rw [Constant.type, constantPart?]
    cases m.part? t i with
    | none => exact .none
    | some slot => exact .some ⟨compatible_self _, rfl⟩
  | aggregate name fields =>
    cases name with
    | some id =>
      obtain ⟨-, hfields, hfaults⟩ := constantFaults_named_eq_nil_iff.1 h
      exact Partial.rel_getElem? ((Partial.forall₂_mem hfields).imp fun _ part h =>
        ⟨h.2.2, hfaults part h.2.1⟩) i
    | none =>
      have hfaults := constantFaults_anon_eq_nil_iff.1 h
      rw [Constant.type, part?, constantPart?, Constant.types_eq_map, List.getElem?_map]
      cases hpart : fields[i]? with
      | none => exact .none
      | some part => exact .some ⟨compatible_self _, hfaults part (List.mem_of_getElem? hpart)⟩
  | array element elements =>
    have hfaults := constantFaults_array_eq_nil_iff.1 h
    rw [Constant.type, part?, constantPart?]
    by_cases hi : i < elements.length
    · rw [if_pos hi, List.getElem?_eq_getElem hi]
      exact .some (hfaults _ (List.getElem_mem hi))
    · rw [if_neg hi, List.getElem?_eq_none (Nat.le_of_not_lt hi)]
      exact .none

/-- Every constant inside a constant without faults may fill what is declared for its place. -/
theorem compatible_of_declaredAt? {path : List Nat} {slot declared : Storage} {c inner : Constant}
    (hslot : m.compatible slot c.type = true) (hc : m.constantFaults c = [])
    (h : m.declaredAt? path slot c = some (declared, inner)) :
    m.compatible declared inner.type = true ∧ m.constantFaults inner = [] := by
  induction path generalizing slot c with
  | nil =>
    cases h
    exact ⟨hslot, hc⟩
  | cons i path ih =>
    have hparts := rel_parts hc i
    rw [declaredAt?] at h
    split at h
    · rename_i slot' part hslot' hpart
      rw [hslot', hpart] at hparts
      obtain ⟨hfits, hfaults⟩ := hparts
      exact ih hfits hfaults h
    · cases h

/-- What holds on the way from a part of a constant holds on the way from the constant. -/
theorem ExchangedOn.cons {path : List Nat} {slot slot' : Storage} {c part : Constant} {i : Nat}
    (hslot : m.part? c.type i = some slot') (hpart : m.constantPart? c i = some part)
    (h : m.ExchangedOn path slot' part) : m.ExchangedOn (i :: path) slot c := by
  obtain ⟨front, back, declared, inner, rfl, hdeclared, hex⟩ := h
  refine ⟨i :: front, back, declared, inner, rfl, ?_, hex⟩
  rw [declaredAt?, hslot, hpart]
  exact hdeclared

/-- **What fills the slots of a constant without faults.** At the end of every path on which the
slot has a type, the constant has a part. A pointer is filled by an address, or else, if the sides
are exchanged on the path, by an integer of its width; an integer is filled by an integer of its
width, or by an address if the width is that of a pointer. -/
theorem slot_at {path : List Nat} {declared slot : Storage} {c : Constant}
    (hfits : m.compatible declared c.type = true) (hc : m.constantFaults c = [])
    (hslot : m.storageAt? path declared = some slot) :
    ∃ k, m.constantAt? path c = some k ∧
      (slot = .ptr → k.type = .ptr ∨
        k.type = .int m.nativeBits ∧ m.ExchangedOn path declared c) ∧
      ∀ bits, slot = .int bits → k.type = .int bits ∨ k.type = .ptr ∧ bits = m.nativeBits := by
  induction path generalizing declared c slot with
  | nil =>
    obtain rfl := Option.some.inj hslot
    have hmatch := matches_of_compatible hfits
    refine ⟨c, rfl, ?_, ?_⟩
    · rintro rfl
      exact .inl hmatch.ptr_left
    · rintro bits rfl
      exact hmatch.int_left
  | cons i path ih =>
    -- the slot, and what the constant's own type has in its place
    have hmatch := (matches_of_compatible hfits).at (i :: path)
    rw [hslot] at hmatch
    cases hown : m.storageAt? (i :: path) c.type with
    | none =>
      rw [hown] at hmatch
      cases hmatch
    | some own =>
      rw [hown] at hmatch
      obtain ⟨hmatch⟩ := hmatch
      obtain ⟨slot', hslot', hown⟩ := Option.bind_eq_some_iff.1 hown
      have hparts := rel_parts hc i
      rw [hslot'] at hparts
      cases hpart : m.constantPart? c i with
      | none =>
        rw [hpart] at hparts
        cases hparts
      | some part =>
        rw [hpart] at hparts
        obtain ⟨hfits', hfaults⟩ := hparts
        obtain ⟨k, hk, hptr, hint⟩ := ih hfits' hfaults hown
        refine ⟨k, by rw [constantAt?, hpart]; exact hk, ?_, ?_⟩
        · rintro rfl
          by_cases hex : m.exchanged (i :: path) declared c.type = true
          · rw [if_pos hex] at hmatch
            have here : m.ExchangedOn (i :: path) declared c :=
              ⟨[], i :: path, declared, c, rfl, rfl, hex⟩
            obtain rfl | rfl := hmatch.ptr_right
            · exact (hptr rfl).imp_right fun h => ⟨h.1, here⟩
            · exact (hint _ rfl).symm.imp And.left fun h => ⟨h, here⟩
          · rw [if_neg hex] at hmatch
            obtain rfl := hmatch.ptr_left
            exact (hptr rfl).imp_right fun h => ⟨h.1, h.2.cons hslot' hpart⟩
        · rintro bits rfl
          by_cases hex : m.exchanged (i :: path) declared c.type = true
          · rw [if_pos hex] at hmatch
            obtain rfl := hmatch.int_right
            exact hint bits rfl
          · rw [if_neg hex] at hmatch
            obtain rfl | ⟨rfl, rfl⟩ := hmatch.int_left
            · exact hint bits rfl
            · exact (hptr rfl).symm.imp And.left fun h => ⟨h, rfl⟩

/-! ## Verified modules -/

/-- **What the primitive slots of a verified module hold.** Take a constant `inner` at the end of a
path in the contents of a live global, with the type declared for its place, and follow another path
in that type to a slot. The constant has a part there. If the slot is a pointer, that part is an
address, unless the comparison has its sides exchanged on the way: then it may be an integer of the
width of a pointer as well. If the slot is an integer, that part is an integer of the same width, or
it is an address and the width is that of a pointer. -/
theorem pointer_slots {e : GlobalId × Global} (hok : m.verify.isOk = true) (he : e ∈ m.live) :
    ∃ contents, e.2.initializer = some contents ∧
      ∀ front declared inner, m.declaredAt? front e.2.type contents = some (declared, inner) →
      ∀ path slot, m.storageAt? path declared = some slot →
      ∃ k, m.constantAt? path inner = some k ∧
        (slot = .ptr → k.isAddress = true ∨
          k.type = .int m.nativeBits ∧ m.ExchangedOn path declared inner) ∧
        ∀ bits, slot = .int bits →
          k.type = .int bits ∨ k.isAddress = true ∧ bits = m.nativeBits := by
  obtain ⟨contents, hcontents, hfits, hfaults⟩ :=
    initializerFaults_eq_nil_iff.1 ((isOk_verify_iff.1 hok).1 e he)
  refine ⟨contents, hcontents, fun front declared inner hinner path slot hslot => ?_⟩
  obtain ⟨hfits, hfaults⟩ := compatible_of_declaredAt? hfits hfaults hinner
  simp only [Constant.isAddress_iff]
  exact slot_at hfits hfaults hslot

/-- In `lenient` the second field of `cell` is a pointer and holds a zeroed one, and the first field
of the only element of `table` is an integer and holds the address of a function. -/
theorem pointer_slots_lenient : lenient.verify.isOk = true ∧
    (∃ k, lenient.constantAt? [1] (.anon [.anon [.globalAddr ⟨0⟩], .zeroed .ptr]) = some k ∧
      k.isAddress = true) ∧
    ∃ k, lenient.constantAt? [0, 0, 0]
      (.array (.struct ⟨1⟩) [.anon [.anon [.functionAddr ⟨0⟩], .int 8 1 false]]) = some k ∧
      (k.type = .int 32 ∨ k.isAddress = true ∧ 32 = lenient.nativeBits) := by
  have hok : lenient.verify.isOk = true := by decide +kernel
  refine ⟨hok, ?_, ?_⟩
  · obtain ⟨contents, hcontents, hslots⟩ := pointer_slots hok
      (e := (⟨1⟩, lenient.global ⟨1⟩)) (List.mem_cons_of_mem _ List.mem_cons_self)
    obtain rfl := Option.some.inj hcontents
    obtain ⟨k, hk, hptr, -⟩ := hslots [] _ _ rfl [1] .ptr rfl
    refine ⟨k, hk, (hptr rfl).resolve_right fun h => ?_⟩
    obtain rfl := Option.some.inj hk
    cases h.1
  · obtain ⟨contents, hcontents, hslots⟩ := pointer_slots hok
      (e := (⟨0⟩, lenient.global ⟨0⟩)) List.mem_cons_self
    obtain rfl := Option.some.inj hcontents
    obtain ⟨k, hk, -, hint⟩ := hslots [] _ _ rfl [0, 0, 0] (.int 32) rfl
    exact ⟨k, hk, hint 32 rfl⟩

/-- A module with an anonymous struct of one pointer, filled by a named struct of one integer of the
width of a pointer. -/
def reversed : Module where
  name := "Reversed"
  nativeBits := 32
  symbols := { names := ["S", "g"], nodup := by decide }
  structs := [{ name := ⟨0⟩, fields := [.int 32] }]
  globals := [{ name := ⟨1⟩, type := .anon [.ptr]
                initializer := some (.named ⟨0⟩ [.int 32 5 false]) }]

/-- An anonymous struct that is filled by a named one lets an integer fill a pointer. -/
theorem integer_fills_pointer_reversed : reversed.verify.isOk = true ∧
    ∃ e ∈ reversed.live, ∃ contents, e.2.initializer = some contents ∧
      reversed.storageAt? [0] e.2.type = some .ptr ∧
      reversed.constantAt? [0] contents = some (.int 32 5 false) :=
  ⟨by decide +kernel, _, List.mem_cons_self, _, rfl, rfl, rfl⟩

end Module

end DataImage
