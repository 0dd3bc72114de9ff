import DataImage.Proofs.Module.Addresses
import DataImage.Proofs.Module.Links

/-!
# Relocations of blobs

What is known about a blob whatever module it was lowered from, verified or not.

* Its relocations are those of the addresses in the contents, one each and in reading order
  (`Constant.targets`), and go to the live global or the function that the address leads to. They
  lie at least the width of a pointer apart, each on a slot of zeros inside the blob
  (`Module.RelocationsPlaced`).
* The order of bytes only matters to integers. `Module.mirror` reverses the bytes of each integer in
  the bytes of a constant, and that is all that lowering in the other order does
  (`Module.constantBytes_swapped`).

`Module.relocations_of_lower` says both of all blobs of a module.
-/

namespace DataImage

/-! ## Addresses in reading order -/

namespace Constant

mutual

/-- The addresses in a constant, in reading order. -/
def targets : Constant → List Address
  | .int .. | .zeroed _ => []
  | .aggregate _ fields => targetsAll fields
  | .array _ elements => targetsAll elements
  | .globalAddr id => [.global id]
  | .functionAddr id => [.function id]

/-- The addresses in constants, in reading order. -/
def targetsAll : List Constant → List Address
  | [] => []
  | k :: ks => targets k ++ targetsAll ks

end

end Constant

namespace Module

variable {m : Module} {layout : DataLayout}

mutual

theorem map_addresses (offset : Nat) : (k : Constant) →
    (m.addresses layout offset k).map (·.2) = k.targets
  | .int .. | .zeroed _ | .globalAddr _ | .functionAddr _ => rfl
  | .aggregate _ ks | .array _ ks => map_addressesAll offset ks

theorem map_addressesAll (offset : Nat) : (ks : List Constant) →
    (m.addressesAll layout offset ks).map (·.2) = Constant.targetsAll ks
  | [] => rfl
  | k :: ks => by
    rw [addressesAll, List.map_append, map_addresses offset k, map_addressesAll _ ks,
      Constant.targetsAll]

end

/-! ## Slots for addresses -/

mutual

/-- Addresses lie on the bytes of their constant. -/
theorem addresses_within (offset : Nat) : (k : Constant) → ∀ a ∈ m.addresses layout offset k,
    offset ≤ a.1 ∧ a.1 + layout.pointerBytes ≤ offset + m.width layout k
  | .int .. | .zeroed _ => List.forall_mem_nil _
  | .aggregate _ ks | .array _ ks => addressesAll_within offset ks
  | .globalAddr _ | .functionAddr _ => List.forall_mem_singleton.2 ⟨Nat.le_refl _, Nat.le_refl _⟩

theorem addressesAll_within (offset : Nat) : (ks : List Constant) →
    ∀ a ∈ m.addressesAll layout offset ks,
      offset ≤ a.1 ∧ a.1 + layout.pointerBytes ≤ offset + m.widthAll layout ks
  | [] => List.forall_mem_nil _
  | k :: ks => by
    intro a ha
    rw [widthAll]
    rcases List.mem_append.1 ha with ha | ha
    · have hfirst := addresses_within offset k a ha
      omega
    · have hrest := addressesAll_within _ ks a ha
      omega

end

mutual

/-- The slots of addresses follow one another. -/
theorem pairwise_addresses (offset : Nat) : (k : Constant) →
    (m.addresses layout offset k).Pairwise fun a b => a.1 + layout.pointerBytes ≤ b.1
  | .int .. | .zeroed _ => .nil
  | .aggregate _ ks | .array _ ks => pairwise_addressesAll offset ks
  | .globalAddr _ | .functionAddr _ => List.pairwise_singleton _ _

theorem pairwise_addressesAll (offset : Nat) : (ks : List Constant) →
    (m.addressesAll layout offset ks).Pairwise fun a b => a.1 + layout.pointerBytes ≤ b.1
  | [] => .nil
  | k :: ks => by
    refine List.pairwise_append.2
      ⟨pairwise_addresses offset k, pairwise_addressesAll _ ks, fun a ha b hb => ?_⟩
    have hfirst := addresses_within offset k a ha
    have hrest := addressesAll_within _ ks b hb
    omega

end

/-- Whether `n` zero bytes lie at a position. -/
def ZerosAt (bytes : List UInt8) (i n : Nat) : Prop :=
  (bytes.drop i).take n = List.replicate n 0

theorem ZerosAt.append_right {bytes : List UInt8} {i n : Nat} (h : ZerosAt bytes i n)
    (hle : i + n ≤ bytes.length) (rest : List UInt8) : ZerosAt (bytes ++ rest) i n := by
  rw [ZerosAt, List.drop_append_of_le_length (by omega),
    List.take_append_of_le_length (by rw [List.length_drop]; omega)]
  exact h

theorem ZerosAt.append_left {bytes : List UInt8} {i n : Nat} (h : ZerosAt bytes i n)
    (front : List UInt8) : ZerosAt (front ++ bytes) (front.length + i) n := by
  rw [ZerosAt, List.drop_append, List.drop_eq_nil_of_le (Nat.le_add_right _ _), List.nil_append,
    Nat.add_sub_cancel_left]
  exact h

mutual

/-- The slot of an address is empty. -/
theorem zerosAt_addresses {kind : RelocationKind} {offset : Nat} : (k : Constant) →
    {bytes : List UInt8} → {relocations : List Relocation} →
    m.constantBytes layout kind offset k = .ok (bytes, relocations) →
    ∀ a ∈ m.addresses layout offset k, ZerosAt bytes (a.1 - offset) layout.pointerBytes
  | .int .., _, _, _ | .zeroed _, _, _, _ => List.forall_mem_nil _
  | .aggregate _ ks, _, _, h => zerosAt_addressesAll ks h
  | .array _ ks, _, _, h => zerosAt_addressesAll ks h
  | .globalAddr _, _, _, h | .functionAddr _, _, _, h => by
    obtain ⟨-, rfl, rfl⟩ := place_eq_ok_iff.1 h
    refine List.forall_mem_singleton.2 ?_
    simp [ZerosAt]

theorem zerosAt_addressesAll {kind : RelocationKind} {offset : Nat} : (ks : List Constant) →
    {bytes : List UInt8} → {relocations : List Relocation} →
    m.constantsBytes layout kind offset ks = .ok (bytes, relocations) →
    ∀ a ∈ m.addressesAll layout offset ks, ZerosAt bytes (a.1 - offset) layout.pointerBytes
  | [], _, _, _ => List.forall_mem_nil _
  | k :: ks, _, _, h => by
    obtain ⟨⟨bytes, _⟩, ⟨bytes', _⟩, hk, hks, rfl, -⟩ := constantsBytes_cons_eq_ok_iff.1 h
    obtain ⟨hlength, -⟩ := constantBytes_eq k hk
    intro a ha
    rcases List.mem_append.1 ha with ha | ha
    · obtain ⟨hle, hend⟩ := addresses_within offset k a ha
      exact (zerosAt_addresses k hk a ha).append_right (by omega) bytes'
    · rw [← hlength] at ha
      obtain ⟨hle, -⟩ := addressesAll_within _ ks a ha
      have hrest := (zerosAt_addressesAll ks hks a ha).append_left bytes
      rwa [show bytes.length + (a.1 - (offset + bytes.length)) = a.1 - offset by omega] at hrest

end

/-! ## Relocations for addresses -/

/-- Whether an address is that of a global or a function which is there. -/
def HasTarget (m : Module) : Address → Prop
  | .global g => g.index < m.globals.length
  | .function f => f.index < m.functions.length

instance (m : Module) : DecidablePred m.HasTarget
  | .global _ => inferInstanceAs (Decidable (_ < _))
  | .function _ => inferInstanceAs (Decidable (_ < _))

/-- Whether the contents of live globals hold addresses only of what is there. -/
def Addressed (m : Module) : Prop :=
  ∀ e ∈ m.live, ∀ k ∈ e.2.initializer, ∀ a ∈ k.targets, m.HasTarget a

/-- Whether a name is that of the function that an address is of, or of the live global that links
lead to from the one that it is of. -/
def AddressNamed (m : Module) : Address → String → Prop
  | .global g, name => ∃ h, m.Leads g h ∧ m.globalName h = name
  | .function f, name => ∃ x, m.functions[f.index]? = some x ∧ m.symbol x.name = name

theorem Resolvable.names (hm : m.Resolvable) {a : Address} (ha : m.HasTarget a) :
    m.AddressNamed a (m.addressName a) := by
  cases a with
  | global g => exact ⟨m.resolve g, hm.leads_resolve ha, rfl⟩
  | function f =>
    have hx := List.getElem?_eq_getElem ha
    refine ⟨_, hx, ?_⟩
    rw [addressName, functionName, function, List.getD_eq_getElem?_getD, hx, Option.getD_some]

/-- What holds of the relocations of a blob with given contents. -/
structure RelocationsPlaced (m : Module) (layout : DataLayout) (k : Constant) (b : Blob) :
    Prop where
  /-- There is one for each address, in reading order, with the name of what this leads to. -/
  names : List.Forall₂ (fun a r => m.AddressNamed a r.symbol) k.targets b.relocations
  /-- They follow one another at the distance of a pointer or more. -/
  apart : b.relocations.Pairwise fun r s =>
    r.offset < s.offset ∧ r.offset + layout.pointerBytes ≤ s.offset
  /-- Each has the width of a pointer and lies on zeros inside the blob. -/
  slots : ∀ r ∈ b.relocations, r.kind.bits = layout.pointerBytes * 8 ∧
    r.offset + layout.pointerBytes ≤ b.bytes.length ∧
    ZerosAt b.bytes r.offset layout.pointerBytes

theorem bits_of_ofPointerBytes? {n : Nat} {kind : RelocationKind}
    (h : RelocationKind.ofPointerBytes? n = some kind) : 0 < n ∧ kind.bits = n * 8 := by
  unfold RelocationKind.ofPointerBytes? at h
  split at h
  · obtain rfl := Option.some.inj h
    exact ⟨by decide, rfl⟩
  · obtain rfl := Option.some.inj h
    exact ⟨by decide, rfl⟩
  · cases h

/-- The relocations of a blob are well placed. -/
theorem Resolvable.placed (hm : m.Resolvable) {kind : RelocationKind}
    (hkind : RelocationKind.ofPointerBytes? layout.pointerBytes = some kind) {x : Global} {b : Blob}
    (hb : m.globalBlob layout kind x = .ok b) {k : Constant} (hk : x.initializer = some k)
    (hids : ∀ a ∈ k.targets, m.HasTarget a) : m.RelocationsPlaced layout k b := by
  obtain ⟨hpos, hbits⟩ := bits_of_ofPointerBytes? hkind
  obtain ⟨k', bytes, relocations, hk', hbytes, -, rfl⟩ := globalBlob_eq_ok_iff.1 hb
  obtain rfl : k = k' := Option.some.inj (hk.symm.trans hk')
  obtain ⟨hlength, rfl⟩ := constantBytes_eq k hbytes
  have htargets : (m.addresses layout 0 k).map (·.2) = k.targets := map_addresses 0 k
  refine ⟨?_, ?_, ?_⟩
  · rw [← htargets] at hids ⊢
    rw [List.forall₂_map_left_iff, List.forall₂_map_right_iff, List.forall₂_same]
    exact fun a ha => hm.names (hids a.2 (List.mem_map_of_mem ha))
  · refine List.pairwise_map.2 ((pairwise_addresses 0 k).imp fun {a b} hle => ?_)
    have hlt : a.1 < b.1 := by omega
    exact ⟨hlt, hle⟩
  · intro r hr
    obtain ⟨a, ha, rfl⟩ := List.mem_map.1 hr
    obtain ⟨-, hend⟩ := addresses_within 0 k a ha
    rw [Nat.zero_add, ← hlength] at hend
    exact ⟨hbits, hend, zerosAt_addresses k hbytes a ha⟩

end Module

/-! ## The other order of bytes -/

namespace DataLayout

variable {layout : DataLayout}

/-- The layout with the other order of bytes. -/
def swapped (layout : DataLayout) : DataLayout :=
  { layout with littleEndian := !layout.littleEndian }

mutual

theorem sizeWith_swapped (f : StructId → Nat) : (t : Storage) →
    layout.swapped.sizeWith f t = layout.sizeWith f t
  | .int _ | .ptr | .struct _ => rfl
  | .anon fields => sizesWith_swapped f fields
  | .array element _ => by rw [sizeWith, sizeWith, sizeWith_swapped f element]

theorem sizesWith_swapped (f : StructId → Nat) : (ts : List Storage) →
    layout.swapped.sizesWith f ts = layout.sizesWith f ts
  | [] => rfl
  | t :: ts => by rw [sizesWith, sizesWith, sizeWith_swapped f t, sizesWith_swapped f ts]

end

theorem structSizeWithin_swapped (m : Module) (depth : Nat) (id : StructId) :
    layout.swapped.structSizeWithin m depth id = layout.structSizeWithin m depth id := by
  induction depth generalizing id with
  | zero => rfl
  | succ depth ih => rw [structSizeWithin, structSizeWithin, sizesWith_swapped, funext ih]

@[simp] theorem sizeOf_swapped (m : Module) (t : Storage) :
    layout.swapped.sizeOf m t = layout.sizeOf m t := by
  have hstruct : layout.swapped.structSize m = layout.structSize m :=
    funext (structSizeWithin_swapped m m.structs.length)
  rw [sizeOf, sizeOf, sizeWith_swapped, hstruct]

@[simp] theorem sizeOf?_swapped (m : Module) (t : Storage) :
    layout.swapped.sizeOf? m t = layout.sizeOf? m t := by
  rw [sizeOf?_eq, sizeOf?_eq, sizeOf_swapped]

theorem integerBytes_swapped {bits : Nat} {value : UInt64} {bytes : List UInt8}
    (h : layout.integerBytes bits value = .ok bytes) :
    layout.swapped.integerBytes bits value = .ok bytes.reverse := by
  unfold integerBytes at h ⊢
  dsimp only [swapped] at h ⊢
  split at h
  · cases h
  · next hwidth =>
    obtain rfl := Except.ok.inj h
    rw [if_neg hwidth]
    by_cases horder : layout.littleEndian = true
    · simp [horder]
    · simp [horder]

end DataLayout

namespace Module

variable (m : Module) (layout : DataLayout)

mutual

/-- The bytes of a constant with those of each integer in it reversed. -/
def mirror : Constant → List UInt8 → List UInt8
  | .int .., bytes => bytes.reverse
  | .aggregate _ fields, bytes => mirrorAll fields bytes
  | .array _ elements, bytes => mirrorAll elements bytes
  | .zeroed _, bytes | .globalAddr _, bytes | .functionAddr _, bytes => bytes

/-- The bytes of constants in a row with those of each integer in them reversed. -/
def mirrorAll : List Constant → List UInt8 → List UInt8
  | [], bytes => bytes
  | k :: ks, bytes =>
    mirror k (bytes.take (m.width layout k)) ++ mirrorAll ks (bytes.drop (m.width layout k))

end

variable {m layout}

mutual

@[simp] theorem length_mirror : (k : Constant) → (bytes : List UInt8) →
    (m.mirror layout k bytes).length = bytes.length
  | .int .., _ => List.length_reverse
  | .aggregate _ ks, bytes => length_mirrorAll ks bytes
  | .array _ ks, bytes => length_mirrorAll ks bytes
  | .zeroed _, _ | .globalAddr _, _ | .functionAddr _, _ => rfl

@[simp] theorem length_mirrorAll : (ks : List Constant) → (bytes : List UInt8) →
    (m.mirrorAll layout ks bytes).length = bytes.length
  | [], _ => rfl
  | k :: ks, bytes => by
    rw [mirrorAll, List.length_append, length_mirror k, length_mirrorAll ks, ← List.length_append,
      List.take_append_drop]

end

mutual

/-- **The other order of bytes** reverses the bytes of integers and changes nothing else. -/
theorem constantBytes_swapped {kind : RelocationKind} {offset : Nat} : (k : Constant) →
    {bytes : List UInt8} → {relocations : List Relocation} →
    m.constantBytes layout kind offset k = .ok (bytes, relocations) →
    m.constantBytes layout.swapped kind offset k = .ok (m.mirror layout k bytes, relocations)
  | .int bits value _, _, _, h => by
    rw [constantBytes] at h ⊢
    cases hbytes : layout.integerBytes bits value with
    | error e =>
      rw [hbytes] at h
      cases h
    | ok bytes =>
      rw [hbytes] at h
      obtain ⟨hroom, rfl, rfl⟩ := place_eq_ok_iff.1 h
      rw [DataLayout.integerBytes_swapped hbytes]
      exact place_eq_ok_iff.2 ⟨by rwa [List.length_reverse], rfl, rfl⟩
  | .zeroed type, _, _, h => by
    rw [constantBytes_zeroed, DataLayout.sizeOf_swapped, ← constantBytes_zeroed]
    exact h
  | .aggregate _ ks, _, _, h => constantsBytes_swapped ks h
  | .array _ ks, _, _, h => constantsBytes_swapped ks h
  | .globalAddr _, _, _, h | .functionAddr _, _, _, h => h

theorem constantsBytes_swapped {kind : RelocationKind} {offset : Nat} : (ks : List Constant) →
    {bytes : List UInt8} → {relocations : List Relocation} →
    m.constantsBytes layout kind offset ks = .ok (bytes, relocations) →
    m.constantsBytes layout.swapped kind offset ks = .ok (m.mirrorAll layout ks bytes, relocations)
  | [], _, _, h => h
  | k :: ks, _, _, h => by
    obtain ⟨⟨bytes, relocations⟩, ⟨bytes', relocations'⟩, hk, hks, rfl, rfl⟩ :=
      constantsBytes_cons_eq_ok_iff.1 h
    obtain ⟨hlength, -⟩ := constantBytes_eq k hk
    refine constantsBytes_cons_eq_ok_iff.2
      ⟨_, (m.mirrorAll layout ks bytes', relocations'), constantBytes_swapped k hk, ?_, ?_, rfl⟩
    · rw [length_mirror]
      exact constantsBytes_swapped ks hks
    · rw [mirrorAll, ← hlength, List.take_left, List.drop_left]

end

/-- Whether two blobs differ in the order of bytes only: the bytes of each integer in the contents
are reversed. -/
structure Mirrors (m : Module) (layout : DataLayout) (k : Constant) (b b' : Blob) : Prop where
  name : b'.name = b.name
  relocations : b'.relocations = b.relocations
  writable : b'.writable = b.writable
  length : b'.bytes.length = b.bytes.length
  bytes : b'.bytes = m.mirror layout k b.bytes

theorem globalBlob_swapped {kind : RelocationKind} {x : Global} {b : Blob}
    (hb : m.globalBlob layout kind x = .ok b) :
    ∃ b', m.globalBlob layout.swapped kind x = .ok b' ∧
      ∃ k, x.initializer = some k ∧ m.Mirrors layout k b b' := by
  obtain ⟨k, bytes, relocations, hk, hbytes, hsize, rfl⟩ := globalBlob_eq_ok_iff.1 hb
  refine ⟨_, globalBlob_eq_ok_iff.2 ⟨k, _, _, hk, constantBytes_swapped k hbytes, ?_, rfl⟩, k, hk,
    ⟨rfl, rfl, rfl, length_mirror k bytes, rfl⟩⟩
  rw [DataLayout.sizeOf?_swapped, length_mirror, hsize]

/-- **Relocations are well placed, in either order of bytes.** Take any module whose links lead to
globals and close no loop, and whose live globals hold addresses only of what is there. If it can be
lowered for a layout, each live global has a blob whose relocations are well placed for the contents
of the global. For the layout with the other order of bytes the module can be lowered as well (so
either both orders fail or none), and each blob differs from the first one in that the bytes of each
integer are reversed. -/
theorem relocations_of_lower {m : Module} {layout : DataLayout} {blobs : List Blob}
    (hlinks : m.Resolvable) (hids : m.Addressed) (h : m.lower layout = .ok blobs) :
    List.Forall₂ (fun e b => ∃ k, e.2.initializer = some k ∧ m.RelocationsPlaced layout k b)
      m.live blobs ∧
    ∃ blobs', m.lower layout.swapped = .ok blobs' ∧
      List.Forall₂ (fun e b' => ∃ k, e.1.2.initializer = some k ∧ m.Mirrors layout k e.2 b')
        (m.live.zip blobs) blobs' := by
  unfold lower at h ⊢
  cases hkind : RelocationKind.ofPointerBytes? layout.pointerBytes with
  | none =>
    rw [hkind] at h
    cases h
  | some kind =>
    have hkind' : RelocationKind.ofPointerBytes? layout.swapped.pointerBytes = some kind := hkind
    rw [hkind] at h
    rw [hkind']
    have hblobs := Partial.mapM_eq_ok_iff.1 h
    refine ⟨(Partial.forall₂_mem hblobs).imp ?_, ?_⟩
    · rintro e b ⟨he, -, hb⟩
      obtain ⟨k, hk, -⟩ := globalBlob_eq hb
      exact ⟨k, hk, hlinks.placed hkind hb hk (hids e he k hk)⟩
    · obtain ⟨blobs', hblobs', hmirrors⟩ := Partial.exists_forall₂_zip hblobs
        fun _ _ hb => globalBlob_swapped hb
      exact ⟨blobs', Partial.mapM_eq_ok_iff.2 hblobs', hmirrors⟩

/-- Contents that begin with an integer of three bytes, followed by the addresses of a global and of
a function, with more bytes in between. -/
def scattered : Constant :=
  .anon [.int 24 0x010203 false, .globalAddr ⟨1⟩,
    .array (.int 16) [.zeroed (.array (.int 8) 2), .functionAddr ⟨0⟩], .int 16 0x0405 false]

/-- A module that does not pass a verification: a global of bytes holds scattered addresses, one of
them that of a global which was merged away. -/
def unverified : Module where
  name := "Unverified"
  nativeBits := 64
  symbols := { names := ["table", "cell", "main"], nodup := by decide }
  globals := [{ name := ⟨0⟩, type := .array (.int 8) 15, initializer := some scattered },
    { name := ⟨1⟩, type := .ptr, mergedInto := some ⟨0⟩ }]
  functions := [{ name := ⟨2⟩, params := [], result := none }]

theorem unverified_resolvable : unverified.Resolvable := by
  refine .of_leads ?_ ?_
  · rintro ⟨_ | _ | n⟩ h hlink
    · cases hlink
    · obtain rfl := Option.some.inj hlink
      decide
    · cases hlink
  · rintro ⟨_ | _ | n⟩ hg
    · exact ⟨⟨0⟩, .live (by decide)⟩
    · exact ⟨⟨0⟩, .link rfl (.live (by decide))⟩
    · exact absurd hg (by simp [unverified])

theorem unverified_addressed : unverified.Addressed := by
  intro e he k hk
  obtain rfl : e = (⟨0⟩, unverified.global ⟨0⟩) := List.mem_singleton.1 he
  obtain rfl : scattered = k := Option.some.inj hk
  decide

theorem relocations_of_lower_unverified : ∃ b b',
    unverified.lower { pointerBytes := 4 } = .ok [b] ∧
    unverified.lower { pointerBytes := 4, littleEndian := false } = .ok [b'] ∧
    unverified.RelocationsPlaced { pointerBytes := 4 } scattered b ∧ b.relocations.length = 2 ∧
    b.bytes = [3, 2, 1, 0, 0, 0, 0, 0, 0, 0, 0, 0, 0, 5, 4] ∧
    b'.bytes = [1, 2, 3, 0, 0, 0, 0, 0, 0, 0, 0, 0, 0, 4, 5] := by
  have hlower : unverified.lower { pointerBytes := 4 } = .ok [{
      name := "table"
      bytes := [3, 2, 1, 0, 0, 0, 0, 0, 0, 0, 0, 0, 0, 5, 4]
      relocations := [⟨3, "table", .abs32⟩, ⟨9, "main", .abs32⟩]
      writable := true }] := by decide +kernel
  obtain ⟨hplaced, blobs', hlower', hmirrors⟩ :=
    relocations_of_lower unverified_resolvable unverified_addressed hlower
  obtain ⟨⟨k, hk, hplaced⟩, -⟩ := List.forall₂_cons.1 hplaced
  obtain rfl : scattered = k := Option.some.inj hk
  obtain ⟨b', rest, ⟨k, hk, hmirror⟩, hnil, rfl⟩ := List.forall₂_cons_left_iff.1 hmirrors
  obtain rfl : scattered = k := Option.some.inj hk
  obtain rfl := List.forall₂_nil_left_iff.1 hnil
  exact ⟨_, b', hlower, hlower', hplaced, rfl, rfl, hmirror.bytes⟩

end Module

end DataImage
