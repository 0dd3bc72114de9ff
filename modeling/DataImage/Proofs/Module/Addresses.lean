import DataImage.Module.Lowering
import DataImage.Proofs.Module.Sizes
import DataImage.Proofs.Partial
import Mathlib.Algebra.Group.Nat.Defs

/-!
# Addresses in constants

Where in the bytes of a constant the addresses lie (`Module.addresses`), counting the bytes of what
comes before them (`Module.width`). The relocations of a constant are those of its addresses, in
this order, each for the name of what it is the address of (`Module.constantBytes_eq`).
-/

namespace DataImage

/-- What an address constant is the address of. -/
inductive Address where
  | global (id : GlobalId)
  | function (id : FunctionId)
deriving DecidableEq, Repr

/-- The global that an address leads to, if it is that of a global. -/
def Address.global? : Address → Option GlobalId
  | .global g => some g
  | .function _ => none

namespace Module

variable (m : Module) (layout : DataLayout)

/-- The name of what an address leads to. -/
def addressName : Address → String
  | .global id => m.globalName (m.resolve id)
  | .function id => m.functionName id

mutual

/-- The number of bytes that a constant takes. -/
def width : Constant → Nat
  | .int bits _ _ => (bits + 7) / 8
  | .zeroed type => layout.sizeOf m type
  | .aggregate _ fields => widthAll fields
  | .array _ elements => widthAll elements
  | .globalAddr _ | .functionAddr _ => layout.pointerBytes

/-- The number of bytes that constants take together. -/
def widthAll : List Constant → Nat
  | [] => 0
  | k :: ks => width k + widthAll ks

end

mutual

/-- The addresses in a constant whose first byte lies at an offset, each with the offset of its own
first byte. -/
def addresses (offset : Nat) : Constant → List (Nat × Address)
  | .int .. | .zeroed _ => []
  | .aggregate _ fields => addressesAll offset fields
  | .array _ elements => addressesAll offset elements
  | .globalAddr id => [(offset, .global id)]
  | .functionAddr id => [(offset, .function id)]

/-- The addresses in constants that follow one another from an offset on. -/
def addressesAll (offset : Nat) : List Constant → List (Nat × Address)
  | [] => []
  | k :: ks => addresses offset k ++ addressesAll (offset + m.width layout k) ks

end

/-- The relocation for an address. -/
def relocationOf (kind : RelocationKind) (a : Nat × Address) : Relocation :=
  { offset := a.1, symbol := m.addressName a.2, kind }

variable {m layout}

/-- There is room for fewer than `2 ^ 63` bytes. -/
theorem place_eq_ok_iff {offset : Nat} {bytes bytes' : List UInt8}
    {relocations relocations' : List Relocation} :
    place offset bytes relocations = .ok (bytes', relocations') ↔
      offset + bytes.length < 2 ^ 63 ∧ bytes' = bytes ∧ relocations' = relocations := by
  unfold place reserve
  split
  · rename_i hroom
    constructor
    · intro h
      obtain ⟨rfl, rfl⟩ := Prod.mk.inj (Except.ok.inj h)
      exact ⟨hroom, rfl, rfl⟩
    · rintro ⟨-, rfl, rfl⟩
      rfl
  · rename_i hroom
    constructor
    · intro h
      cases h
    · exact fun h => absurd h.1 hroom

theorem place_of_le {offset : Nat} {bytes : List UInt8} (relocations : List Relocation)
    (h : 2 ^ 63 ≤ offset + bytes.length) : place offset bytes relocations = .error .overflow := by
  have hfull : ¬ offset + bytes.length < blobRoom := Nat.not_lt.2 h
  rw [place, reserve, if_neg hfull]
  rfl

theorem place_of_lt {offset : Nat} {bytes : List UInt8} (relocations : List Relocation)
    (h : offset + bytes.length < 2 ^ 63) :
    place offset bytes relocations = .ok (bytes, relocations) :=
  place_eq_ok_iff.2 ⟨h, rfl, rfl⟩

/-- Zeroed memory is as many zeros as its type takes, if there is room for them. -/
theorem constantBytes_zeroed (m : Module) (layout : DataLayout) (kind : RelocationKind)
    (offset : Nat) (type : Storage) : m.constantBytes layout kind offset (.zeroed type) =
      place offset (List.replicate (layout.sizeOf m type) 0) [] := by
  have hlength : (List.replicate (layout.sizeOf m type) (0 : UInt8)).length =
      layout.sizeOf m type := List.length_replicate
  rw [constantBytes, DataLayout.sizeOf?_eq]
  rcases Nat.lt_or_ge (layout.sizeOf m type) UInt64.size with h | h
  · rw [word?_of_lt h, place, hlength]
    rfl
  · rw [word?_of_le h, place_of_le _ (by rw [hlength]; simp only [UInt64.size] at h; omega)]
    rfl

theorem length_integerBytes {bits : Nat} {value : UInt64} {bytes : List UInt8}
    (h : layout.integerBytes bits value = .ok bytes) : bytes.length = (bits + 7) / 8 := by
  unfold DataLayout.integerBytes at h
  dsimp only at h
  split at h
  · cases h
  · obtain rfl := Except.ok.inj h
    split <;> simp

/-- What the bytes of constants in a row are put together from. -/
theorem constantsBytes_cons_eq_ok_iff {kind : RelocationKind} {offset : Nat} {k : Constant}
    {ks : List Constant} {bytes : List UInt8} {relocations : List Relocation} :
    m.constantsBytes layout kind offset (k :: ks) = .ok (bytes, relocations) ↔
      ∃ first rest : List UInt8 × List Relocation,
        m.constantBytes layout kind offset k = .ok first ∧
        m.constantsBytes layout kind (offset + first.1.length) ks = .ok rest ∧
        bytes = first.1 ++ rest.1 ∧ relocations = first.2 ++ rest.2 := by
  rw [constantsBytes]
  constructor
  · intro h
    cases hk : m.constantBytes layout kind offset k with
    | error e =>
      rw [hk] at h
      cases h
    | ok first =>
      rw [hk] at h
      simp only [bind, Except.bind] at h
      cases hks : m.constantsBytes layout kind (offset + first.1.length) ks with
      | error e =>
        rw [hks] at h
        cases h
      | ok rest =>
        rw [hks] at h
        obtain ⟨rfl, rfl⟩ := Prod.mk.inj (Except.ok.inj h)
        exact ⟨first, rest, rfl, hks, rfl, rfl⟩
  · rintro ⟨first, rest, hk, hks, rfl, rfl⟩
    rw [hk]
    simp only [bind, Except.bind]
    rw [hks]
    rfl

mutual

/-- **The relocations of a constant** are those of its addresses, and its bytes are counted by its
width. -/
theorem constantBytes_eq {kind : RelocationKind} {offset : Nat} : (k : Constant) →
    {bytes : List UInt8} → {relocations : List Relocation} →
    m.constantBytes layout kind offset k = .ok (bytes, relocations) →
    bytes.length = m.width layout k ∧
      relocations = (m.addresses layout offset k).map (m.relocationOf kind)
  | .int bits value signed, _, _, h => by
    rw [constantBytes] at h
    cases hbytes : layout.integerBytes bits value with
    | error e =>
      rw [hbytes] at h
      cases h
    | ok bytes =>
      rw [hbytes] at h
      obtain ⟨-, rfl, rfl⟩ := place_eq_ok_iff.1 h
      exact ⟨length_integerBytes hbytes, rfl⟩
  | .zeroed type, _, _, h => by
    rw [constantBytes_zeroed] at h
    obtain ⟨-, rfl, rfl⟩ := place_eq_ok_iff.1 h
    exact ⟨List.length_replicate, rfl⟩
  | .aggregate _ ks, _, _, h => constantsBytes_eq ks h
  | .array _ ks, _, _, h => constantsBytes_eq ks h
  | .globalAddr id, _, _, h => by
    obtain ⟨-, rfl, rfl⟩ := place_eq_ok_iff.1 h
    exact ⟨List.length_replicate, rfl⟩
  | .functionAddr id, _, _, h => by
    obtain ⟨-, rfl, rfl⟩ := place_eq_ok_iff.1 h
    exact ⟨List.length_replicate, rfl⟩

theorem constantsBytes_eq {kind : RelocationKind} {offset : Nat} : (ks : List Constant) →
    {bytes : List UInt8} → {relocations : List Relocation} →
    m.constantsBytes layout kind offset ks = .ok (bytes, relocations) →
    bytes.length = m.widthAll layout ks ∧
      relocations = (m.addressesAll layout offset ks).map (m.relocationOf kind)
  | [], _, _, h => by
    obtain ⟨rfl, rfl⟩ := Prod.mk.inj (Except.ok.inj h)
    exact ⟨rfl, rfl⟩
  | k :: ks, _, _, h => by
    obtain ⟨⟨bytes, relocations⟩, ⟨bytes', relocations'⟩, hk, hks, rfl, rfl⟩ :=
      constantsBytes_cons_eq_ok_iff.1 h
    obtain ⟨hlength, hrelocations⟩ := constantBytes_eq k hk
    obtain ⟨hlength', hrelocations'⟩ := constantsBytes_eq ks hks
    refine ⟨?_, ?_⟩
    · rw [List.length_append, hlength, hlength', widthAll]
    · rw [addressesAll, List.map_append, hrelocations, hrelocations', hlength]

end

mutual

/-- The addresses of globals are those that a constant mentions. -/
theorem filterMap_addresses (offset : Nat) : (k : Constant) →
    (m.addresses layout offset k).filterMap (·.2.global?) = k.globals
  | .int .. | .zeroed _ | .globalAddr _ | .functionAddr _ => rfl
  | .aggregate _ ks | .array _ ks => filterMap_addressesAll offset ks

theorem filterMap_addressesAll (offset : Nat) : (ks : List Constant) →
    (m.addressesAll layout offset ks).filterMap (·.2.global?) = Constant.globalsAll ks
  | [] => rfl
  | k :: ks => by
    rw [addressesAll, List.filterMap_append, filterMap_addresses offset k,
      filterMap_addressesAll _ ks, Constant.globalsAll]

end

theorem mem_globals_of_mem_addresses {offset n : Nat} {k : Constant} {g : GlobalId}
    (h : (n, .global g) ∈ m.addresses layout offset k) : g ∈ k.globals := by
  have hmem : g ∈ (m.addresses layout offset k).filterMap (·.2.global?) :=
    List.mem_filterMap.2 ⟨_, h, rfl⟩
  rwa [filterMap_addresses] at hmem

/-- What the blob of a global is put together from. -/
theorem globalBlob_eq_ok_iff {kind : RelocationKind} {x : Global} {b : Blob} :
    m.globalBlob layout kind x = .ok b ↔
      ∃ k bytes relocations, x.initializer = some k ∧
        m.constantBytes layout kind 0 k = .ok (bytes, relocations) ∧
        layout.sizeOf? m x.type = some bytes.length ∧
        b = { name := m.symbol x.name, bytes, relocations, writable := !x.constant } := by
  unfold globalBlob
  dsimp only
  constructor
  · intro h
    cases hk : x.initializer with
    | none =>
      rw [hk] at h
      cases h
    | some k =>
      rw [hk] at h
      dsimp only at h
      cases hbytes : m.constantBytes layout kind 0 k with
      | error e =>
        rw [hbytes] at h
        cases h
      | ok result =>
        rw [hbytes] at h
        simp only [bind, Except.bind] at h
        cases hsize : layout.sizeOf? m x.type with
        | none =>
          rw [hsize] at h
          cases h
        | some size =>
          rw [hsize] at h
          dsimp only [knownSize] at h
          split at h
          · cases h
          · next heq =>
            obtain rfl := not_not.1 heq
            exact ⟨k, result.1, result.2, rfl, hbytes, rfl, (Except.ok.inj h).symm⟩
  · rintro ⟨k, bytes, relocations, hk, hbytes, hsize, rfl⟩
    rw [hk]
    dsimp only
    rw [hbytes]
    simp only [bind, Except.bind, hsize, knownSize]
    rw [if_neg (not_not.2 rfl)]
    rfl

/-- **The blob of a global** has its name and the relocations of the addresses in its contents. -/
theorem globalBlob_eq {kind : RelocationKind} {x : Global} {b : Blob}
    (h : m.globalBlob layout kind x = .ok b) :
    ∃ k, x.initializer = some k ∧ b.name = m.symbol x.name ∧ b.bytes.length = m.width layout k ∧
      b.relocations = (m.addresses layout 0 k).map (m.relocationOf kind) ∧
      b.writable = !x.constant := by
  obtain ⟨k, bytes, relocations, hk, hbytes, -, rfl⟩ := globalBlob_eq_ok_iff.1 h
  obtain ⟨hlength, hrelocations⟩ := constantBytes_eq k hbytes
  exact ⟨k, hk, rfl, hlength, hrelocations, rfl⟩

end Module

end DataImage
