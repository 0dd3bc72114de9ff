import DataImage.Arm.Emission
import DataImage.Proofs.Object.Library
import Mathlib.Algebra.Ring.Nat

/-!
# Where pieces are placed

Functions and blobs are pieces that come to lie in sections, at places that the library gives them.
`Arm.HoldsPieces` says that the sections of an object hold some placed pieces and nothing else: each
piece lies at its place, which is a multiple of four and behind the pieces before it, and all other
bytes are zero. To append one more piece keeps this true (`Arm.HoldsPieces.append`), as it only adds
to its section.
-/

namespace DataImage.Arm

/-! ## Pieces -/

/-- A function or a blob on its way into a section. -/
structure Piece where
  name : String
  bytes : List UInt8
  relocations : List Relocation
  type : SymbolType
  kind : SectionKind
deriving DecidableEq, Repr, Inhabited

/-- The piece of a function. -/
def bodyPiece (f : FunctionBody) : Piece where
  name := f.name
  bytes := f.code
  relocations := f.relocations
  type := .func
  kind := .text

/-- The piece of a blob. -/
def blobPiece (b : Blob) : Piece where
  name := b.name
  bytes := b.bytes
  relocations := b.relocations
  type := .object
  kind := sectionKind b

/-- The functions and after them the blobs. -/
def pieces (functions : List FunctionBody) (blobs : List Blob) : List Piece :=
  functions.map bodyPiece ++ blobs.map blobPiece

/-- A piece and its offset in its section. -/
structure Placed extends Piece where
  offset : Nat
deriving DecidableEq, Repr, Inhabited

/-- The symbol of a placed piece. -/
def Placed.symbol (p : Placed) : NewSymbol SectionKind where
  name := p.name
  value := p.offset
  size := p.bytes.length
  type := p.type
  scope := scopeOf p.name
  home := some p.kind

/-- The relocations of placed pieces in order, each with its piece. -/
def usesOf (placed : List Placed) : List (Placed × Relocation) :=
  placed.flatMap fun p => p.relocations.map fun r => (p, r)

theorem mem_usesOf {placed : List Placed} {u : Placed × Relocation} :
    u ∈ usesOf placed ↔ u.1 ∈ placed ∧ u.2 ∈ u.1.relocations := by
  obtain ⟨p, r⟩ := u
  simp [usesOf]

theorem usesOf_append (placed : List Placed) (p : Placed) :
    usesOf (placed ++ [p]) = usesOf placed ++ p.relocations.map fun r => (p, r) := by
  rw [usesOf, List.flatMap_append, List.flatMap_singleton]
  rfl

/-- How many bytes pieces take with the three that may have to come before each of them. -/
def paddedLength (placed : List Placed) : Nat :=
  (placed.map fun p => p.bytes.length + 3).sum

theorem paddedLength_append (placed : List Placed) (p : Placed) :
    paddedLength (placed ++ [p]) = paddedLength placed + (p.bytes.length + 3) := by
  simp [paddedLength]

/-! ## Sections that hold pieces -/

/-- Whether the sections of an object hold placed pieces, and otherwise zeros. -/
structure HoldsPieces (c : Contents) (placed : List Placed) : Prop where
  /-- There is one section for code, and one of every kind that some piece has. -/
  used : ∀ kind, (c.sections kind).isSome = true ↔ kind = .text ∨ ∃ p ∈ placed, p.kind = kind
  /-- Offsets are multiples of four. -/
  aligned : ∀ p ∈ placed, 4 ∣ p.offset
  /-- Pieces of one section follow each other without overlap. -/
  apart : placed.Pairwise fun p q => p.kind = q.kind → p.offset + p.bytes.length ≤ q.offset
  /-- In its section a piece has its bytes at its offset. -/
  slice : ∀ p ∈ placed, ∀ bytes, c.sections p.kind = some bytes →
    p.offset + p.bytes.length ≤ bytes.length ∧
      (bytes.drop p.offset).take p.bytes.length = p.bytes
  /-- No section is longer than all pieces with their padding. -/
  length_le : ∀ kind bytes, c.sections kind = some bytes → bytes.length ≤ paddedLength placed
  /-- Every other byte of a section is zero. -/
  zero : ∀ kind bytes, c.sections kind = some bytes → ∀ i x, bytes[i]? = some x →
    x = 0 ∨ ∃ p ∈ placed, p.kind = kind ∧ p.offset ≤ i ∧ i < p.offset + p.bytes.length

/-- Bytes behind others, with zeros between. -/
def appended (old : List UInt8) (offset : Nat) (bytes : List UInt8) : List UInt8 :=
  old ++ List.replicate (offset - old.length) 0 ++ bytes

section

variable {old bytes : List UInt8} {offset : Nat} (h : old.length ≤ offset)

include h

theorem length_appended : (appended old offset bytes).length = offset + bytes.length := by
  simp only [appended, List.length_append, List.length_replicate]
  omega

theorem slice_appended : ((appended old offset bytes).drop offset).take bytes.length = bytes := by
  have hlength : (old ++ List.replicate (offset - old.length) 0).length = offset := by
    simp only [List.length_append, List.length_replicate]
    omega
  rw [appended, List.drop_left' hlength, List.take_length]

omit h in
/-- What was there before stays where it was. -/
theorem slice_appended_of_le {lo count : Nat} (hle : lo + count ≤ old.length) :
    ((appended old offset bytes).drop lo).take count = (old.drop lo).take count := by
  rw [appended, List.append_assoc, List.drop_append_of_le_length (by omega),
    List.take_append_of_le_length (by rw [List.length_drop]; omega)]

/-- A byte was there before, or it is one of the zeros or of the new bytes. -/
theorem getElem?_appended {i : Nat} {x : UInt8} (hx : (appended old offset bytes)[i]? = some x) :
    old[i]? = some x ∨ x = 0 ∨ offset ≤ i ∧ i < offset + bytes.length := by
  rcases Nat.lt_or_ge i old.length with hold | hold
  · rw [appended, List.append_assoc, List.getElem?_append_left hold] at hx
    exact .inl hx
  rcases Nat.lt_or_ge i offset with hgap | hgap
  · right; left
    have hzeros : i - old.length < offset - old.length := by omega
    rw [appended, List.append_assoc, List.getElem?_append_right hold,
      List.getElem?_append_left (by rwa [List.length_replicate]),
      List.getElem?_replicate_of_lt hzeros] at hx
    exact (Option.some.inj hx).symm
  · right; right
    have hlt := (List.getElem?_eq_some_iff.1 hx).1
    rw [length_appended h] at hlt
    exact ⟨hgap, hlt⟩

end

namespace HoldsPieces

variable {c : Contents} {placed : List Placed}

/-- A piece lies in the bytes of its section. -/
theorem slice_getD (h : HoldsPieces c placed) {p : Placed} (hp : p ∈ placed) :
    p.offset + p.bytes.length ≤ ((c.sections p.kind).getD []).length ∧
      (((c.sections p.kind).getD []).drop p.offset).take p.bytes.length = p.bytes := by
  obtain ⟨bytes, hbytes⟩ := Option.isSome_iff_exists.1 ((h.used p.kind).2 (.inr ⟨p, hp, rfl⟩))
  rw [hbytes]
  exact h.slice p hp bytes hbytes

theorem length_getD_le (h : HoldsPieces c placed) (kind : SectionKind) :
    ((c.sections kind).getD []).length ≤ paddedLength placed := by
  cases hbytes : c.sections kind with
  | none => exact Nat.zero_le _
  | some bytes => exact h.length_le kind bytes hbytes

theorem zero_getD (h : HoldsPieces c placed) (kind : SectionKind) {i : Nat} {x : UInt8}
    (hx : ((c.sections kind).getD [])[i]? = some x) :
    x = 0 ∨ ∃ p ∈ placed, p.kind = kind ∧ p.offset ≤ i ∧ i < p.offset + p.bytes.length := by
  cases hbytes : c.sections kind with
  | none =>
    rw [hbytes] at hx
    cases hx
  | some bytes =>
    rw [hbytes] at hx
    exact h.zero kind bytes hbytes i x hx

/-- No piece ends further out than all pieces with their padding are long. -/
theorem end_le (h : HoldsPieces c placed) {p : Placed} (hp : p ∈ placed) :
    p.offset + p.bytes.length ≤ paddedLength placed :=
  Nat.le_trans (h.slice_getD hp).1 (h.length_getD_le p.kind)

/-- What sections hold depends on the sections alone. -/
theorem congr (h : HoldsPieces c placed) {c' : Contents} (hsections : c'.sections = c.sections) :
    HoldsPieces c' placed where
  used := by rw [hsections]; exact h.used
  aligned := h.aligned
  apart := h.apart
  slice := by rw [hsections]; exact h.slice
  length_le := by rw [hsections]; exact h.length_le
  zero := by rw [hsections]; exact h.zero

/-- An object with nothing but the section for code. -/
theorem nil : HoldsPieces (({} : Contents).use .text) [] := by
  have hempty : ∀ {kind bytes}, (({} : Contents).use .text).sections kind = some bytes →
      bytes = [] := fun hbytes => by
    rcases Contents.sections_setBytes_eq_some_iff.1 hbytes with ⟨-, rfl⟩ | ⟨-, hnone⟩
    · rfl
    · cases hnone
  refine
    { used := fun kind => by by_cases h : kind = .text <;> simp [Contents.use, Contents.setBytes, h]
      aligned := List.forall_mem_nil _
      apart := .nil
      slice := List.forall_mem_nil _
      length_le := fun kind bytes hbytes => ?_
      zero := fun kind bytes hbytes i x hx => ?_ }
  · rw [hempty hbytes]
    exact Nat.zero_le _
  · rw [hempty hbytes] at hx
    cases hx

/-- **One more piece**, behind all bytes of its section. -/
theorem append (h : HoldsPieces c placed) (p : Placed) (haligned : 4 ∣ p.offset)
    (hle : ((c.sections p.kind).getD []).length ≤ p.offset)
    (hlt : p.offset < ((c.sections p.kind).getD []).length + 4) :
    HoldsPieces (c.setBytes p.kind (appended ((c.sections p.kind).getD []) p.offset p.bytes))
      (placed ++ [p]) := by
  refine
    { used := fun kind => ?_
      aligned := fun q hq => ?_
      apart := List.pairwise_append.2
        ⟨h.apart, List.pairwise_singleton _ _, fun q hq r hr hkind => ?_⟩
      slice := fun q hq bytes hbytes => ?_
      length_le := fun kind bytes hbytes => ?_
      zero := fun kind bytes hbytes i x hx => ?_ }
  case refine_1 =>
    simp only [Contents.setBytes, List.mem_append, List.mem_singleton, or_and_right, exists_or,
      exists_eq_left]
    by_cases hkind : kind = p.kind
    · simp [hkind]
    · rw [if_neg hkind, h.used kind, or_iff_left (Ne.symm hkind)]
  case refine_2 =>
    rcases List.mem_append.1 hq with hq | hq
    · exact h.aligned q hq
    · exact List.mem_singleton.1 hq ▸ haligned
  case refine_3 =>
    obtain rfl := List.mem_singleton.1 hr
    have hend := (h.slice_getD hq).1
    rw [hkind] at hend
    exact Nat.le_trans hend hle
  -- the section of the new piece has become longer, all others are as they were
  all_goals rcases Contents.sections_setBytes_eq_some_iff.1 hbytes with ⟨hkind, rfl⟩ | ⟨hkind, hold⟩
  case refine_4.inl =>
    rw [length_appended hle]
    rcases List.mem_append.1 hq with hq | hq
    · obtain ⟨hend, hslice⟩ := h.slice_getD hq
      rw [hkind] at hend hslice
      exact ⟨by omega, (slice_appended_of_le hend).trans hslice⟩
    · obtain rfl := List.mem_singleton.1 hq
      exact ⟨Nat.le_refl _, slice_appended hle⟩
  case refine_4.inr =>
    rcases List.mem_append.1 hq with hq | hq
    · exact h.slice q hq bytes hold
    · exact absurd (congrArg (·.kind) (List.mem_singleton.1 hq)) hkind
  case refine_5.inl =>
    have hlength := h.length_getD_le p.kind
    rw [length_appended hle, paddedLength_append]
    omega
  case refine_5.inr =>
    rw [paddedLength_append]
    exact Nat.le_trans (h.length_le kind bytes hold) (Nat.le_add_right _ _)
  case refine_6.inl =>
    subst hkind
    rcases getElem?_appended hle hx with hold | hzero | hnew
    · exact (h.zero_getD p.kind hold).imp id fun ⟨q, hq, hcovers⟩ =>
        ⟨q, List.mem_append_left _ hq, hcovers⟩
    · exact .inl hzero
    · exact .inr ⟨p, List.mem_append_right _ List.mem_cons_self, rfl, hnew⟩
  case refine_6.inr =>
    exact (h.zero kind bytes hold i x hx).imp id fun ⟨q, hq, hcovers⟩ =>
      ⟨q, List.mem_append_left _ hq, hcovers⟩

end HoldsPieces

end DataImage.Arm
