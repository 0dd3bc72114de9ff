import DataImage.Text.Utf16
import DataImage.Proofs.Bits

/-!
# Reading code units back

`Text.decode` reads UTF-16 code units: a surrogate counts only as one of a pair, a high one before a
low one. `Text.units` takes units out of bytes, the low byte of each first. The units of a text are
decoded to the text (`Text.decode_utf16`), and the units come out of their bytes
(`Text.units_flatMap_littleEndian`). So a text can be read from its bytes.
-/

namespace DataImage.Text

/-! ## Units and characters -/

/-- Whether a unit is one half of a character outside the first plane. -/
def isSurrogate (u : UInt16) : Bool := 0xD800 ≤ u.toNat && u.toNat ≤ 0xDFFF

/-- The character of a high and a low surrogate. -/
def pairChar? (high low : UInt16) : Option Char :=
  if high.toNat < 0xDC00 ∧ 0xDC00 ≤ low.toNat ∧ low.toNat ≤ 0xDFFF then
    some (Char.ofNat (0x10000 + (high.toNat - 0xD800) * 0x400 + (low.toNat - 0xDC00)))
  else none

/-- The characters of code units, if every surrogate is one of a pair. -/
def decodeChars : List UInt16 → Option (List Char)
  | [] => some []
  | u :: us =>
    if isSurrogate u then
      match us with
      | [] => none
      | low :: rest => (pairChar? u low).bind fun c => (decodeChars rest).map (c :: ·)
    else (decodeChars us).map (Char.ofNat u.toNat :: ·)

/-- The text of code units, if every surrogate is one of a pair. -/
def decode (us : List UInt16) : Option String := (decodeChars us).map String.ofList

theorem toNat_ofNat_unit {n : Nat} (h : n < 0x10000) : (UInt16.ofNat n).toNat = n :=
  UInt16.toNat_ofNat_of_lt' h

/-- A character is no surrogate. -/
theorem toNat_lt_or_lt (c : Char) : c.toNat < 0xD800 ∨ 0xDFFF < c.toNat := by
  rcases c.valid with h | ⟨h, -⟩
  · exact Or.inl h
  · exact Or.inr h

theorem toNat_lt (c : Char) : c.toNat < 0x110000 := by
  rcases c.valid with h | ⟨-, h⟩
  · exact Nat.lt_trans h (by decide)
  · exact h

/-- The units of a character are read as the character. -/
theorem decodeChars_charUnits (c : Char) (us : List UInt16) :
    decodeChars (charUnits c ++ us) = (decodeChars us).map (c :: ·) := by
  have hrange := toNat_lt_or_lt c
  have hlt := toNat_lt c
  unfold charUnits
  by_cases hplane : c.toNat < 0x10000
  · have hunit := toNat_ofNat_unit hplane
    have hsurrogate : isSurrogate (UInt16.ofNat c.toNat) = false := by
      rw [isSurrogate, hunit, Bool.and_eq_false_iff, decide_eq_false_iff_not,
        decide_eq_false_iff_not]
      omega
    rw [if_pos hplane, List.singleton_append, decodeChars.eq_def]
    simp only [hsurrogate, hunit, Char.ofNat_toNat, Bool.false_eq_true, if_false]
  · have hhigh := toNat_ofNat_unit (n := 0xD800 + (c.toNat - 0x10000) / 0x400) (by omega)
    have hlow := toNat_ofNat_unit (n := 0xDC00 + (c.toNat - 0x10000) % 0x400) (by omega)
    have hsurrogate : isSurrogate (UInt16.ofNat (0xD800 + (c.toNat - 0x10000) / 0x400)) = true := by
      rw [isSurrogate, hhigh, Bool.and_eq_true, decide_eq_true_eq, decide_eq_true_eq]
      omega
    have hpair : pairChar? (UInt16.ofNat (0xD800 + (c.toNat - 0x10000) / 0x400))
        (UInt16.ofNat (0xDC00 + (c.toNat - 0x10000) % 0x400)) = some c := by
      rw [pairChar?, hhigh, hlow, if_pos (by omega)]
      have hvalue : 0x10000 + (0xD800 + (c.toNat - 0x10000) / 0x400 - 0xD800) * 0x400 +
          (0xDC00 + (c.toNat - 0x10000) % 0x400 - 0xDC00) = c.toNat := by omega
      rw [hvalue, Char.ofNat_toNat]
    rw [if_neg hplane, List.cons_append, List.singleton_append, decodeChars.eq_def]
    simp only [hsurrogate, hpair, if_true, Option.bind_some]

/-- **The units of a text are decoded to the text.** -/
theorem decode_utf16 (s : String) : decode (utf16 s) = some s := by
  have hchars : ∀ cs : List Char, decodeChars (cs.flatMap charUnits) = some cs := by
    intro cs
    induction cs with
    | nil => rfl
    | cons c cs ih => rw [List.flatMap_cons, decodeChars_charUnits, ih, Option.map_some]
  rw [decode, utf16, hchars, Option.map_some, String.ofList_toList]

/-! ## Units and bytes -/

/-- The code units in bytes, the low byte of each first. -/
def units : List UInt8 → List UInt16
  | low :: high :: rest => UInt16.ofNat (low.toNat + 256 * high.toNat) :: units rest
  | _ => []

/-- **Units come out of their bytes.** -/
theorem units_flatMap_littleEndian (us : List UInt16) :
    units (us.flatMap fun u => Bits.littleEndian u.toUInt64 2) = us := by
  induction us with
  | nil => rfl
  | cons u us ih =>
    have hlow : u.toUInt64.toUInt8.toNat = u.toNat % 256 := by
      rw [UInt64.toNat_toUInt8, UInt16.toNat_toUInt64]
    have hhigh : (u.toUInt64 >>> 8).toUInt8.toNat = u.toNat / 256 % 256 := by
      rw [UInt64.toNat_toUInt8, UInt64.toNat_shiftRight, UInt16.toNat_toUInt64,
        Nat.shiftRight_eq_div_pow]
      rfl
    have hlt := u.toNat_lt
    have hvalue : u.toNat % 256 + 256 * (u.toNat / 256 % 256) = u.toNat := by omega
    rw [List.flatMap_cons, Bits.littleEndian, Bits.littleEndian, Bits.littleEndian]
    simp only [List.cons_append, List.nil_append]
    rw [units, ih, hlow, hhigh, hvalue, UInt16.ofNat_toNat]

example : decode [0x48, 0xD83D, 0xDE00] = some "H😀" := by decide +kernel

example : decode [0xDE00, 0xD83D] = none := by decide +kernel

end DataImage.Text
