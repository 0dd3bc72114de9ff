/-!
# Bit patterns of 64-bit words

Integers of an image are kept as 64-bit words of which only the low bits count. This module cuts a
word to its low bits, reads the low bits as a signed number, and splits a word into bytes.

* `lowBits w n` keeps the low `n` bits of `w`.
* `signedValue w n` reads the low `n` bits of `w` as two's complement.
* `littleEndian w n` is the word's low `n` bytes, least significant first.
* `hexBytes` and `hexNumber` are the two hexadecimal spellings used in text.
-/

namespace DataImage.Bits

/-- The low `bits` bits of `value`. A width of 64 or more keeps all of them. -/
def lowBits (value : UInt64) (bits : Nat) : UInt64 :=
  if 64 ≤ bits then value else UInt64.ofNat (value.toNat % Nat.pow 2 bits)

/-- The low `bits` bits of `value` read as a two's complement number: they are shifted to the top of
the word, where the sign stands, and back with copies of the sign. A width of zero stands for the
whole word, as does one of 64 or more. -/
def signedValue (value : UInt64) (bits : Nat) : Int :=
  if bits = 0 ∨ 64 ≤ bits then value.toBitVec.toInt
  else ((value.toBitVec <<< (64 - bits)).sshiftRight (64 - bits)).toInt

/-- The low `count` bytes of `value`, least significant byte first. -/
def littleEndian (value : UInt64) : Nat → List UInt8
  | 0 => []
  | count + 1 => value.toUInt8 :: littleEndian (value >>> 8) count

@[simp] theorem length_littleEndian (value : UInt64) (count : Nat) :
    (littleEndian value count).length = count := by
  induction count generalizing value with
  | zero => rfl
  | succ count ih => simp [littleEndian, ih]

/-- One byte as two lower-case hexadecimal digits. -/
def hexByte (b : UInt8) : List Char :=
  [Nat.digitChar (b.toNat / 16), Nat.digitChar (b.toNat % 16)]

/-- Bytes as lower-case hexadecimal digits without separators. -/
def hexBytes (bytes : List UInt8) : String :=
  String.ofList (bytes.flatMap hexByte)

/-- A number in lower-case hexadecimal after `0x`, without leading zeros. -/
def hexNumber (value : UInt64) : String :=
  "0x" ++ String.ofList (Nat.toDigits 16 value.toNat)

end DataImage.Bits
