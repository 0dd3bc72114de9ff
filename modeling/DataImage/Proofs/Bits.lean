import DataImage.Bits
import Mathlib.Data.Nat.ModEq

/-!
# Words and their low bytes

The low bytes of a word depend on its low bits only (`Bits.littleEndian_lowBits`), and cutting a
word twice is cutting it once.
-/

namespace DataImage.Bits

theorem toNat_lowBits {w : UInt64} {bits : Nat} (h : bits < 64) :
    (lowBits w bits).toNat = w.toNat % 2 ^ bits := by
  have hpow : 2 ^ bits ≤ 2 ^ 64 := Nat.pow_le_pow_right (by decide) (Nat.le_of_lt h)
  have hlt : w.toNat % 2 ^ bits < 2 ^ 64 :=
    Nat.lt_of_lt_of_le (Nat.mod_lt _ (Nat.two_pow_pos bits)) hpow
  rw [lowBits, if_neg (Nat.not_le.2 h)]
  exact UInt64.toNat_ofNat_of_lt' hlt

theorem lowBits_lowBits (w : UInt64) (bits : Nat) :
    lowBits (lowBits w bits) bits = lowBits w bits := by
  rcases Nat.lt_or_ge bits 64 with h | h
  · refine UInt64.toNat_inj.1 ?_
    rw [toNat_lowBits h, toNat_lowBits h, Nat.mod_mod]
  · rw [lowBits, if_pos h]

/-- Words that agree on some bytes have these bytes in common. -/
theorem littleEndian_congr {w w' : UInt64} {count : Nat}
    (h : w.toNat % 256 ^ count = w'.toNat % 256 ^ count) :
    littleEndian w count = littleEndian w' count := by
  induction count generalizing w w' with
  | zero => rfl
  | succ count ih =>
    have hfirst : w.toNat % 256 = w'.toNat % 256 := by
      have hdvd : 256 ∣ 256 ^ (count + 1) := Dvd.intro_left _ (Nat.pow_succ ..).symm
      rw [← Nat.mod_mod_of_dvd _ hdvd, h, Nat.mod_mod_of_dvd _ hdvd]
    have hrest : (w >>> 8).toNat % 256 ^ count = (w' >>> 8).toNat % 256 ^ count := by
      have hshift : ∀ x : UInt64, (x >>> 8).toNat = x.toNat / 256 := fun x => by
        rw [UInt64.toNat_shiftRight, Nat.shiftRight_eq_div_pow]
        rfl
      rw [Nat.pow_succ, Nat.mul_comm] at h
      rw [hshift, hshift, ← Nat.mod_mul_right_div_self, h, Nat.mod_mul_right_div_self]
    rw [littleEndian, littleEndian, ih hrest]
    refine congrArg (· :: _) (UInt8.toNat_inj.1 ?_)
    rw [UInt64.toNat_toUInt8, UInt64.toNat_toUInt8]
    exact hfirst

theorem littleEndian_lowBits (w : UInt64) (count : Nat) :
    littleEndian (lowBits w (count * 8)) count = littleEndian w count := by
  rcases Nat.lt_or_ge (count * 8) 64 with h | h
  · refine littleEndian_congr ?_
    rw [toNat_lowBits h, Nat.mul_comm, Nat.pow_mul]
    exact Nat.mod_mod _ _
  · rw [lowBits, if_pos h]

theorem littleEndian_zero (count : Nat) : littleEndian 0 count = List.replicate count 0 := by
  induction count with
  | zero => rfl
  | succ count ih => rw [littleEndian, List.replicate_succ, ← ih]; rfl

/-! ## Reading a word -/

/-- The number whose bytes these are, least significant byte first. -/
def ofLittleEndian : List UInt8 → Nat
  | [] => 0
  | b :: bs => b.toNat + 256 * ofLittleEndian bs

/-- **The low bytes of a word hold its low bits.** -/
theorem ofLittleEndian_littleEndian (w : UInt64) (count : Nat) :
    ofLittleEndian (littleEndian w count) = w.toNat % 256 ^ count := by
  induction count generalizing w with
  | zero => rw [littleEndian, ofLittleEndian, Nat.pow_zero, Nat.mod_one]
  | succ count ih =>
    have hshift : (w >>> 8).toNat = w.toNat / 256 := by
      rw [UInt64.toNat_shiftRight, Nat.shiftRight_eq_div_pow]
      rfl
    have hfirst : w.toUInt8.toNat = w.toNat % 256 := UInt64.toNat_toUInt8 w
    rw [littleEndian, ofLittleEndian, ih, hshift, hfirst, Nat.pow_succ, Nat.mul_comm (256 ^ count),
      Nat.mod_mul]

end DataImage.Bits
