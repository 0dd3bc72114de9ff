import DataImage.Module.Text
import DataImage.Proofs.Bits
import DataImage.Proofs.Module.Names
import DataImage.Proofs.Module.Verifying
import Mathlib.Data.Int.ModEq

/-!
# Integers as they are printed

An integer constant keeps a word of which the bits of its width count, and a signed one is printed
as the number these bits spell in two's complement. Shifting a word up and arithmetically down again
is taking the balanced remainder of its value (`Bits.signedValue_eq_bmod`), so the number is in the
range of the width, is congruent to the word, and gives the bits back: these are the fields of
`Bits.SignedReading`.

`Module.bits_of_integer_text` adds what follows for texts: constants that pass the check and are
printed the same are the same word of the same width.
-/

namespace DataImage

namespace Bits

variable {v w : UInt64} {bits : Nat}

/-! ## Low bits -/

/-- The low bits are the remainder at the width, of which no more than 64 bits count. -/
theorem toNat_lowBits_min (v : UInt64) (bits : Nat) :
    (lowBits v bits).toNat = v.toNat % 2 ^ min bits 64 := by
  rcases Nat.lt_or_ge bits 64 with h | h
  · rw [Nat.min_eq_left (Nat.le_of_lt h), toNat_lowBits h]
  · rw [lowBits, if_pos h, Nat.min_eq_right h, Nat.mod_eq_of_lt v.toNat_lt]

theorem testBit_lowBits (v : UInt64) (bits i : Nat) :
    (lowBits v bits).toNat.testBit i = (decide (i < min bits 64) && v.toNat.testBit i) := by
  rw [toNat_lowBits_min, Nat.testBit_mod_two_pow]

theorem lowBits_eq_iff :
    lowBits v bits = lowBits w bits ↔
      (v.toNat : Int) ≡ w.toNat [ZMOD (2 ^ min bits 64 : Nat)] := by
  rw [← UInt64.toNat_inj, toNat_lowBits_min, toNat_lowBits_min, Int.natCast_modEq_iff]
  rfl

/-! ## Two's complement -/

/-- Shifting up drops all but the low bits and multiplies what is left, and shifting down divides
again, so the sign of the top bit is all that is added. -/
theorem signedValue_eq_bmod (v : UInt64) (hbits : 1 ≤ bits) :
    signedValue v bits = Int.bmod v.toNat (2 ^ min bits 64) := by
  rcases Nat.lt_or_ge bits 64 with h | h
  · have hpow : 2 ^ (64 - bits) * 2 ^ bits = 2 ^ 64 := by
      rw [← Nat.pow_add, Nat.sub_add_cancel (Nat.le_of_lt h)]
    have hup : (v.toBitVec <<< (64 - bits)).toInt =
        ((2 ^ (64 - bits) : Nat) : Int) * Int.bmod v.toNat (2 ^ bits) := by
      rw [BitVec.toInt_shiftLeft, ← Int.mod_bmod_mul_of_pos _ _ (Nat.two_pow_pos _)
        (Dvd.intro_left _ (Nat.pow_pred_mul hbits)), hpow]
      refine congrArg (Int.bmod · (2 ^ 64)) ?_
      rw [Nat.shiftLeft_eq, Nat.mul_comm]
      exact Int.natCast_mul _ _
    have hpos : ((2 ^ (64 - bits) : Nat) : Int) ≠ 0 :=
      Int.natCast_ne_zero.2 (Nat.two_pow_pos _).ne'
    rw [signedValue, if_neg (by omega), BitVec.toInt_sshiftRight, hup, Int.shiftRight_eq_div_pow,
      Int.mul_ediv_cancel_left _ hpos, Nat.min_eq_left (Nat.le_of_lt h)]
  · rw [signedValue, if_pos (Or.inr h), Nat.min_eq_right h]
    exact BitVec.toInt_eq_toNat_bmod v.toBitVec

theorem signedValue_modEq (v : UInt64) (hbits : 1 ≤ bits) :
    signedValue v bits ≡ v.toNat [ZMOD (2 ^ min bits 64 : Nat)] := by
  rw [signedValue_eq_bmod v hbits]
  exact Int.bmod_emod

theorem signedValue_eq_iff (hbits : 1 ≤ bits) :
    signedValue v bits = signedValue w bits ↔ lowBits v bits = lowBits w bits := by
  rw [lowBits_eq_iff]
  constructor
  · intro h
    exact (signedValue_modEq v hbits).symm.trans (h ▸ signedValue_modEq w hbits)
  · intro h
    rw [signedValue_eq_bmod v hbits, signedValue_eq_bmod w hbits, ← Int.emod_bmod, h, Int.emod_bmod]

/-- What the low bits of a word and the number they spell in two's complement are, at a width of
which no more than 64 bits count. -/
structure SignedReading (v : UInt64) (bits : Nat) : Prop where
  /-- The low bits are kept and no others. -/
  kept : ∀ i, (lowBits v bits).toNat.testBit i = (decide (i < min bits 64) && v.toNat.testBit i)
  idempotent : lowBits (lowBits v bits) bits = lowBits v bits
  lower : -2 ^ (min bits 64 - 1) ≤ signedValue v bits
  upper : signedValue v bits < 2 ^ (min bits 64 - 1)
  congruent : signedValue v bits ≡ v.toNat [ZMOD 2 ^ min bits 64]
  /-- The number depends on the low bits only. -/
  low : signedValue (lowBits v bits) bits = signedValue v bits
  /-- Words with other low bits have another number. -/
  exact : ∀ w, signedValue w bits = signedValue v bits ↔ lowBits w bits = lowBits v bits
  /-- The word of the number has the same low bits. -/
  back : lowBits (UInt64.ofInt (signedValue v bits)) bits = lowBits v bits

/-- The word of a number is congruent to it, at the word's width and so at every smaller one. -/
theorem toNat_ofInt_modEq (x : Int) (bits : Nat) :
    ((UInt64.ofInt x).toNat : Int) ≡ x [ZMOD (2 ^ min bits 64 : Nat)] := by
  have hlt : (x % 2 ^ 64).toNat < 2 ^ 64 :=
    (Int.toNat_lt' (by decide)).2 (Int.emod_lt_of_pos x (by decide))
  have hword : ((UInt64.ofInt x).toNat : Int) ≡ x [ZMOD (2 ^ 64 : Nat)] := by
    rw [UInt64.ofInt, UInt64.toNat_ofNat_of_lt' hlt,
      Int.toNat_of_nonneg (Int.emod_nonneg x (by decide))]
    exact Int.mod_modEq x _
  exact hword.of_dvd (Int.natCast_dvd_natCast.2 (Nat.pow_dvd_pow 2 (Nat.min_le_right bits 64)))

/-- **The signed reading is the number in the range of the width that is congruent to the word**,
and it determines the low bits. -/
theorem signedReading (v : UInt64) (hbits : 1 ≤ bits) : SignedReading v bits := by
  have hhalf : 2 ^ min bits 64 = 2 * 2 ^ (min bits 64 - 1) := by
    rw [Nat.mul_comm, Nat.pow_pred_mul (by omega)]
  have hbmod := signedValue_eq_bmod v hbits
  rw [hhalf] at hbmod
  exact
    { kept := testBit_lowBits v bits
      idempotent := lowBits_lowBits v bits
      lower := by
        rw [hbmod]
        refine le_trans (le_of_eq ?_) (Int.le_bmod (Nat.mul_pos (by decide) (Nat.two_pow_pos _)))
        push_cast
        omega
      upper := by
        rw [hbmod]
        refine lt_of_lt_of_eq (Int.bmod_lt (Nat.mul_pos (by decide) (Nat.two_pow_pos _))) ?_
        push_cast
        omega
      congruent := by simpa using signedValue_modEq v hbits
      low := (signedValue_eq_iff hbits).2 (lowBits_lowBits v bits)
      exact := fun _ => signedValue_eq_iff hbits
      back := lowBits_eq_iff.2 ((toNat_ofInt_modEq _ bits).trans (signedValue_modEq v hbits)) }

end Bits

namespace Module

variable {m : Module} {bits bits' : Nat} {v v' : UInt64} {signed signed' : Bool}

/-! ## Texts of integers -/

/-- The number that an integer constant is printed as. -/
def printedValue (bits : Nat) (value : UInt64) (signed : Bool) : Int :=
  if signed then Bits.signedValue value bits else value.toNat

theorem constantText_int :
    m.constantText (.int bits v signed) =
      "i" ++ toString bits ++ " " ++ toString (printedValue bits v signed) := by
  rw [constantText, integerText, printedValue]
  cases signed <;> rfl

theorem toList_integer_text (bits : Nat) (x : Int) :
    ("i" ++ toString bits ++ " " ++ toString x).toList =
      ('i' :: Nat.toDigits 10 bits) ++ ' ' :: (toString x).toList := by
  simp [Nat.toList_repr]

theorem toList_toString_ofNat (n : Nat) : (toString (Int.ofNat n)).toList = Nat.toDigits 10 n :=
  Nat.toList_repr

theorem toList_toString_negSucc (n : Nat) :
    (toString (Int.negSucc n)).toList = '-' :: Nat.toDigits 10 (n + 1) := by
  change ("-" ++ Nat.repr (n + 1)).toList = _
  rw [String.toList_append, Nat.toList_repr]
  rfl

/-- A text of a width and a number ends in digits, and the mark in front of them is the blank after
the width, or a sign after this blank. -/
theorem eq_of_integer_text {x x' : Int}
    (h : "i" ++ toString bits ++ " " ++ toString x = "i" ++ toString bits' ++ " " ++ toString x') :
    bits = bits' ∧ x = x' := by
  have hlist := congrArg String.toList h
  rw [toList_integer_text, toList_integer_text] at hlist
  cases x with
  | ofNat n =>
    rw [toList_toString_ofNat] at hlist
    cases x' with
    | ofNat n' =>
      rw [toList_toString_ofNat] at hlist
      obtain ⟨hbits, -, hn⟩ := append_toDigits_inj (by decide) (by decide) hlist
      exact ⟨eq_of_toDigits_eq (List.cons.inj hbits).2, congrArg _ hn⟩
    | negSucc n' =>
      rw [toList_toString_negSucc, List.append_cons _ ' ' ('-' :: _)] at hlist
      obtain ⟨-, hmark, -⟩ := append_toDigits_inj (by decide) (by decide) hlist
      exact absurd hmark (by decide)
  | negSucc n =>
    rw [toList_toString_negSucc, List.append_cons _ ' ' ('-' :: _)] at hlist
    cases x' with
    | ofNat n' =>
      rw [toList_toString_ofNat] at hlist
      obtain ⟨-, hmark, -⟩ := append_toDigits_inj (by decide) (by decide) hlist
      exact absurd hmark (by decide)
    | negSucc n' =>
      rw [toList_toString_negSucc, List.append_cons _ ' ' ('-' :: _)] at hlist
      obtain ⟨hbits, -, hn⟩ := append_toDigits_inj (by decide) (by decide) hlist
      have hdigits := (List.cons.inj (List.append_cancel_right hbits)).2
      exact ⟨eq_of_toDigits_eq hdigits, congrArg _ (Nat.succ.inj hn)⟩

/-- With a sign or without one, the number that is printed is congruent to the word. -/
theorem printedValue_modEq (hbits : 1 ≤ bits) (v : UInt64) (signed : Bool) :
    printedValue bits v signed ≡ v.toNat [ZMOD (2 ^ min bits 64 : Nat)] := by
  cases signed with
  | false => exact Int.ModEq.rfl
  | true => exact Bits.signedValue_modEq v hbits

/-- **The text of an integer determines its bits.** The signed reading is what the fields of
`Bits.SignedReading` say at every width, and integer constants that pass the check and have the same
text are the same word of the same width, with whatever sign they are read. -/
theorem bits_of_integer_text :
    (∀ v bits, 1 ≤ bits → Bits.SignedReading v bits) ∧
      ∀ (m m' : Module) (bits bits' : Nat) (v v' : UInt64) (signed signed' : Bool),
        m.constantFaults (.int bits v signed) = [] →
        m'.constantFaults (.int bits' v' signed') = [] →
        m.constantText (.int bits v signed) = m'.constantText (.int bits' v' signed') →
        bits = bits' ∧ v = v' := by
  refine ⟨fun v _ hbits => Bits.signedReading v hbits, ?_⟩
  intro m m' bits bits' v v' signed signed' hfaults hfaults' htext
  obtain ⟨hbits, -, hlow⟩ := constantFaults_int_eq_nil_iff.1 hfaults
  obtain ⟨-, -, hlow'⟩ := constantFaults_int_eq_nil_iff.1 hfaults'
  rw [constantText_int, constantText_int] at htext
  obtain ⟨rfl, hprinted⟩ := eq_of_integer_text htext
  have hv := printedValue_modEq (Nat.one_le_iff_ne_zero.2 hbits) v signed
  have hv' := printedValue_modEq (Nat.one_le_iff_ne_zero.2 hbits) v' signed'
  rw [← hprinted] at hv'
  have hsame := Bits.lowBits_eq_iff.2 (hv.symm.trans hv')
  exact ⟨rfl, by rw [← hlow, ← hlow', hsame]⟩

/-- A byte of ones is read as minus one. The byte 127 has one text with a sign and without one, in
whatever module it stands, and a byte with another text is another one. -/
theorem bits_of_integer_text_byte :
    let m : Module := { name := "signed", nativeBits := 64 }
    let m' : Module := { name := "unsigned", nativeBits := 32 }
    (Bits.SignedReading 255 8 ∧ Bits.signedValue 255 8 = -1) ∧
      (m.constantText (.int 8 127 true) = "i8 127" ∧ m'.constantText (.int 8 127 false) = "i8 127" ∧
        (8 = 8 ∧ (127 : UInt64) = 127)) ∧
      m.constantText (.int 8 255 true) ≠ m'.constantText (.int 8 255 false) := by
  intro m m'
  have htext : m.constantText (.int 8 127 true) = m'.constantText (.int 8 127 false) := by
    decide +kernel
  exact ⟨⟨bits_of_integer_text.1 255 8 (by decide), by decide +kernel⟩,
    ⟨by decide +kernel, by decide +kernel,
      bits_of_integer_text.2 m m' 8 8 127 127 true false (by decide +kernel) (by decide +kernel)
        htext⟩,
    by decide +kernel⟩

end Module

end DataImage
