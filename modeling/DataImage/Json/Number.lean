/-!
# Numbers in JSON

A number literal is a whole part, perhaps a fraction, and perhaps an exponent. Documents of this
library only use integers that fit 64 bits, signed or unsigned; all other numbers are legal as long
as they are in range, but no place accepts them, so their values are not kept. Minus zero counts as
one of these.

A literal is in range when the binary floating-point number of 64 bits that stands for it is finite
(`Literal.inRange`). That number is the product of the leading digits, as many as fit a 64-bit word,
and a power of ten, both rounded to 53 significant bits before they are multiplied.
-/

namespace DataImage.Json

/-- The value of a number. -/
inductive Number where
  /-- An integer from -2^63 to 2^64 - 1, written without fraction and exponent. -/
  | integer (value : Int)
  /-- Any other number. -/
  | other
deriving DecidableEq, Repr, Inhabited

/-- The parts of a number literal. -/
structure Literal where
  negative : Bool
  /-- The digits before the point, at least one. -/
  whole : List Nat
  /-- The digits behind the point, at least one if there is a point. -/
  fraction : Option (List Nat) := none
  /-- The power of ten, if one is written. -/
  exponent : Option Int := none
deriving DecidableEq, Repr, Inhabited

namespace Literal

/-! ## Grammar -/

/-- The value of a digit. -/
def digitValue (c : Char) : Nat := c.toNat - '0'.toNat

/-- The number that digits spell in base ten. -/
def ofDigits (digits : List Nat) : Nat := digits.foldl (fun n d => n * 10 + d) 0

/-- The digits at the front, at least one, and what follows them. -/
def digits? (cs : List Char) : Option (List Nat × List Char) :=
  match cs.takeWhile (·.isDigit) with
  | [] => none
  | ds => some (ds.map digitValue, cs.dropWhile (·.isDigit))

/-- The sign at the front. -/
def sign : List Char → Bool × List Char
  | '-' :: cs => (true, cs)
  | cs => (false, cs)

/-- The digits before the point. A leading zero stands alone. -/
def whole? (cs : List Char) : Option (List Nat × List Char) :=
  match digits? cs with
  | some (0 :: _ :: _, _) => none
  | found => found

/-- The digits behind a point, if there is one. -/
def fraction? : List Char → Option (Option (List Nat) × List Char)
  | '.' :: cs => do
    let (ds, rest) ← digits? cs
    return (some ds, rest)
  | cs => some (none, cs)

/-- The power of ten behind its mark, with a sign of either kind or none. -/
def power? (cs : List Char) : Option (Int × List Char) :=
  match cs with
  | '-' :: cs => do
    let (ds, rest) ← digits? cs
    return (-(ofDigits ds : Int), rest)
  | '+' :: cs => do
    let (ds, rest) ← digits? cs
    return (ofDigits ds, rest)
  | cs => do
    let (ds, rest) ← digits? cs
    return (ofDigits ds, rest)

/-- The power of ten, if its mark is there. -/
def exponent? : List Char → Option (Option Int × List Char)
  | 'e' :: cs | 'E' :: cs => do
    let (power, rest) ← power? cs
    return (some power, rest)
  | cs => some (none, cs)

/-- Read a whole text as a number literal. -/
def ofChars? (cs : List Char) : Option Literal := do
  let (negative, cs) := sign cs
  let (whole, cs) ← whole? cs
  let (fraction, cs) ← fraction? cs
  let (exponent, cs) ← exponent? cs
  guard cs.isEmpty
  return { negative, whole, fraction, exponent }

/-! ## Range -/

/-- A number as a word times a power of ten. -/
structure Scaled where
  significand : Nat := 0
  power : Int := 0

/-- Append a digit before the point. Once the word is full, digits only count. -/
def Scaled.pushWhole (s : Scaled) (digit : Nat) : Scaled :=
  if s.power = 0 ∧ s.significand * 10 + digit < UInt64.size then
    { s with significand := s.significand * 10 + digit }
  else { s with power := s.power + 1 }

/-- Append digits behind the point, up to the first that does not fit the word. -/
def Scaled.pushFraction (s : Scaled) : List Nat → Scaled
  | [] => s
  | d :: ds =>
    if s.significand * 10 + d < UInt64.size then
      Scaled.pushFraction { significand := s.significand * 10 + d, power := s.power - 1 } ds
    else s

/-- The word and the power of ten of a literal. -/
def scaled (l : Literal) : Scaled :=
  let s := (l.whole.foldl Scaled.pushWhole {}).pushFraction (l.fraction.getD [])
  { s with power := s.power + l.exponent.getD 0 }

/-- Round to 53 significant bits, a tie to the even neighbour. -/
def round53 (n : Nat) : Nat :=
  let unit := Nat.pow 2 (n.log2 + 1 - 53)
  let quotient := n / unit
  let rest := n % unit
  if unit < 2 * rest ∨ (unit = 2 * rest ∧ quotient % 2 = 1) then (quotient + 1) * unit
  else quotient * unit

/-- The least number that rounds to an infinite one: half a unit above the greatest finite one. -/
def overflowBound : Nat := Nat.pow 2 1024 - Nat.pow 2 970

/-- Whether a literal stands for a finite number. -/
def inRange (l : Literal) : Bool :=
  let s := l.scaled
  s.significand = 0 || s.power < 0 ||
    (s.power ≤ 308 && round53 s.significand * round53 (Nat.pow 10 s.power.toNat) < overflowBound)

/-! ## Value -/

/-- The value of a literal, unless it is out of range. -/
def number? (l : Literal) : Option Number :=
  let magnitude := ofDigits l.whole
  if l.fraction.isSome || l.exponent.isSome then
    if l.inRange then some .other else none
  else if !l.negative && magnitude < UInt64.size then some (.integer magnitude)
  else if l.negative && 0 < magnitude && 2 * magnitude ≤ UInt64.size then
    some (.integer (-magnitude))
  else if l.inRange then some .other
  else none

end Literal

end DataImage.Json
