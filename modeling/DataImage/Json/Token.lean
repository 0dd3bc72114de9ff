import DataImage.Json.Number

/-!
# Tokens of JSON

The text of a document cut into brackets, commas, colons, strings, numbers and the three words. Only
the four blanks space, tab, line feed and carriage return may stand between tokens.

* `Token.scan?` gives the tokens of a text, or nothing if some part of it is no token.
-/

namespace DataImage.Json

/-- A part of a document. -/
inductive Token where
  | beginArray
  | endArray
  | beginObject
  | endObject
  | comma
  | colon
  | text (value : String)
  | number (value : Number)
  | bool (value : Bool)
  | null
deriving DecidableEq, Repr, Inhabited

namespace Token

/-- Whether a character may stand between tokens. -/
def isBlank (c : Char) : Bool := c = ' ' || c = '\t' || c = '\n' || c = '\r'

/-! ## Strings -/

/-- The value of a hexadecimal digit in either case. -/
def hexDigit? (c : Char) : Option Nat :=
  if c.isDigit then some (c.toNat - '0'.toNat)
  else if 'a' ≤ c ∧ c ≤ 'f' then some (c.toNat - 'a'.toNat + 10)
  else if 'A' ≤ c ∧ c ≤ 'F' then some (c.toNat - 'A'.toNat + 10)
  else none

/-- The 16-bit unit that four hexadecimal digits spell. -/
def unit? (a b c d : Char) : Option Nat := do
  return (((← hexDigit? a) * 16 + (← hexDigit? b)) * 16 + (← hexDigit? c)) * 16 + (← hexDigit? d)

/-- Whether a unit is the first half of a pair. -/
def isHighSurrogate (unit : Nat) : Bool := 0xD800 ≤ unit && unit ≤ 0xDBFF

/-- Whether a unit is the second half of a pair. -/
def isLowSurrogate (unit : Nat) : Bool := 0xDC00 ≤ unit && unit ≤ 0xDFFF

/-- The character of a pair of units. -/
def paired (high low : Nat) : Char :=
  Char.ofNat (0x10000 + (high - 0xD800) * 0x400 + (low - 0xDC00))

/-- The character that a letter behind a backslash stands for. -/
def escaped? : Char → Option Char
  | '"' => some '"'
  | '\\' => some '\\'
  | '/' => some '/'
  | 'b' => some '\x08'
  | 'f' => some '\x0c'
  | 'n' => some '\n'
  | 'r' => some '\r'
  | 't' => some '\t'
  | _ => none

/-- The characters of a string up to its closing quote, and what follows the quote. Halves of a pair
must come together, and control characters must be escaped. -/
def string? : List Char → Option (List Char × List Char)
  | [] => none
  | '"' :: rest => some ([], rest)
  | '\\' :: 'u' :: a :: b :: c :: d :: rest => do
    let unit ← unit? a b c d
    if isLowSurrogate unit then none
    else if isHighSurrogate unit then
      match rest with
      | '\\' :: 'u' :: a :: b :: c :: d :: rest => do
        let low ← unit? a b c d
        guard (isLowSurrogate low)
        let (cs, rest) ← string? rest
        return (paired unit low :: cs, rest)
      | _ => none
    else do
      let (cs, rest) ← string? rest
      return (Char.ofNat unit :: cs, rest)
  | '\\' :: letter :: rest => do
    let c ← escaped? letter
    let (cs, rest) ← string? rest
    return (c :: cs, rest)
  | c :: rest => do
    guard (c ≠ '\\' ∧ 0x20 ≤ c.toNat)
    let (cs, rest) ← string? rest
    return (c :: cs, rest)

/-! ## Words and numbers -/

/-- The token of a word. -/
def ofWord? : List Char → Option Token
  | ['n', 'u', 'l', 'l'] => some .null
  | ['t', 'r', 'u', 'e'] => some (.bool true)
  | ['f', 'a', 'l', 's', 'e'] => some (.bool false)
  | _ => none

/-- Whether a character may occur in a number. -/
def isNumberChar (c : Char) : Bool :=
  c.isDigit || c = '-' || c = '+' || c = '.' || c = 'e' || c = 'E'

/-- The token of a number. -/
def ofNumber? (cs : List Char) : Option Token := do
  let literal ← Literal.ofChars? cs
  return .number (← literal.number?)

/-! ## Scanning -/

/-- The longest run of characters of a class, and what follows it. -/
def span (p : Char → Bool) (cs : List Char) : List Char × List Char :=
  (cs.takeWhile p, cs.dropWhile p)

/-- The token that starts with a character, and what follows it. -/
def next? (c : Char) (rest : List Char) : Option (Token × List Char) :=
  match c with
  | '[' => some (.beginArray, rest)
  | ']' => some (.endArray, rest)
  | '\x7b' => some (.beginObject, rest)
  | '\x7d' => some (.endObject, rest)
  | ',' => some (.comma, rest)
  | ':' => some (.colon, rest)
  | '"' => do
    let (cs, rest) ← string? rest
    return (.text (String.ofList cs), rest)
  | c =>
    if c.isAlpha then do
      let (word, rest) := span Char.isAlpha (c :: rest)
      return (← ofWord? word, rest)
    else do
      let (digits, rest) := span isNumberChar (c :: rest)
      return (← ofNumber? digits, rest)

/-- The tokens of a text, of which at most `steps` characters start a token or stand between two. -/
def scanWithin? : (steps : Nat) → List Char → Option (List Token)
  | _, [] => some []
  | 0, _ => none
  | steps + 1, c :: rest =>
    if isBlank c then scanWithin? steps rest
    else do
      let (token, rest) ← next? c rest
      return token :: (← scanWithin? steps rest)

/-- The tokens of a text. Each step uses up a character at least. -/
def scan? (text : String) : Option (List Token) :=
  let cs := text.toList
  scanWithin? cs.length cs

end Token

end DataImage.Json
