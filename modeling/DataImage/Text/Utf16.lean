/-!
# UTF-16 code units

Strings of an image hold their characters as 16-bit units. A character outside the first plane takes
two of them, a high and a low surrogate.
-/

namespace DataImage.Text

/-- The units of one character. -/
def charUnits (c : Char) : List UInt16 :=
  if c.toNat < 0x10000 then [UInt16.ofNat c.toNat]
  else
    let rest := c.toNat - 0x10000
    [UInt16.ofNat (0xD800 + rest / 0x400), UInt16.ofNat (0xDC00 + rest % 0x400)]

/-- The units of a text. -/
def utf16 (s : String) : List UInt16 := s.toList.flatMap charUnits

end DataImage.Text
