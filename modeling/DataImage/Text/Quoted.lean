import DataImage.Text.Visible

/-!
# Quoted strings

A string as it is shown to a reader: between quotes, with a quote, a backslash, a line break or a
tab escaped, and with characters that would not be seen spelled by number.
-/

namespace DataImage.Text

/-- How a character is spelled between quotes. -/
def quoteChar (c : Char) : List Char :=
  match c with
  | '"' => ['\\', '"']
  | '\\' => ['\\', '\\']
  | '\n' => ['\\', 'n']
  | '\r' => ['\\', 'r']
  | '\t' => ['\\', 't']
  | '\x00' => ['\\', '0']
  | c =>
    if isVisible c then [c]
    else ['\\', 'u', '\x7b'] ++ Nat.toDigits 16 c.toNat ++ ['\x7d']

/-- A string between quotes. -/
def quote (s : String) : String :=
  String.ofList ('"' :: s.toList.flatMap quoteChar ++ ['"'])

end DataImage.Text
