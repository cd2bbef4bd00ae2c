import DomainForms.Text.Visible

/-!
# Quoted text

Diagnostics quote the texts that they mention.  A quoted text stands between double quotes; inside,
the quote and the backslash are escaped, the common control characters have a letter each, and every
other character that does not show on its own is written as its code point in braces.

* `quote`: the quoted form of a text.
-/

namespace DomainForms.Text

/-- A code point in lower-case hexadecimal, in braces. -/
def codePointEscape (c : Char) : List Char :=
  '\\' :: 'u' :: Char.ofNat 0x7B :: Nat.toDigits 16 c.toNat ++ [Char.ofNat 0x7D]

/-- One character inside a quoted text. -/
def quoteChar (c : Char) : List Char :=
  match c.toNat with
  | 0 => ['\\', '0']
  | 9 => ['\\', 't']
  | 10 => ['\\', 'n']
  | 13 => ['\\', 'r']
  | 34 => ['\\', '"']
  | 92 => ['\\', '\\']
  | _ => if isVisible c then [c] else codePointEscape c

/-- The quoted form of a text. -/
def quote (text : String) : String :=
  "\"" ++ String.ofList (text.toList.flatMap quoteChar) ++ "\""

end DomainForms.Text
