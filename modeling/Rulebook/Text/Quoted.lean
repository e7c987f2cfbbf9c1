import Rulebook.Text.Printable

/-!
# Quoted text

Error messages show a text value between double quotes, in such a way that every character of it
can be seen.  The apostrophe needs no escape, since the quotes are double.

* `escapeQuoted`: one character as it stands between the quotes.
* `quoted`: the whole text with its quotes.
-/

namespace Rulebook.Text

/-- A character as its code point: `\u`, then the hexadecimal digits in braces, lower case and
without leading zeros. -/
def codePoint (c : Char) : List Char :=
  ['\x5c', 'u', '\x7b'] ++ Nat.toDigits 16 c.toNat ++ ['\x7d']

/-- A character between double quotes. -/
def escapeQuoted (c : Char) : List Char :=
  match c with
  | '\x00' => ['\x5c', '0']
  | '\t' => ['\x5c', 't']
  | '\r' => ['\x5c', 'r']
  | '\n' => ['\x5c', 'n']
  | '\x5c' => ['\x5c', '\x5c']
  | '\x22' => ['\x5c', '\x22']
  | c => if isExtender c || !isPrintable c then codePoint c else [c]

/-- A text between double quotes. -/
def quoted (s : String) : String :=
  String.ofList (['\x22'] ++ s.toList.flatMap escapeQuoted ++ ['\x22'])

end Rulebook.Text
