import Rulebook.Binary64.Shortest
import Rulebook.Json.Basic

/-!
# JSON text from values

Values are written without white space.  Strings escape what must be escaped and nothing else.  A
number of double precision is written with its shortest digits, ties going to even, and always with
a point or a power of ten, so that it can be told from a natural number.

* `Json.write`: the text of a value.
* `Json.ofBinary64`: a number as a JSON value; what is not finite is `null`.
-/

namespace Rulebook.Json

open Decimal (Numeral)

/-! ## Strings -/

/-- A character as it stands in a string. -/
def escape (c : Char) : List Char :=
  match c with
  | '\x22' => ['\x5c', '\x22']
  | '\x5c' => ['\x5c', '\x5c']
  | '\x08' => ['\x5c', 'b']
  | '\x0c' => ['\x5c', 'f']
  | '\n' => ['\x5c', 'n']
  | '\r' => ['\x5c', 'r']
  | '\t' => ['\x5c', 't']
  | c =>
    if c.toNat < 0x20 then
      ['\x5c', 'u', '0', '0', Nat.digitChar (c.toNat / 16), Nat.digitChar (c.toNat % 16)]
    else [c]

/-- A text as a string literal. -/
def stringText (s : String) : List Char := '\x22' :: (s.toList.flatMap escape ++ ['\x22'])

/-! ## Values -/

/-- The text of a token. -/
def Token.text : Token String → List Char
  | .openArray => ['[']
  | .closeArray => [']']
  | .openObject => ['\x7b']
  | .closeObject => ['\x7d']
  | .comma => [',']
  | .colon => [':']
  | .null => "null".toList
  | .bool true => "true".toList
  | .bool false => "false".toList
  | .number n => n.text
  | .string s => stringText s

/-- The characters of a value's text. -/
def writeChars (v : Json String) : List Char := v.tokens.flatMap Token.text

/-- The text of a value. -/
def write (v : Json String) : String := String.ofList v.writeChars

/-! ## Numbers -/

/-- Digits in full, with a zero after the point where no digit follows it. -/
def fullNumeral (sign : Option Decimal.Sign) (f : Decimal.Figures) : Numeral :=
  let (whole, fraction) := f.plain
  ⟨sign, whole, some (if fraction.isEmpty then ['0'] else fraction), none⟩

/-- One digit before the point, and a power of ten with its sign. -/
def powerNumeral (sign : Option Decimal.Sign) (f : Decimal.Figures) : Numeral :=
  let (first, others, power) := f.scientific
  ⟨sign, first, if others.isEmpty then none else some others,
    some ⟨some (if power < 0 then .minus else .plus), Nat.toDigits 10 power.natAbs⟩⟩

/-- The numeral of a finite number.  Numbers from `10 ^ -5` up to `10 ^ 16` are written in full. -/
def numeralOf (x : Binary64) : Numeral :=
  let f := x.figures .even
  if -5 < f.point ∧ f.point ≤ 16 then fullNumeral x.writtenSign f
  else powerNumeral x.writtenSign f

/-- A number of double precision as a JSON value. -/
def ofBinary64 (x : Binary64) : Json String :=
  if x.isFinite then .number (numeralOf x) else .null

/-- A natural number as a JSON value. -/
def ofNat (n : Nat) : Json String := .number (.ofNat n)

end Rulebook.Json
