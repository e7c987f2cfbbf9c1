/-!
# Decimal numerals

A numeral is the text of a number, taken apart but not yet valued: an optional sign, the digits
before the point, the digits after it and an exponent.  Bare literals in rules, text values in
records and JSON numbers are all numerals; they differ only in which numerals they admit, so one
scan serves all three and two predicates tell the grammars apart.

* `Numeral.read?` and `Numeral.text`: the scan of a whole text, and the text of a numeral.
* `Numeral.IsPlain`: what a rule or a record takes as a number.
* `Numeral.IsJson`: what JSON takes as a number.
* `Numeral.value`: the number a numeral stands for, as `± coefficient · 10 ^ exponent`.
-/

namespace Rulebook.Decimal

/-- A written sign. -/
inductive Sign where
  | plus
  | minus
  deriving DecidableEq, Repr

/-- The characters of an optional sign. -/
def Sign.text : Option Sign → List Char
  | none => []
  | some .plus => ['+']
  | some .minus => ['-']

/-- The sign at the start of a text, and what follows it. -/
def takeSign : List Char → Option Sign × List Char
  | '+' :: rest => (some .plus, rest)
  | '-' :: rest => (some .minus, rest)
  | rest => (none, rest)

/-- The digits at the start of a text, and what follows them. -/
def takeDigits (cs : List Char) : List Char × List Char :=
  (cs.takeWhile Char.isDigit, cs.dropWhile Char.isDigit)

/-- The greatest number that 64 bits hold. -/
def maxWord : Nat := 0xFFFFFFFFFFFFFFFF

/-- A number with one more digit at its end. -/
def appendDigit (n : Nat) (c : Char) : Nat := 10 * n + (c.toNat - 0x30)

/-- The number that a list of digits stands for. -/
def digitsValue (digits : List Char) : Nat := digits.foldl appendDigit 0

/-- A power of ten as it is written after the letter `e`. -/
structure Exponent where
  sign : Option Sign
  digits : List Char
  deriving DecidableEq, Repr

/-- The integer an exponent stands for. -/
def Exponent.value (e : Exponent) : Int :=
  if e.sign = some .minus then -(digitsValue e.digits : Int) else digitsValue e.digits

/-- A number as it is written. -/
structure Numeral where
  sign : Option Sign
  /-- The digits before the point. -/
  whole : List Char
  /-- The digits after the point, if there is a point. -/
  fraction : Option (List Char)
  exponent : Option Exponent
  deriving DecidableEq, Repr

/-- A number as a decimal: `coefficient · 10 ^ exponent`, negated where `negative` says so.  Zero
keeps its sign. -/
structure Value where
  negative : Bool
  coefficient : Nat
  exponent : Int
  deriving DecidableEq, Repr

namespace Numeral

/-! ## Reading -/

/-- The fraction at the start of a text, and what follows it. -/
def takeFraction : List Char → Option (List Char) × List Char
  | '.' :: rest => (some (takeDigits rest).1, (takeDigits rest).2)
  | rest => (none, rest)

/-- The sign and the digits after the letter of an exponent, and what follows them. -/
def takePower (cs : List Char) : Exponent × List Char :=
  (⟨(takeSign cs).1, (takeDigits (takeSign cs).2).1⟩, (takeDigits (takeSign cs).2).2)

/-- The exponent at the start of a text, and what follows it. -/
def takeExponent : List Char → Option Exponent × List Char
  | 'e' :: rest => (some (takePower rest).1, (takePower rest).2)
  | 'E' :: rest => (some (takePower rest).1, (takePower rest).2)
  | rest => (none, rest)

/-- The numeral that a text is, if the text holds nothing else.  Any group of digits may be empty
here; the grammars below say which. -/
def read? (cs : List Char) : Option Numeral :=
  let (sign, cs) := takeSign cs
  let (whole, cs) := takeDigits cs
  let (fraction, cs) := takeFraction cs
  let (exponent, cs) := takeExponent cs
  if cs.isEmpty then some ⟨sign, whole, fraction, exponent⟩ else none

/-! ## Writing -/

/-- The text of an optional fraction. -/
def fractionText : Option (List Char) → List Char
  | none => []
  | some digits => '.' :: digits

/-- The text of an optional exponent, with a small `e`. -/
def exponentText : Option Exponent → List Char
  | none => []
  | some e => 'e' :: (Sign.text e.sign ++ e.digits)

/-- The text of a numeral. -/
def text (n : Numeral) : List Char :=
  Sign.text n.sign ++ (n.whole ++ (fractionText n.fraction ++ exponentText n.exponent))

/-! ## Grammars -/

/-- The digits after the point, or none. -/
def fractionDigits (n : Numeral) : List Char := n.fraction.getD []

/-- An exponent, if there is one, has a digit. -/
def HasPower (n : Numeral) : Prop := ∀ e ∈ n.exponent, e.digits ≠ []

instance (n : Numeral) : Decidable n.HasPower :=
  inferInstanceAs (Decidable (∀ e ∈ n.exponent, e.digits ≠ []))

/-- A plain numeral has a digit on at least one side of the point, and one in its exponent. -/
def IsPlain (n : Numeral) : Prop :=
  (n.whole ≠ [] ∨ n.fractionDigits ≠ []) ∧ n.HasPower

instance (n : Numeral) : Decidable n.IsPlain :=
  inferInstanceAs (Decidable ((n.whole ≠ [] ∨ n.fractionDigits ≠ []) ∧ n.HasPower))

/-- A JSON numeral has no plus sign, a digit wherever digits may stand, and no zero in front of
another digit. -/
def IsJson (n : Numeral) : Prop :=
  n.sign ≠ some .plus ∧ n.whole ≠ [] ∧ (n.whole.head? = some '0' → n.whole = ['0']) ∧
    n.fraction ≠ some [] ∧ n.HasPower

instance (n : Numeral) : Decidable n.IsJson :=
  inferInstanceAs (Decidable (_ ∧ _ ∧ _ ∧ _ ∧ _))

/-- Every JSON numeral is plain. -/
theorem IsJson.isPlain {n : Numeral} (h : n.IsJson) : n.IsPlain :=
  ⟨Or.inl h.2.1, h.2.2.2.2⟩

/-! ## Value -/

/-- The number a numeral stands for: all its digits make the coefficient, and each digit after the
point lowers the exponent by one. -/
def value (n : Numeral) : Value where
  negative := n.sign = some .minus
  coefficient := digitsValue (n.whole ++ n.fractionDigits)
  exponent := (n.exponent.map Exponent.value).getD 0 - n.fractionDigits.length

/-- The natural number that a bare run of digits stands for, if 64 bits hold it.  A sign, a point
or an exponent makes a numeral no natural number, whatever its value. -/
def natural? (n : Numeral) : Option Nat :=
  if n.sign = none ∧ n.fraction = none ∧ n.exponent = none ∧ digitsValue n.whole ≤ maxWord then
    some (digitsValue n.whole)
  else
    none

/-- The numeral of a natural number. -/
def ofNat (n : Nat) : Numeral := ⟨none, Nat.toDigits 10 n, none, none⟩

end Numeral

end Rulebook.Decimal
