import Rulebook.Decimal.Numeral

/-!
# The digits that a word holds

Digits are gathered into a coefficient of 64 bits as long as it holds the result, first those before
the point and then those after it; on each side the digits from the first that does not fit are left
out.  A digit left out before the point counts as a power of ten, one left out after the point
counts for nothing.  A numeral whose digits all fit keeps its value.

* `takeIntoWord`: the digits taken on one side of the point.
* `Numeral.leading`: the decimal of the digits that were taken.
* `Numeral.leading_eq_value`: nothing is lost where the digits fit.
-/

namespace Rulebook.Decimal

/-- A number with digits appended as long as 64 bits hold it, and the digits left out. -/
def takeIntoWord (n : Nat) : List Char → Nat × List Char
  | [] => (n, [])
  | c :: rest =>
    if appendDigit n c ≤ maxWord then takeIntoWord (appendDigit n c) rest else (n, c :: rest)

/-- The decimal of the leading digits of a numeral, as many as 64 bits hold. -/
def Numeral.leading (n : Numeral) : Value :=
  let whole := takeIntoWord 0 n.whole
  let fraction := takeIntoWord whole.1 n.fractionDigits
  ⟨n.value.negative, fraction.1, n.value.exponent + whole.2.length + fraction.2.length⟩

/-! ## Nothing is lost where the digits fit -/

/-- Appending digits never makes a number smaller. -/
theorem le_foldl_appendDigit (digits : List Char) (n : Nat) : n ≤ digits.foldl appendDigit n := by
  induction digits generalizing n with
  | nil => exact Nat.le_refl n
  | cons c rest ih =>
    have hstep : n ≤ appendDigit n c := by
      unfold appendDigit
      omega
    exact Nat.le_trans hstep (ih _)

/-- Digits that fit are all taken. -/
theorem takeIntoWord_eq_foldl {digits : List Char} {n : Nat}
    (h : digits.foldl appendDigit n ≤ maxWord) :
    takeIntoWord n digits = (digits.foldl appendDigit n, []) := by
  induction digits generalizing n with
  | nil => rfl
  | cons c rest ih =>
    have hc : appendDigit n c ≤ maxWord := Nat.le_trans (le_foldl_appendDigit rest _) h
    rw [takeIntoWord, if_pos hc]
    exact ih h

theorem Numeral.leading_eq_value {n : Numeral}
    (h : digitsValue (n.whole ++ n.fractionDigits) ≤ maxWord) : n.leading = n.value := by
  rw [digitsValue, List.foldl_append] at h
  have hwhole := takeIntoWord_eq_foldl (Nat.le_trans (le_foldl_appendDigit n.fractionDigits _) h)
  have hfraction := takeIntoWord_eq_foldl h
  simp [leading, hwhole, hfraction, value, digitsValue]

end Rulebook.Decimal
