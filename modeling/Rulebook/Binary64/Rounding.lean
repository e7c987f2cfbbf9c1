import Rulebook.Binary64.Basic
import Rulebook.Decimal.Numeral

/-!
# Rounding to double precision

A quotient of natural numbers is rounded to the nearest magnitude, halves to the even one, by exact
integer division.  Decimals are quotients whose numerator or denominator is a power of ten; when
that power alone decides that the result is zero or infinite it is not computed, so the cost
follows the length of the numeral and not the size of its exponent.

* `nearest`: the magnitude nearest to a quotient.
* `ofDecimal`, `ofInt`: the numbers nearest to a decimal and to an integer; they are never NaN.
-/

namespace Rulebook.Binary64

/-- The integer nearest to a quotient; halfway between two integers, the even one. -/
def roundHalfEven (num den : Nat) : Nat :=
  let q := num / den
  let r := num % den
  if 2 * r < den then q else if den < 2 * r then q + 1 else q + q % 2

/-- The magnitude nearest to `num / den`.  In units of `2 ^ -1074` the quotient is shortened to 53
binary digits; a carry out of the rounding moves on to the next scale by itself, because the
magnitudes are consecutive.  Beyond the greatest finite number the answer is infinite. -/
def nearest (num den : Nat) : Nat :=
  let num := num <<< 1074
  let scale := Nat.log2 (num / den) - 52
  min infinityMagnitude (scale * scaleSize + roundHalfEven num (den <<< scale))

/-- The magnitude nearest to `coefficient · 10 ^ exponent`.  Since `8 ≤ 10`, a power of ten is at
least the same power of eight, which tells the two extreme cases apart from the rest. -/
def nearestDecimal (coefficient : Nat) : (exponent : Int) → Nat
  | .ofNat e =>
    if coefficient = 0 then 0
    else if 1024 ≤ coefficient.log2 + 3 * e then infinityMagnitude
    else nearest (coefficient * Nat.pow 10 e) 1
  | .negSucc e =>
    if coefficient = 0 then 0
    else if coefficient.log2 + 1076 ≤ 3 * (e + 1) then 0
    else nearest coefficient (Nat.pow 10 (e + 1))

/-- The number nearest to a decimal.  A zero keeps its sign. -/
def ofDecimal (d : Decimal.Value) : Binary64 :=
  ofMagnitude d.negative (nearestDecimal d.coefficient d.exponent)

/-- The number nearest to an integer. -/
def ofInt (n : Int) : Binary64 := ofMagnitude (n < 0) (nearest n.natAbs 1)

/-! ## Rounding gives numbers -/

theorem nearest_le (num den : Nat) : nearest num den ≤ infinityMagnitude := Nat.min_le_left _ _

theorem nearestDecimal_le (coefficient : Nat) (exponent : Int) :
    nearestDecimal coefficient exponent ≤ infinityMagnitude := by
  unfold nearestDecimal
  split
  · split
    · exact Nat.zero_le _
    · split
      · exact Nat.le_refl _
      · exact nearest_le _ _
  · split
    · exact Nat.zero_le _
    · split
      · exact Nat.zero_le _
      · exact nearest_le _ _

@[simp] theorem isNaN_ofDecimal (d : Decimal.Value) : (ofDecimal d).isNaN = false :=
  isNaN_ofMagnitude _ (nearestDecimal_le _ _)

@[simp] theorem isNaN_ofInt (n : Int) : (ofInt n).isNaN = false :=
  isNaN_ofMagnitude _ (nearest_le _ _)

end Rulebook.Binary64
