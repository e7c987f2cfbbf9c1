import Rulebook.Binary64.Rounding

/-!
# Scaling by powers of ten

A decimal of few digits can be valued in double precision alone: its coefficient is rounded, and the
result is multiplied or divided by a power of ten that is rounded too.  Each step is exact but for
its own rounding.  Up to a coefficient of 53 binary digits and an exponent of 22 only the last step
rounds, and the result is the nearest number; beyond that it may differ from the nearest number in
the last place, and at the end of the range one of the two may be infinite where the other is not.

* `product`, `quotient`: the operations of IEEE 754 on magnitudes.
* `scaled`: the number that a decimal is valued at; it is never a NaN.
-/

namespace Rulebook.Binary64

/-- The magnitude of the product of two finite numbers. -/
def product (x y : Nat) : Nat := nearest (units x * units y) (1 <<< 2148)

/-- The magnitude of the quotient of two finite numbers, the second of which is not zero. -/
def quotient (x y : Nat) : Nat := nearest (units x) (units y)

/-- The greatest exponent of a power of ten in the range of double precision. -/
def maxPower : Nat := 308

/-- The magnitude of a power of ten. -/
def powerOfTen (exponent : Nat) : Nat := nearest (Nat.pow 10 exponent) 1

/-- The magnitude of `coefficient · 10 ^ exponent`, one rounding for each operation.  A negative
exponent out of range is divided away in two steps; the coefficient has at most 64 binary digits, so
nothing is left of it where two steps are not enough. -/
def scaledMagnitude (coefficient : Nat) : (exponent : Int) → Nat
  | .ofNat e =>
    if e ≤ maxPower then product (nearest coefficient 1) (powerOfTen e)
    else if coefficient = 0 then 0
    else infinityMagnitude
  | .negSucc e =>
    let shift := e + 1
    if shift ≤ maxPower then quotient (nearest coefficient 1) (powerOfTen shift)
    else if shift ≤ 2 * maxPower then
      quotient (quotient (nearest coefficient 1) (powerOfTen maxPower))
        (powerOfTen (shift - maxPower))
    else 0

/-- The number that a decimal is valued at in double precision.  A zero keeps its sign. -/
def scaled (d : Decimal.Value) : Binary64 :=
  ofMagnitude d.negative (scaledMagnitude d.coefficient d.exponent)

theorem scaledMagnitude_le (coefficient : Nat) (exponent : Int) :
    scaledMagnitude coefficient exponent ≤ infinityMagnitude := by
  unfold scaledMagnitude
  split
  · split
    · exact nearest_le _ _
    · split
      · exact Nat.zero_le _
      · exact Nat.le_refl _
  · simp only []
    split
    · exact nearest_le _ _
    · split
      · exact nearest_le _ _
      · exact Nat.zero_le _

@[simp] theorem isNaN_scaled (d : Decimal.Value) : (scaled d).isNaN = false :=
  isNaN_ofMagnitude _ (scaledMagnitude_le _ _)

end Rulebook.Binary64
