import Rulebook.Binary64.Scaled
import Rulebook.Decimal.Leading

/-!
# The value of a JSON number

JSON numbers are valued in double precision: the leading digits make a coefficient of 64 bits, and
the rest is a power of ten.  A natural number that 64 bits hold is so valued at the nearest number;
a numeral of many digits may miss it in the last place, which a text with the same digits, read as a
number, never does.
-/

namespace Rulebook.Json

/-- The number that a JSON numeral stands for; beyond the range of double precision, an infinity. -/
def numberOf (n : Decimal.Numeral) : Binary64 := .scaled n.leading

/-- No JSON numeral stands for a NaN. -/
@[simp] theorem isNaN_numberOf (n : Decimal.Numeral) : (numberOf n).isNaN = false :=
  Binary64.isNaN_scaled _

end Rulebook.Json
