/-!
# Double-precision numbers

A number of the IEEE 754 format binary64 is its 64 bits: a sign and a magnitude.  The magnitudes of
the numbers increase with the numbers themselves, the infinities included, so the comparison of two
numbers is a comparison of integers, and no real arithmetic is needed to reason about it.

* `magnitude`, `isNegative`: the bits below the sign, and the sign.
* `rank`: the signed magnitude.  The two zeros share rank zero.
* `eq`, `lt`, `le`: the comparisons of IEEE 754, false where a NaN takes part.
* `units`: the value of a magnitude in units of `2 ^ -1074`, the least positive number.
-/

namespace Rulebook

/-- A double-precision number, held as its bits. -/
structure Binary64 where
  bits : UInt64
  deriving DecidableEq, Repr

namespace Binary64

/-- The sign bit; the bits below it are the magnitude. -/
def signBit : Nat := 0x8000000000000000

/-- The number of magnitudes that share a scale, which is two to the power 52. -/
def scaleSize : Nat := 0x10000000000000

/-- The magnitude of the infinities.  Greater ones are those of the NaNs. -/
def infinityMagnitude : Nat := 0x7FF0000000000000

/-- The number with a given sign and magnitude. -/
def ofMagnitude (negative : Bool) (magnitude : Nat) : Binary64 :=
  ⟨UInt64.ofNat (if negative then signBit + magnitude else magnitude)⟩

/-- The bits below the sign. -/
def magnitude (x : Binary64) : Nat := x.bits.toNat % signBit

/-- Whether the sign bit is set. -/
def isNegative (x : Binary64) : Bool := signBit ≤ x.bits.toNat

def isNaN (x : Binary64) : Bool := infinityMagnitude < x.magnitude

def isFinite (x : Binary64) : Bool := x.magnitude < infinityMagnitude

theorem magnitude_ofMagnitude (negative : Bool) {m : Nat} (h : m < signBit) :
    (ofMagnitude negative m).magnitude = m := by
  unfold signBit at h
  cases negative <;>
    simp only [ofMagnitude, magnitude, signBit, UInt64.toNat_ofNat', Bool.false_eq_true, if_true,
      if_false] <;> omega

theorem isNegative_ofMagnitude (negative : Bool) {m : Nat} (h : m < signBit) :
    (ofMagnitude negative m).isNegative = negative := by
  unfold signBit at h
  cases negative <;>
    simp only [ofMagnitude, isNegative, signBit, UInt64.toNat_ofNat', Bool.false_eq_true, if_true,
      if_false, decide_eq_true_eq, decide_eq_false_iff_not] <;> omega

/-- A magnitude up to that of the infinities makes a number. -/
theorem isNaN_ofMagnitude (negative : Bool) {m : Nat} (h : m ≤ infinityMagnitude) :
    (ofMagnitude negative m).isNaN = false := by
  have hlt : m < signBit := Nat.lt_of_le_of_lt h (by decide)
  rw [isNaN, magnitude_ofMagnitude negative hlt]
  exact decide_eq_false (Nat.not_lt.mpr h)

/-! ## Comparison -/

/-- The signed magnitude: numbers other than NaN are ordered as their ranks are. -/
def rank (x : Binary64) : Int := if x.isNegative then -(x.magnitude : Int) else x.magnitude

/-- Neither number is a NaN. -/
def comparable (x y : Binary64) : Bool := !x.isNaN && !y.isNaN

/-- Equality of numbers: a NaN differs from itself, and the two zeros are equal. -/
def eq (x y : Binary64) : Bool := comparable x y && x.rank == y.rank

def lt (x y : Binary64) : Bool := comparable x y && decide (x.rank < y.rank)

def le (x y : Binary64) : Bool := comparable x y && decide (x.rank ≤ y.rank)

/-! ## Value -/

/-- The value of a magnitude in units of `2 ^ -1074`.  The bits above the lowest 52 scale the
others; as long as they are zero or one there is nothing to scale.  The infinities get the value
that the next power of two would have. -/
def units (magnitude : Nat) : Nat :=
  let scale := magnitude / scaleSize - 1
  (magnitude - scale * scaleSize) <<< scale

end Binary64

end Rulebook
