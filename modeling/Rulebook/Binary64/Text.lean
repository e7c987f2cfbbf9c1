import Rulebook.Binary64.Rounding
import Rulebook.Binary64.Shortest

/-!
# Numbers as text

Where a rule or a record gives a text, that text may read as a number; where a number meets a text,
its printed form is compared.  Reading never gives a NaN, so a text such as `nan` simply is no
number.  Printing writes all digits out and uses no power of ten.

* `read?`: the number that a text reads as.
* `display`: the printed form.
* `isSome_read?_displayChars`: every printed form but that of a NaN reads as a number.
-/

namespace Rulebook.Binary64

/-- The ASCII letters of a text in lower case. -/
def lowerCase (cs : List Char) : List Char := cs.map Char.toLower

/-- Whether a text is one of the two names of infinity, in any case. -/
def isInfinityName (cs : List Char) : Bool :=
  lowerCase cs == "inf".toList || lowerCase cs == "infinity".toList

/-- The number that a text reads as: an infinity with an optional sign, or the number nearest to a
plain numeral.  No space is skipped. -/
def read? (cs : List Char) : Option Binary64 :=
  if isInfinityName (Decimal.takeSign cs).2 then
    some (ofMagnitude ((Decimal.takeSign cs).1 = some .minus) infinityMagnitude)
  else
    match Decimal.Numeral.read? cs with
    | some n => if n.IsPlain then some (ofDecimal n.value) else none
    | none => none

/-- Nothing reads as a NaN. -/
theorem isNaN_of_read? {cs : List Char} {x : Binary64} (h : read? cs = some x) :
    x.isNaN = false := by
  unfold read? at h
  split at h
  · cases h
    exact isNaN_ofMagnitude _ (Nat.le_refl _)
  · split at h
    · split at h
      · cases h
        exact isNaN_ofDecimal _
      · cases h
    · cases h

/-- The printed form of a number: the shortest digits that read back, a tie going away from zero,
written out in full. -/
def displayChars (x : Binary64) : List Char :=
  if x.isNaN then "NaN".toList
  else if x.isFinite then (x.figures .away).toNumeral x.writtenSign |>.text
  else Decimal.Sign.text x.writtenSign ++ "inf".toList

/-- The printed form of a number, as a string. -/
def display (x : Binary64) : String := String.ofList x.displayChars

/-- A plain numeral reads as a number. -/
theorem isSome_read?_text {n : Decimal.Numeral} (hn : n.IsNumeric) (hp : n.IsPlain) :
    (read? n.text).isSome = true := by
  unfold read?
  split
  · rfl
  · rw [Decimal.Numeral.read?_text hn]
    simp [hp]

/-- Printed numbers read as numbers. -/
theorem isSome_read?_displayChars {x : Binary64} (h : x.isNaN = false) :
    (read? x.displayChars).isSome = true := by
  unfold displayChars
  rw [h]
  simp only [Bool.false_eq_true, if_false]
  split
  · exact isSome_read?_text ((isNumeric_figures _ _).toNumeral _)
      (Decimal.Figures.isPlain_toNumeral _ _)
  · unfold writtenSign
    split <;> rfl

end Rulebook.Binary64
