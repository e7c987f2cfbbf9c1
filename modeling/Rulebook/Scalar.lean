import Rulebook.Binary64.Text
import Rulebook.Text.Blank
import Rulebook.Text.Quoted

/-!
# Scalars

A field of a record holds a number or a text.  Each kind has a view as the other: a text that reads
as a number counts as that number, and a number has its printed form.

* `number?`, `asText`: the two views.
* `display`: the scalar as an error message shows it, a text in quotes.
* `same`: equality, in which numbers are compared as numbers.
-/

namespace Rulebook

/-- The value of a field. -/
inductive Scalar where
  | number (x : Binary64)
  | text (s : String)
  deriving DecidableEq, Repr

namespace Scalar

/-- The scalar as a number; blanks around the number in a text do not matter. -/
def number? : Scalar → Option Binary64
  | .number x => some x
  | .text s => Binary64.read? (Text.trim s.toList)

/-- Only a NaN counts as a NaN. -/
theorem isNaN_of_number? {value : Scalar} {x : Binary64} (h : value.number? = some x)
    (hvalue : ∀ y, value = .number y → y.isNaN = false) : x.isNaN = false := by
  cases value with
  | number y =>
    cases h
    exact hvalue x rfl
  | text s => exact Binary64.isNaN_of_read? h

/-- The scalar as a text. -/
def asText : Scalar → String
  | .number x => x.display
  | .text s => s

/-- The scalar as messages show it. -/
def display : Scalar → String
  | .number x => x.display
  | .text s => Text.quoted s

/-- Equality of scalars.  A number never equals a text, and a NaN does not equal itself. -/
def same : Scalar → Scalar → Bool
  | .number x, .number y => x.eq y
  | .text s, .text t => s == t
  | _, _ => false

end Scalar

end Rulebook
