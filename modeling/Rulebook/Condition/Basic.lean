import Rulebook.Comparator

/-!
# Conditions

A condition compares one field of a record with a literal.  It keeps the text it was read from:
that text is what is stored, and what an error message quotes.
-/

namespace Rulebook

/-- The value a condition compares with. -/
inductive Literal where
  | number (x : Binary64)
  | text (s : String)
  deriving DecidableEq, Repr

/-- A comparison of a field with a literal. -/
structure Condition where
  field : String
  comparator : Comparator
  literal : Literal
  /-- The text of the condition, without blanks at its ends. -/
  raw : String
  deriving DecidableEq, Repr

end Rulebook
