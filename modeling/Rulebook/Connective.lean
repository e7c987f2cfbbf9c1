/-!
# Connectives

The two words that join conditions into a rule.  `AND` and `OR` are keywords only in capitals.
-/

namespace Rulebook

/-- How two rules are joined. -/
inductive Connective where
  | and
  | or
  deriving DecidableEq, Repr

namespace Connective

/-- The word as it stands in a rule. -/
def keyword : Connective → String
  | .and => "AND"
  | .or => "OR"

/-- The connective that a word is. -/
def ofKeyword? (s : String) : Option Connective :=
  if s = "AND" then some .and else if s = "OR" then some .or else none

@[simp] theorem ofKeyword?_keyword (c : Connective) : ofKeyword? c.keyword = some c := by
  cases c <;> rfl

end Connective

end Rulebook
