import Rulebook.Condition.Reader
import Rulebook.Defaults
import Rulebook.Rule.Group
import Rulebook.Rule.Split
import Rulebook.Tree.Basic

/-!
# Parsing rules

A rule is checked for balance as a whole, and is then taken apart from the outside in: enclosing
groups are peeled off, the rest is split at a keyword, and what has no keyword must be a condition.
The levels that the limit still allows drive the recursion, so no bound on the length of a rule is
needed for it to end, and a rule that is too deep is refused as soon as the limit is reached.

* `Rule.parseLevels`: a rule under a number of levels.
* `Rule.parse`: a rule under a depth limit.
-/

namespace Rulebook.Rule

open Text (trim)

/-- The tree of a balanced rule, given without blanks at its ends, that may have so many levels.
`limit` is the number of levels allowed for the whole rule, which is what an error reports. -/
def parseLevels (limit : Nat) : (levels : Nat) → List Char → Except RuleError Tree
  | 0, _ => .error (.limit (.nesting limit))
  | levels + 1, cs =>
    let inner := peelGroups cs
    if inner = [] then
      .error (.parse .emptyGroup)
    else
      match Split.find? inner with
      | none => (Condition.read inner).map Tree.leaf
      | some split =>
        let before := trim split.before
        let after := trim split.after
        if before = [] ∨ after = [] then
          .error (.parse (.missingOperand split.connective (String.ofList inner)))
        else do
          let left ← parseLevels limit levels before
          let right ← parseLevels limit levels after
          return .node split.connective left right

/-- The tree of a rule, given without blanks at its ends, under a depth limit. -/
def parseTrimmed (maxDepth : Nat) (cs : List Char) : Except RuleError Tree :=
  if cs = [] then
    .error (.parse .emptyRule)
  else
    match balanceFault? cs with
    | some fault => .error (.parse (.unbalanced fault (String.ofList cs)))
    | none => parseLevels maxDepth maxDepth cs

/-- The tree of a rule under a depth limit. -/
def parse (maxDepth : Nat) (rule : String) : Except RuleError Tree :=
  parseTrimmed maxDepth (trim rule.toList)

/-- The tree of a rule under the default depth limit. -/
def parseDefault (rule : String) : Except RuleError Tree := parse Defaults.maxDepth rule

end Rulebook.Rule
