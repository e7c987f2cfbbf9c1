import Rulebook.Connective
import Rulebook.Scalar

/-!
# Errors

Everything that can go wrong, held as its cause.  The wording is in one function, `message`, so
that a statement about an error speaks of what happened and not of a sentence.

* `RuleError`: the causes, grouped by `Kind`.
* `RuleError.message`: the text of an error.
-/

namespace Rulebook

/-- What keeps the parentheses and quotes of a text from balancing. -/
inductive BalanceFault where
  /-- A closing parenthesis without an opening one, at this offset in bytes of UTF-8. -/
  | unmatchedClose (offset : Nat)
  /-- A quote that is not closed. -/
  | openQuote
  /-- So many opening parentheses are not closed. -/
  | unclosed (count : Nat)
  deriving DecidableEq, Repr

/-- What is wrong with the structure of a rule. -/
inductive ParseFault where
  | emptyRule
  | unbalanced (fault : BalanceFault) (text : String)
  | emptyGroup
  | missingOperand (connective : Connective) (text : String)
  deriving DecidableEq, Repr

/-- What is wrong with a condition. -/
inductive ConditionFault where
  | noComparison (text : String)
  | unknownComparator (symbol : String)
  deriving DecidableEq, Repr

/-- Which part of a configuration is zero and must not be. -/
inductive ConfigFault where
  | maxRuleLength
  | maxDepth
  | cacheCapacity
  deriving DecidableEq, Repr

/-- Which limit is exceeded, and by what. -/
inductive Excess where
  /-- A rule of so many bytes. -/
  | ruleLength (bytes limit : Nat)
  /-- A rule that is still not taken apart at the lowest level allowed. -/
  | nesting (limit : Nat)
  /-- A tree of this depth. -/
  | depth (depth limit : Nat)
  /-- The tree that joins so many rules would have this depth. -/
  | combined (count depth limit : Nat)
  deriving DecidableEq, Repr

/-- Everything that can go wrong. -/
inductive RuleError where
  | parse (fault : ParseFault)
  | condition (fault : ConditionFault)
  | unknownField (name : String)
  /-- A condition asks for an order, but the field holds this value. -/
  | typeMismatch (raw field : String) (value : Scalar)
  | unknownOperator (word : String)
  /-- There is nothing to combine. -/
  | emptyInput
  | ruleNotFound (id : String)
  /-- The text is not JSON, or not JSON of the form asked for. -/
  | deserialization
  | config (fault : ConfigFault)
  | limit (excess : Excess)
  deriving DecidableEq, Repr

namespace RuleError

/-- The kinds of errors. -/
inductive Kind where
  | parse
  | condition
  | unknownField
  | typeMismatch
  | unknownOperator
  | emptyInput
  | ruleNotFound
  | deserialization
  | config
  | limit
  deriving DecidableEq, Repr

/-- The kind of an error. -/
def kind : RuleError → Kind
  | .parse _ => .parse
  | .condition _ => .condition
  | .unknownField _ => .unknownField
  | .typeMismatch .. => .typeMismatch
  | .unknownOperator _ => .unknownOperator
  | .emptyInput => .emptyInput
  | .ruleNotFound _ => .ruleNotFound
  | .deserialization => .deserialization
  | .config _ => .config
  | .limit _ => .limit

end RuleError

/-- A chain of two steps succeeds only if both do. -/
theorem exists_of_bind_eq_ok {ε α β : Type} {x : Except ε α} {f : α → Except ε β}
    {b : β} (h : x >>= f = .ok b) : ∃ a, x = .ok a ∧ f a = .ok b := by
  cases x with
  | ok a => exact ⟨a, rfl, h⟩
  | error e => cases h

/-! ## Wording -/

/-- The text of a balance fault, up to the text that has it. -/
def BalanceFault.message : BalanceFault → String
  | .unmatchedClose offset => "Unmatched ')' at byte " ++ toString offset
  | .openQuote => "Unterminated quote"
  | .unclosed count => "Unbalanced parentheses: " ++ toString count ++ " unclosed"

def ParseFault.message : ParseFault → String
  | .emptyRule => "Empty rule"
  | .unbalanced fault text => fault.message ++ " in: " ++ text
  | .emptyGroup => "Empty group"
  | .missingOperand connective text =>
    "Missing operand for " ++ connective.keyword ++ " in: " ++ text

def ConditionFault.message : ConditionFault → String
  | .noComparison text => "Expected `field <comparator> literal`, got: " ++ text
  | .unknownComparator symbol => "Unknown comparator: " ++ symbol

def ConfigFault.message : ConfigFault → String
  | .maxRuleLength => "max_rule_length must be positive"
  | .maxDepth => "max_depth must be positive"
  | .cacheCapacity => "cache_capacity must be positive when cache_rules is set"

def Excess.message : Excess → String
  | .ruleLength bytes limit =>
    "Rule is " ++ toString bytes ++ " bytes, limit is " ++ toString limit
  | .nesting limit => "Rule nests deeper than " ++ toString limit ++ " levels"
  | .depth levels limit =>
    "Rule nests " ++ toString levels ++ " levels deep, limit is " ++ toString limit
  | .combined count levels limit =>
    "Combining " ++ toString count ++ " rule(s) nests " ++ toString levels ++
      " levels deep, limit is " ++ toString limit

/-- The text of an error. -/
def RuleError.message : RuleError → String
  | .parse fault => "Parse error: " ++ fault.message
  | .condition fault => "Invalid condition: " ++ fault.message
  | .unknownField name => "Unknown field: " ++ name
  | .typeMismatch raw field value =>
    "Type mismatch: `" ++ raw ++ "` needs numbers on both sides, but " ++ field ++ " is " ++
      value.display
  | .unknownOperator word => "Unknown operator: " ++ word
  | .emptyInput => "Cannot combine an empty list of rules"
  | .ruleNotFound id => "Rule not found: " ++ id
  | .deserialization => "Deserialization error"
  | .config fault => "Invalid config: " ++ fault.message
  | .limit excess => "Limit exceeded: " ++ excess.message

end Rulebook
