import Rulebook.Defaults
import Rulebook.Rule.Parse

/-!
# Configuration

The limits and choices an engine works under.  A configuration need not be valid: an engine takes
any, and `validate` is asked only where a configuration is read from text.

* `Config.default`: what holds where nothing is said.
* `Config.validate`: the first part that must not be zero but is.
* `Config.parseRule`: a rule under the two limits, the length first.
-/

namespace Rulebook

/-- The choices an engine works under. -/
structure Config where
  /-- The greatest length of a rule, in bytes of UTF-8. -/
  maxRuleLength : Nat
  /-- The greatest depth of a tree. -/
  maxDepth : Nat
  /-- The connective that joins rules where the caller names none. -/
  defaultConnective : Connective
  /-- Whether parsed rules are cached. -/
  cacheRules : Bool
  /-- The number of parsed rules the cache keeps. -/
  cacheCapacity : Nat
  deriving DecidableEq, Repr

namespace Config

/-- The configuration that holds where nothing is said. -/
protected def default : Config where
  maxRuleLength := Defaults.maxRuleLength
  maxDepth := Defaults.maxDepth
  defaultConnective := .and
  cacheRules := true
  cacheCapacity := Defaults.cacheCapacity

/-- What makes a configuration invalid, if anything does.  The capacity of the cache matters only
if there is one. -/
def fault? (c : Config) : Option ConfigFault :=
  if c.maxRuleLength = 0 then some .maxRuleLength
  else if c.maxDepth = 0 then some .maxDepth
  else if c.cacheRules ∧ c.cacheCapacity = 0 then some .cacheCapacity
  else none

/-- Whether a configuration is valid, or else the error. -/
def validate (c : Config) : Except RuleError Unit :=
  match c.fault? with
  | some fault => .error (.config fault)
  | none => .ok ()

/-- A rule must not be too long.  Its length is that of the text as given, blanks included. -/
def checkLength (c : Config) (rule : String) : Except RuleError Unit :=
  if c.maxRuleLength < rule.utf8ByteSize then
    .error (.limit (.ruleLength rule.utf8ByteSize c.maxRuleLength))
  else
    .ok ()

/-- A tree must not be too deep. -/
def checkDepth (c : Config) (t : Tree) : Except RuleError Unit :=
  if c.maxDepth < t.depth then .error (.limit (.depth t.depth c.maxDepth)) else .ok ()

/-- The tree of a rule under the limits of a configuration. -/
def parseRule (c : Config) (rule : String) : Except RuleError Tree := do
  c.checkLength rule
  Rule.parse c.maxDepth rule

end Config

/-- The tree of a rule under the default limits. -/
def Rule.build (rule : String) : Except RuleError Tree := Config.default.parseRule rule

end Rulebook
