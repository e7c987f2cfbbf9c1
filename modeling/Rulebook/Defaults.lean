/-!
# Default limits

The limits that hold where a caller names none.
-/

namespace Rulebook.Defaults

/-- The greatest length of a rule, in bytes of UTF-8. -/
def maxRuleLength : Nat := 4096

/-- The greatest depth of a tree. -/
def maxDepth : Nat := 64

/-- The number of rules a cache keeps. -/
def cacheCapacity : Nat := 1024

end Rulebook.Defaults
