import Rulebook.Cache
import Rulebook.Evaluate
import Rulebook.Rule.Parse

/-!
# The shared cache

Besides the caches of engines there is one that belongs to nobody.  It holds rules parsed under the
default depth limit; there is no limit on their length.

* `Shared.getOrParse`, `Shared.check`: a rule, and its answer on a record.
* `Shared.Request`, `Shared.handle`: what can be asked of the shared cache.
-/

namespace Rulebook.Shared

/-- The shared cache before its first use. -/
def initial : Cache := .new Defaults.cacheCapacity

/-- The tree of a rule, from the cache or parsed. -/
def getOrParse (c : Cache) (pick : Nat) (rule : String) : Except RuleError Tree × Cache :=
  c.getOrParse pick Rule.parseDefault rule

/-- The answer of a rule on a record. -/
def check (c : Cache) (pick : Nat) (record : Record) (rule : String) :
    Except RuleError Bool × Cache :=
  let (tree, after) := getOrParse c pick rule
  (tree.bind (Tree.evaluate record), after)

/-- What can be asked of the shared cache. -/
inductive Request where
  | getOrParse (rule : String)
  | check (record : Record) (rule : String)
  | clear

/-- What the shared cache answers. -/
inductive Reply where
  | tree (result : Except RuleError Tree)
  | verdict (result : Except RuleError Bool)
  | done

/-- The answer to a request, and the cache after it. -/
def handle (c : Cache) (pick : Nat) : Request → Reply × Cache
  | .getOrParse rule =>
    let (result, after) := getOrParse c pick rule
    (.tree result, after)
  | .check record rule =>
    let (result, after) := check c pick record rule
    (.verdict result, after)
  | .clear => (.done, c.clear)

end Rulebook.Shared
