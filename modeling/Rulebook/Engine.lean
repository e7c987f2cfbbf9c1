import Rulebook.Cache
import Rulebook.Config.Basic
import Rulebook.Evaluate
import Rulebook.Tree.Combine

/-!
# The engine

An engine keeps rules under names.  It works under a configuration that never changes, and caches
the rules it parses if the configuration says so.  Every operation is a function from the engine to
an answer and the engine after it; an operation that fails gives the engine back as it was.

* `Engine.new`: an engine without rules.
* `Engine.build`, `register`, `insert`, `remove`, `combine`, `evaluateRule`: the operations.
* `Engine.Request`, `Engine.Reply`, `Engine.handle`, `Engine.run`: whole histories.  The pick that
  comes with each request chooses what the cache evicts, should it have to.
* `Engine.run_preserves`: invariants of requests are invariants of histories.
-/

namespace Rulebook

/-- Named rules under a configuration. -/
structure Engine where
  config : Config
  /-- The rules by their names. -/
  rules : Std.ExtTreeMap String Tree
  /-- The parsed rules, if the configuration asks for a cache. -/
  cache? : Option Cache

namespace Engine

/-- An engine without rules. -/
def new (config : Config) : Engine where
  config := config
  rules := ∅
  cache? := if config.cacheRules then some (.new config.cacheCapacity) else none

/-- An engine under the default configuration. -/
protected def default : Engine := new .default

/-! ## Looking -/

/-- The rule of a name. -/
def rule? (e : Engine) (id : String) : Option Tree := e.rules[id]?

/-- The rule of a name, which must be there. -/
def lookup (e : Engine) (id : String) : Except RuleError Tree :=
  match e.rule? id with
  | some tree => .ok tree
  | none => .error (.ruleNotFound id)

/-- The names of the rules, in increasing order. -/
def ids (e : Engine) : List String := e.rules.keys

/-- The number of rules. -/
def size (e : Engine) : Nat := e.rules.size

def isEmpty (e : Engine) : Bool := e.rules.isEmpty

/-- The number of parsed rules in the cache. -/
def cacheSize (e : Engine) : Nat :=
  match e.cache? with
  | some cache => cache.size
  | none => 0

/-! ## Building and keeping rules -/

/-- The tree of a rule.  The length is checked before the cache is asked. -/
def build (e : Engine) (pick : Nat) (rule : String) : Except RuleError Tree × Engine :=
  match e.cache? with
  | none => (e.config.parseRule rule, e)
  | some cache =>
    match e.config.checkLength rule with
    | .error err => (.error err, e)
    | .ok () =>
      let (result, after) := cache.getOrParse pick (Rule.parse e.config.maxDepth) rule
      (result, { e with cache? := some after })

/-- The tree of a rule, which is then kept under a name. -/
def register (e : Engine) (pick : Nat) (id rule : String) : Except RuleError Tree × Engine :=
  match e.build pick rule with
  | (.error err, after) => (.error err, after)
  | (.ok tree, after) => (.ok tree, { after with rules := after.rules.insert id tree })

/-- A tree is kept under a name; the answer is the tree that had the name before. -/
def insert (e : Engine) (tree : Tree) (id : String) : Except RuleError (Option Tree) × Engine :=
  match e.config.checkDepth tree with
  | .error err => (.error err, e)
  | .ok () => (.ok (e.rule? id), { e with rules := e.rules.insert id tree })

/-- A name is given up; the answer is the tree that had it. -/
def remove (e : Engine) (id : String) : Option Tree × Engine :=
  (e.rule? id, { e with rules := e.rules.erase id })

/-- The engine with an empty cache. -/
def clearCache (e : Engine) : Engine := { e with cache? := e.cache?.map Cache.clear }

/-! ## Using rules -/

/-- The rules of several names joined in the order given.  The first name without a rule is the
error; without a connective the configured one is used. -/
def combine (e : Engine) (connective? : Option Connective) (ids : List String) :
    Except RuleError Tree := do
  let trees ← ids.mapM e.lookup
  Tree.combine trees (connective?.getD e.config.defaultConnective) e.config.maxDepth

/-- The answer of a rule on a record. -/
def evaluateRule (e : Engine) (record : Record) (id : String) : Except RuleError Bool := do
  let tree ← e.lookup id
  tree.evaluate record

/-! ## Histories -/

/-- What can be asked of an engine. -/
inductive Request where
  | build (rule : String)
  | register (id rule : String)
  | insert (tree : Tree) (id : String)
  | rule (id : String)
  | remove (id : String)
  | ids
  | size
  | isEmpty
  | combine (connective? : Option Connective) (ids : List String)
  | evaluateRule (record : Record) (id : String)
  | evaluate (tree : Tree) (record : Record)
  | clearCache

/-- What an engine answers. -/
inductive Reply where
  | tree (result : Except RuleError Tree)
  | replaced (result : Except RuleError (Option Tree))
  | found (tree : Option Tree)
  | ids (ids : List String)
  | size (n : Nat)
  | isEmpty (answer : Bool)
  | verdict (result : Except RuleError Bool)
  | done

/-- The answer to a request, and the engine after it. -/
def handle (e : Engine) (pick : Nat) : Request → Reply × Engine
  | .build rule =>
    let (result, after) := e.build pick rule
    (.tree result, after)
  | .register id rule =>
    let (result, after) := e.register pick id rule
    (.tree result, after)
  | .insert tree id =>
    let (result, after) := e.insert tree id
    (.replaced result, after)
  | .rule id => (.found (e.rule? id), e)
  | .remove id =>
    let (tree, after) := e.remove id
    (.found tree, after)
  | .ids => (.ids e.ids, e)
  | .size => (.size e.size, e)
  | .isEmpty => (.isEmpty e.isEmpty, e)
  | .combine connective? ids => (.tree (e.combine connective? ids), e)
  | .evaluateRule record id => (.verdict (e.evaluateRule record id), e)
  | .evaluate tree record => (.verdict (tree.evaluate record), e)
  | .clearCache => (.done, e.clearCache)

/-- The answers to a history of requests, each with its pick, and the engine after it. -/
def run (e : Engine) : List (Nat × Request) → List Reply × Engine
  | [] => ([], e)
  | (pick, request) :: rest =>
    let (reply, next) := e.handle pick request
    let (replies, last) := next.run rest
    (reply :: replies, last)

/-- What every request keeps, a history keeps. -/
theorem run_preserves {P : Engine → Prop}
    (hstep : ∀ e pick request, P e → P (e.handle pick request).2) {e : Engine} (h : P e)
    (history : List (Nat × Request)) : P (e.run history).2 := by
  induction history generalizing e with
  | nil => exact h
  | cons entry history ih =>
    obtain ⟨pick, request⟩ := entry
    exact ih (hstep e pick request h)

end Engine

end Rulebook
