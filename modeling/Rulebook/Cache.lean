import Rulebook.Defaults
import Rulebook.Error
import Rulebook.Tree.Basic
import Std.Data.ExtTreeMap

/-!
# The cache of parsed rules

A cache maps the texts of rules to their trees and keeps a bounded number of them.  When it is full
and another rule is stored, one entry has to go, and nothing is promised about which.  So the choice
is an argument: `pick` counts through the entries, and every entry is some `pick`.  What holds for
all picks holds however the entry is chosen.

* `Cache.new`: an empty cache; at least one rule fits.
* `Cache.get?`, `Cache.insert`, `Cache.clear`: the bounded map.
* `Cache.get?_insert_self`, `Cache.get?_insert_of_ne`: what is held after a rule has been stored.
* `Cache.getOrParseM`: a rule from the cache, or parsed and then stored.  Failures are not stored.
  `Cache.getOrParse` is the case of a parse function without effects.
* `Cache.Request`, `Cache.handle`, `Cache.run`: whole histories of a cache.
-/

namespace Rulebook

/-- Parsed rules by their text, at most `capacity` of them. -/
structure Cache where
  capacity : Nat
  entries : Std.ExtTreeMap String Tree

namespace Cache

/-- An empty cache.  A capacity of zero is taken as one. -/
def new (capacity : Nat) : Cache := ⟨max capacity 1, ∅⟩

/-- The number of rules in the cache. -/
def size (c : Cache) : Nat := c.entries.size

def isEmpty (c : Cache) : Bool := c.entries.isEmpty

/-- Whether the cache holds a rule. -/
def contains (c : Cache) (rule : String) : Bool := c.entries.contains rule

/-- The tree of a rule, if the cache holds the rule. -/
def get? (c : Cache) (rule : String) : Option Tree := c.entries[rule]?

/-- The cache without its entries. -/
def clear (c : Cache) : Cache := { c with entries := ∅ }

/-- The rule that a pick stands for; an empty cache has none. -/
def victim? (c : Cache) (pick : Nat) : Option String := c.entries.keys[pick % c.size]?

/-- The cache without the rule that a pick stands for. -/
def evict (c : Cache) (pick : Nat) : Cache :=
  match c.victim? pick with
  | some rule => { c with entries := c.entries.erase rule }
  | none => c

/-- Whether storing a rule takes the place of another one. -/
def mustEvict (c : Cache) (rule : String) : Bool := c.capacity ≤ c.size && !c.contains rule

/-- The cache with a rule stored. -/
def insert (c : Cache) (pick : Nat) (rule : String) (tree : Tree) : Cache :=
  let kept := if c.mustEvict rule then c.evict pick else c
  { kept with entries := kept.entries.insert rule tree }

/-- The tree of a rule from the cache, or from `parse` if the cache does not hold the rule.  A parse
function with effects has them only when it is called. -/
def getOrParseM {m : Type → Type} [Monad m] (c : Cache) (pick : Nat)
    (parse : String → m (Except RuleError Tree)) (rule : String) :
    m (Except RuleError Tree × Cache) :=
  match c.get? rule with
  | some tree => pure (.ok tree, c)
  | none => do
    match ← parse rule with
    | .ok tree => pure (.ok tree, c.insert pick rule tree)
    | .error e => pure (.error e, c)

/-- The tree of a rule from the cache, or from a parse function without effects. -/
def getOrParse (c : Cache) (pick : Nat) (parse : String → Except RuleError Tree) (rule : String) :
    Except RuleError Tree × Cache :=
  Id.run (c.getOrParseM pick (fun rule => pure (parse rule)) rule)

/-! ## What is held -/

@[simp] theorem capacity_insert (c : Cache) (pick : Nat) (rule : String) (tree : Tree) :
    (c.insert pick rule tree).capacity = c.capacity := by
  simp only [insert, evict]
  split
  · split <;> rfl
  · rfl

/-- What has just been stored is held. -/
@[simp] theorem get?_insert_self (c : Cache) (pick : Nat) (rule : String) (tree : Tree) :
    (c.insert pick rule tree).get? rule = some tree := by
  simp [insert, get?]

/-- Only the victim goes. -/
theorem get?_evict (c : Cache) (pick : Nat) (rule : String) :
    (c.evict pick).get? rule = if c.victim? pick = some rule then none else c.get? rule := by
  unfold evict get?
  cases h : c.victim? pick with
  | none => simp
  | some victim =>
    simp only [Std.ExtTreeMap.getElem?_erase, Std.LawfulEqOrd.compare_eq_iff_eq,
      Option.some.injEq]

/-- Storing a rule leaves every other entry but the victim of a full cache. -/
theorem get?_insert_of_ne (c : Cache) (pick : Nat) {rule other : String} (tree : Tree)
    (h : rule ≠ other) :
    (c.insert pick rule tree).get? other =
      if c.mustEvict rule = true ∧ c.victim? pick = some other then none else c.get? other := by
  have hkept (d : Cache) :
      ({ d with entries := d.entries.insert rule tree } : Cache).get? other = d.get? other := by
    simp [get?, Std.ExtTreeMap.getElem?_insert, h]
  rw [insert, hkept]
  by_cases hm : c.mustEvict rule = true
  · simp [hm, get?_evict]
  · simp [hm]

theorem contains_iff_get? (c : Cache) (rule : String) : c.contains rule = (c.get? rule).isSome := by
  simp [contains, get?]

theorem getOrParse_of_some {c : Cache} {rule : String} {tree : Tree} (h : c.get? rule = some tree)
    (pick : Nat) (parse : String → Except RuleError Tree) :
    c.getOrParse pick parse rule = (.ok tree, c) := by
  rw [getOrParse, getOrParseM, h]
  rfl

theorem getOrParse_of_none {c : Cache} {rule : String} (h : c.get? rule = none) (pick : Nat)
    (parse : String → Except RuleError Tree) :
    c.getOrParse pick parse rule =
      match parse rule with
      | .ok tree => (.ok tree, c.insert pick rule tree)
      | .error e => (.error e, c) := by
  rw [getOrParse, getOrParseM, h]
  cases parse rule with
  | ok tree => rfl
  | error e => rfl

/-- Of a rule that is not held, the tree or the error is that of the parse function. -/
theorem fst_getOrParse_of_none {c : Cache} {rule : String} (h : c.get? rule = none) (pick : Nat)
    (parse : String → Except RuleError Tree) : (c.getOrParse pick parse rule).1 = parse rule := by
  rw [getOrParse_of_none h]
  cases parse rule with
  | ok tree => rfl
  | error e => rfl

/-! ## Histories -/

/-- What can be asked of a cache. -/
inductive Request where
  | get (rule : String)
  | contains (rule : String)
  | insert (tree : Tree) (rule : String)
  | getOrParse (parse : String → Except RuleError Tree) (rule : String)
  | clear

/-- What a cache answers. -/
inductive Reply where
  | found (tree : Option Tree)
  | held (answer : Bool)
  /-- The tree or the error, and whether the parse function was called for it. -/
  | parsed (called : Bool) (result : Except RuleError Tree)
  | done

/-- A parse function that notes its being called. -/
def noting (parse : String → Except RuleError Tree) (rule : String) :
    StateM Bool (Except RuleError Tree) := do
  set true
  return parse rule

/-- The answer to a request, and the cache after it. -/
def handle (c : Cache) (pick : Nat) : Request → Reply × Cache
  | .get rule => (.found (c.get? rule), c)
  | .contains rule => (.held (c.contains rule), c)
  | .insert tree rule => (.done, c.insert pick rule tree)
  | .getOrParse parse rule =>
    let ((result, after), called) := (c.getOrParseM pick (noting parse) rule).run false
    (.parsed called result, after)
  | .clear => (.done, c.clear)

/-- The answers to a history of requests, each with the pick for an eviction, and the cache after
it. -/
def run (c : Cache) : List (Nat × Request) → List Reply × Cache
  | [] => ([], c)
  | (pick, request) :: rest =>
    let (reply, next) := c.handle pick request
    let (replies, last) := next.run rest
    (reply :: replies, last)

end Cache

end Rulebook
