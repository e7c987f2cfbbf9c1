import Rulebook.Binary64.Basic

/-!
# Comparators

The six comparisons a condition can make.  Equality and its negation make sense for any two
values; the other four need an order, and only numbers have one.

* `symbol`, `ofSymbol?`: the comparator as it is written.
* `isOrdering`: whether it needs an order.
* `holds`: its verdict on two numbers.
-/

namespace Rulebook

/-- A comparison of two values. -/
inductive Comparator where
  | greater
  | less
  | greaterEqual
  | lessEqual
  | equal
  | notEqual
  deriving DecidableEq, Repr

namespace Comparator

/-- The comparator as it stands in a condition. -/
def symbol : Comparator → String
  | .greater => ">"
  | .less => "<"
  | .greaterEqual => ">="
  | .lessEqual => "<="
  | .equal => "="
  | .notEqual => "!="

/-- The comparator that a symbol is. -/
def ofSymbol? (s : String) : Option Comparator :=
  if s = ">" then some .greater
  else if s = "<" then some .less
  else if s = ">=" then some .greaterEqual
  else if s = "<=" then some .lessEqual
  else if s = "=" then some .equal
  else if s = "!=" then some .notEqual
  else none

/-- Whether the comparator needs an order rather than plain equality. -/
def isOrdering : Comparator → Bool
  | .equal => false
  | .notEqual => false
  | _ => true

/-- The verdict on two numbers.  Only `notEqual` holds where a NaN takes part. -/
def holds (c : Comparator) (x y : Binary64) : Bool :=
  match c with
  | .greater => y.lt x
  | .less => x.lt y
  | .greaterEqual => y.le x
  | .lessEqual => x.le y
  | .equal => x.eq y
  | .notEqual => !x.eq y

end Comparator

end Rulebook
