import Rulebook.Error
import Rulebook.Record.Basic
import Rulebook.Tree.Basic

/-!
# Evaluation

A condition is checked against the value of its field.  When both sides are numbers they are
compared as numbers; otherwise only equality makes sense, and it is equality of texts, where a
number stands for its printed form.  A tree is evaluated from the left, and the right side of a
node is looked at only if the left one does not settle the answer.

* `Condition.check`: a condition on a record.
* `Tree.evaluate`: a tree on a record.
-/

namespace Rulebook

/-- The literal as a text. -/
def Literal.asText : Literal → String
  | .number x => x.display
  | .text s => s

/-- The two numbers that a literal and a value are, if both are numbers. -/
def Literal.numbers? : Literal → Scalar → Option (Binary64 × Binary64)
  | .number expected, value => value.number?.map fun actual => (actual, expected)
  | .text _, _ => none

theorem Literal.numbers?_eq_some_iff {l : Literal} {value : Scalar} {actual expected : Binary64} :
    l.numbers? value = some (actual, expected) ↔
      l = .number expected ∧ value.number? = some actual := by
  constructor
  · intro h
    cases l with
    | number x =>
      obtain ⟨a, ha, hpair⟩ := Option.map_eq_some_iff.mp h
      cases hpair
      exact ⟨rfl, ha⟩
    | text s => cases h
  · rintro ⟨rfl, hactual⟩
    rw [numbers?, hactual]
    rfl

/-- The verdict on a value that is compared as a text. -/
def Condition.checkText (c : Condition) (value : Scalar) : Except RuleError Bool :=
  if c.comparator.isOrdering then
    .error (.typeMismatch c.raw c.field value)
  else
    let equal := value.asText == c.literal.asText
    .ok (if c.comparator = .notEqual then !equal else equal)

/-- The verdict on a value of the field. -/
def Condition.checkValue (c : Condition) (value : Scalar) : Except RuleError Bool :=
  match c.literal.numbers? value with
  | some (actual, expected) => .ok (c.comparator.holds actual expected)
  | none => c.checkText value

/-- Where a field counts as a number, a condition with a number is a comparison of the two. -/
theorem Condition.checkValue_of_number? {c : Condition} {value : Scalar} {x y : Binary64}
    (hliteral : c.literal = .number y) (hvalue : value.number? = some x) :
    c.checkValue value = .ok (c.comparator.holds x y) := by
  rw [checkValue, Literal.numbers?_eq_some_iff.mpr ⟨hliteral, hvalue⟩]

/-- The only thing that can be wrong with a value is that it is a text that should have an order. -/
theorem Condition.eq_typeMismatch_of_checkValue {c : Condition} {value : Scalar} {e : RuleError}
    (h : c.checkValue value = .error e) : e = .typeMismatch c.raw c.field value := by
  rw [checkValue] at h
  split at h
  · cases h
  · rw [checkText] at h
    split at h
    · cases h
      rfl
    · cases h

/-- The verdict of a condition on a record. -/
def Condition.check (c : Condition) (r : Record) : Except RuleError Bool :=
  match r.get? c.field with
  | some value => c.checkValue value
  | none => .error (.unknownField c.field)

theorem Condition.check_of_get? {c : Condition} {r : Record} {value : Scalar}
    (h : r.get? c.field = some value) : c.check r = c.checkValue value := by
  rw [check, h]

theorem Condition.check_of_get?_eq_none {c : Condition} {r : Record}
    (h : r.get? c.field = none) : c.check r = .error (.unknownField c.field) := by
  rw [check, h]

/-- The answer of a node, from the answer on its left and, if that leaves the matter open, the
answer on its right. -/
def Connective.settle (c : Connective) (left : Except RuleError Bool)
    (right : Unit → Except RuleError Bool) : Except RuleError Bool :=
  match c, left with
  | _, .error e => .error e
  | .and, .ok false => .ok false
  | .and, .ok true => right ()
  | .or, .ok true => .ok true
  | .or, .ok false => right ()

/-- The answer of a tree on a record. -/
def Tree.evaluate (r : Record) : Tree → Except RuleError Bool
  | leaf condition => condition.check r
  | node connective left right =>
    connective.settle (left.evaluate r) fun _ => right.evaluate r

@[simp] theorem Tree.evaluate_leaf (r : Record) (c : Condition) :
    (leaf c).evaluate r = c.check r := rfl

@[simp] theorem Tree.evaluate_node (r : Record) (c : Connective) (left right : Tree) :
    (node c left right).evaluate r = c.settle (left.evaluate r) fun _ => right.evaluate r := rfl

end Rulebook
