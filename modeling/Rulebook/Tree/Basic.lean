import Rulebook.Condition.Basic
import Rulebook.Connective

/-!
# Rule trees

A rule is a binary tree whose leaves are conditions and whose inner nodes are connectives.  Nothing
is balanced or rearranged: `a AND b AND c` and `(a AND b) AND c` are different trees, and the
difference shows in their depth and in their stored form.

* `conditions`, `fields`: what stands at the leaves, from left to right.
* `leafCount`, `depth`: the size and the height; a single condition has depth one.
-/

namespace Rulebook

/-- A rule taken apart. -/
inductive Tree where
  | leaf (condition : Condition)
  | node (connective : Connective) (left right : Tree)
  deriving DecidableEq, Repr

namespace Tree

/-- The conditions at the leaves, from left to right. -/
def conditions : Tree → List Condition
  | leaf condition => [condition]
  | node _ left right => left.conditions ++ right.conditions

/-- The fields that the conditions name, from left to right and with repetitions. -/
def fields (t : Tree) : List String := t.conditions.map Condition.field

/-- The number of leaves. -/
def leafCount : Tree → Nat
  | leaf _ => 1
  | node _ left right => left.leafCount + right.leafCount

/-- The height. -/
def depth : Tree → Nat
  | leaf _ => 1
  | node _ left right => 1 + max left.depth right.depth

@[simp] theorem length_conditions (t : Tree) : t.conditions.length = t.leafCount := by
  induction t with
  | leaf => rfl
  | node _ _ _ ihl ihr => rw [conditions, List.length_append, ihl, ihr, leafCount]

@[simp] theorem fields_leaf (c : Condition) : (leaf c).fields = [c.field] := rfl

@[simp] theorem fields_node (c : Connective) (left right : Tree) :
    (node c left right).fields = left.fields ++ right.fields := by
  simp only [fields, conditions, List.map_append]

theorem leafCount_pos (t : Tree) : 0 < t.leafCount := by
  induction t with
  | leaf => exact Nat.one_pos
  | node _ _ _ ihl _ => exact Nat.add_pos_left ihl _

theorem depth_pos (t : Tree) : 0 < t.depth := by
  cases t with
  | leaf => exact Nat.one_pos
  | node => exact Nat.add_pos_left Nat.one_pos _

end Tree

end Rulebook
