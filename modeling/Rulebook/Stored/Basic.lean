import Rulebook.Condition.Reader
import Rulebook.Tree.Basic

/-!
# Stored trees

A tree is stored as the texts it was made of: an operand keeps the text of its condition, an
operator the word of its connective.  Nothing that is stored is trusted.  Turning stored nodes back
into a tree reads every text again, an operator's word before the parts it joins, and the first
text that cannot be read is the error.

* `StoredNode.ofTree`: the stored form of a tree.
* `StoredNode.toTree`: the tree that stored nodes describe.
-/

namespace Rulebook

/-- A node of a stored tree, its texts not yet read. -/
inductive StoredNode where
  | operand (value : String)
  | operator (value : String) (left right : StoredNode)
  deriving DecidableEq, Repr

namespace StoredNode

/-- The stored form of a tree. -/
def ofTree : Tree → StoredNode
  | .leaf condition => operand condition.raw
  | .node connective left right => operator connective.keyword (ofTree left) (ofTree right)

@[simp] theorem ofTree_leaf (c : Condition) : ofTree (.leaf c) = operand c.raw := rfl

@[simp] theorem ofTree_node (c : Connective) (left right : Tree) :
    ofTree (.node c left right) = operator c.keyword (ofTree left) (ofTree right) := rfl

/-- The tree that stored nodes describe. -/
def toTree : StoredNode → Except RuleError Tree
  | operand value => (Condition.ofString value).map Tree.leaf
  | operator value left right => do
    let connective ← Connective.read value
    let left ← left.toTree
    let right ← right.toTree
    return .node connective left right

end StoredNode

end Rulebook
