import Rulebook.Defaults
import Rulebook.Error
import Rulebook.Tree.Basic

/-!
# Combining trees

Several trees are joined by one connective into a single tree that leans to the right, so the first
tree stays the outermost left child and evaluation meets the trees in the order of the list.  The
depth of the result is computed from the depths of the parts, and a result that would be too deep
is refused before it is built.

* `Tree.join`: the joined tree.
* `combinedDepth`: its depth, from the parts alone.
* `Tree.combine`: the joined tree under a depth limit.
-/

namespace Rulebook

namespace Tree

/-- The trees `first :: others`, joined from the right. -/
def join (connective : Connective) (first : Tree) : List Tree → Tree
  | [] => first
  | next :: others => node connective first (join connective next others)

@[simp] theorem join_nil (c : Connective) (t : Tree) : join c t [] = t := rfl

@[simp] theorem join_cons (c : Connective) (t u : Tree) (ts : List Tree) :
    join c t (u :: ts) = node c t (join c u ts) := rfl

/-- The depth of joined trees.  The tree at index `i` hangs below `i + 1` connectives, save the
last one, which shares the lowest connective with its neighbour.  No trees have depth zero. -/
def combinedDepth (trees : List Tree) : Nat :=
  (trees.zipIdx.map fun (tree, i) =>
    tree.depth + if i + 1 = trees.length then i else i + 1).foldl max 0

/-- The trees of a list joined under a depth limit.  The limit is checked first; as no trees have
depth zero, an empty list is always refused as empty. -/
def combine (trees : List Tree) (connective : Connective) (maxDepth : Nat) :
    Except RuleError Tree :=
  if maxDepth < combinedDepth trees then
    .error (.limit (.combined trees.length (combinedDepth trees) maxDepth))
  else
    match trees with
    | [] => .error .emptyInput
    | first :: others => .ok (join connective first others)

end Tree

end Rulebook
