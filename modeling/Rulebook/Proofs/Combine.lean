import Rulebook.Tree.Combine
import Mathlib.Algebra.Ring.Nat

/-!
# The height of combined trees

`Tree.combine` decides whether joined trees are too deep before it joins them, by a formula over the
depths of the parts.  The formula gives the depth of the joined tree, so the limit is the limit on
what would be built.

Which tree this is can be said from either end of the list.  From the front it is a recursion, where
each tree but the last is the left side of a node and the rest of the list is the right side
(`FoldsTo`).  From the back it is a loop, which starts with the last tree and puts one tree after
the other in front of it (`FoldsTo.eq_foldl`).

* `combinedDepth_cons`: the formula and the tree agree.
* `combine_cons`: what a combination of at least one tree is.
* `depth_le_of_combine`: combinations are within the limit.
* `combine_exact`: when there is a combination, which tree it is, and what stands at its leaves.
-/

namespace Rulebook.Tree

/-- The formula for trees that start at an index of a longer list, of which they are the end. -/
theorem foldl_depths_eq (c : Connective) (first : Tree) (others : List Tree) (start : Nat) :
    (((first :: others).zipIdx start).map fun (tree, i) =>
        tree.depth + if i + 1 = start + (others.length + 1) then i else i + 1).foldl max 0 =
      (join c first others).depth + start := by
  induction others generalizing first start with
  | nil => simp
  | cons next others ih =>
    have hlength : start + ((next :: others).length + 1) = start + 1 + (others.length + 1) := by
      rw [List.length_cons]
      omega
    have hfirst : ¬ start + 1 = start + 1 + (others.length + 1) := by omega
    rw [hlength, List.zipIdx_cons, List.map_cons, List.foldl_cons, Nat.max_comm, List.foldl_assoc,
      ih next (start + 1), join_cons, depth]
    simp only [if_neg hfirst]
    omega

/-- The depth computed from the parts is the depth of the joined tree. -/
theorem combinedDepth_cons (c : Connective) (first : Tree) (others : List Tree) :
    combinedDepth (first :: others) = (join c first others).depth := by
  have h := foldl_depths_eq c first others 0
  rw [Nat.add_zero, Nat.zero_add] at h
  exact h

/-- Trees are combined into the joined tree if it is within the limit. -/
theorem combine_cons (first : Tree) (others : List Tree) (c : Connective) (maxDepth : Nat) :
    combine (first :: others) c maxDepth =
      if (join c first others).depth ≤ maxDepth then .ok (join c first others)
      else
        .error (.limit (.combined (others.length + 1) (join c first others).depth maxDepth)) := by
  rw [combine, combinedDepth_cons c]
  by_cases h : (join c first others).depth ≤ maxDepth
  · rw [if_pos h, if_neg (Nat.not_lt.mpr h)]
  · rw [if_neg h, if_pos (Nat.lt_of_not_le h), List.length_cons]

/-- What a combination gives is within the limit. -/
theorem depth_le_of_combine {trees : List Tree} {c : Connective} {maxDepth : Nat} {t : Tree}
    (h : combine trees c maxDepth = .ok t) : t.depth ≤ maxDepth := by
  cases trees with
  | nil => cases h
  | cons first others =>
    rw [combine_cons] at h
    by_cases hdepth : (join c first others).depth ≤ maxDepth
    · rw [if_pos hdepth] at h
      cases h
      exact hdepth
    · rw [if_neg hdepth] at h
      cases h

/-! ## The fold -/

/-- The trees of a list joined from the right: one tree stays as it is, and a tree in front of
others is the left side of a node. -/
inductive FoldsTo (c : Connective) : List Tree → Tree → Prop where
  | single (t : Tree) : FoldsTo c [t] t
  | cons (t : Tree) {ts : List Tree} {rest : Tree} (h : FoldsTo c ts rest) :
      FoldsTo c (t :: ts) (node c t rest)

section Fold

variable {c : Connective} {trees : List Tree} {t : Tree}

theorem foldsTo_join (c : Connective) (first : Tree) (others : List Tree) :
    FoldsTo c (first :: others) (join c first others) := by
  induction others generalizing first with
  | nil => exact .single first
  | cons next others ih => exact .cons first (ih next)

/-- What a list folds to is the joined tree, and only lists with a tree in them fold. -/
theorem FoldsTo.exists_eq_join (h : FoldsTo c trees t) :
    ∃ first others, trees = first :: others ∧ t = join c first others := by
  induction h with
  | single t => exact ⟨t, [], rfl, rfl⟩
  | cons t _ ih =>
    obtain ⟨first, others, rfl, rfl⟩ := ih
    exact ⟨t, first :: others, rfl, rfl⟩

theorem FoldsTo.unique {t' : Tree} (h : FoldsTo c trees t) (h' : FoldsTo c trees t') : t' = t := by
  obtain ⟨first, others, rfl, rfl⟩ := h.exists_eq_join
  obtain ⟨first', others', hlist, rfl⟩ := h'.exists_eq_join
  cases hlist
  rfl

/-- The fold as a loop from the end of the list: the trees before the last one are put in front of
it, the nearest one first. -/
theorem FoldsTo.eq_foldl {init : List Tree} {last : Tree} (h : FoldsTo c (init ++ [last]) t) :
    t = init.reverse.foldl (fun right left => node c left right) last := by
  induction init generalizing t with
  | nil => exact (FoldsTo.single last).unique h
  | cons first init ih =>
    rw [List.cons_append] at h
    generalize hrest : init ++ [last] = rest at h
    cases h with
    | single => exact absurd hrest (by simp)
    | cons _ h =>
      subst hrest
      rw [List.reverse_cons, List.foldl_append, ← ih h, List.foldl_cons, List.foldl_nil]

/-- The leaves of the parts, in the order of the list, are the leaves of the fold. -/
theorem FoldsTo.conditions_eq (h : FoldsTo c trees t) :
    t.conditions = trees.flatMap conditions := by
  induction h with
  | single t => rw [List.flatMap_singleton]
  | cons t _ ih => rw [conditions, ih, List.flatMap_cons]

theorem FoldsTo.leafCount_eq (h : FoldsTo c trees t) :
    t.leafCount = (trees.map leafCount).sum := by
  rw [← length_conditions, h.conditions_eq, List.length_flatMap]
  simp only [length_conditions]

theorem FoldsTo.fields_eq (h : FoldsTo c trees t) : t.fields = trees.flatMap fields := by
  rw [fields, h.conditions_eq, List.map_flatMap]
  rfl

end Fold

/-- Combining trees gives the fold of the list, decided by a formula over the depths of its parts.
Only an empty list is refused as empty.  Any other list folds to one tree, whose depth is what the
formula gives; the combination is this tree if it is within the limit, and otherwise the refusal
that names the number of trees, the depth and the limit.  The leaves of the fold are those of the
trees, in order. -/
theorem combine_exact (trees : List Tree) (c : Connective) (maxDepth : Nat) :
    (combine trees c maxDepth = .error .emptyInput ↔ trees = []) ∧
      (trees ≠ [] → ∃ t, (FoldsTo c trees t ∧ ∀ t', FoldsTo c trees t' → t' = t) ∧
        combinedDepth trees = t.depth ∧
        (combine trees c maxDepth = .ok t ↔ t.depth ≤ maxDepth) ∧
        (¬ t.depth ≤ maxDepth → combine trees c maxDepth =
          .error (.limit (.combined trees.length t.depth maxDepth))) ∧
        t.conditions = trees.flatMap conditions ∧
        t.leafCount = (trees.map leafCount).sum ∧
        t.fields = trees.flatMap fields ∧
        ∀ init last, trees = init ++ [last] →
          t = init.reverse.foldl (fun right left => node c left right) last) := by
  cases trees with
  | nil => exact ⟨iff_of_true rfl rfl, fun h => absurd rfl h⟩
  | cons first others =>
    have hfold := foldsTo_join c first others
    have hcombine := combine_cons first others c maxDepth
    refine ⟨iff_of_false (fun h => ?_) (List.cons_ne_nil _ _), fun _ => ⟨join c first others,
      ⟨hfold, fun _ => hfold.unique⟩, combinedDepth_cons c first others, ⟨fun h => ?_, fun h => ?_⟩,
      fun h => ?_, hfold.conditions_eq, hfold.leafCount_eq, hfold.fields_eq, ?_⟩⟩
    · rw [hcombine] at h
      split at h
      · cases h
      · cases h
    · exact depth_le_of_combine h
    · rw [hcombine, if_pos h]
    · rw [hcombine, if_neg h, List.length_cons]
    · intro init last hlist
      rw [hlist] at hfold
      exact hfold.eq_foldl

/-- Three trees of which the tallest is next to last: it hangs two levels down, and the last one at
its side. -/
theorem combine_exact_tallest :
    let a := leaf ⟨"a", .equal, .text "x", "a='x'"⟩
    let b := leaf ⟨"b", .equal, .text "x", "b='x'"⟩
    let trees := [a, node .or b (node .or a b), b]
    (∃ t, combine trees .and 5 = .ok t ∧ t.fields = ["a", "b", "a", "b", "b"]) ∧
      combine trees .and 4 = .error (.limit (.combined 3 5 4)) := by
  intro a b trees
  have hne : trees ≠ [] := List.cons_ne_nil _ _
  have hdepth : combinedDepth trees = 5 := by decide
  constructor
  · obtain ⟨t, -, ht, hok, -, -, -, hfields, -⟩ := (combine_exact trees .and 5).2 hne
    exact ⟨t, hok.mpr (by omega), hfields⟩
  · obtain ⟨t, -, ht, -, hlimit, -⟩ := (combine_exact trees .and 4).2 hne
    rw [hlimit (by omega), ← ht, hdepth]
    rfl

end Rulebook.Tree
