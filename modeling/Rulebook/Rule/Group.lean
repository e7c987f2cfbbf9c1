import Rulebook.Rule.Scan

/-!
# Grouping

Parentheses around a whole rule change nothing and are peeled off.  `(a) AND (b)` starts and ends
with parentheses too, but what stands between these two is not balanced, so they are no group.

* `groupInterior?`: the inside of one group.
* `peelGroups`: what is left when no group encloses the whole, with `groupInterior?_peelGroups`.
-/

namespace Rulebook.Rule

open Text (trim length_trim_le)

/-- The inside of a text that is one group, without the blanks at its ends. -/
def groupInterior? : List Char → Option (List Char)
  | '(' :: rest =>
    if rest.getLast? = some ')' && isBalanced rest.dropLast then some (trim rest.dropLast) else none
  | _ => none

/-- The inside of a group is shorter than the group. -/
theorem length_lt_of_groupInterior? {cs inside : List Char} (h : groupInterior? cs = some inside) :
    inside.length < cs.length := by
  unfold groupInterior? at h
  split at h
  · next rest =>
    split at h
    · cases h
      have := length_trim_le rest.dropLast
      simp only [List.length_dropLast, List.length_cons] at *
      omega
    · cases h
  · cases h

/-- A text without the groups that enclose it as a whole. -/
def peelGroups (cs : List Char) : List Char :=
  match _h : groupInterior? cs with
  | some inside => peelGroups inside
  | none => cs
termination_by cs.length
decreasing_by exact length_lt_of_groupInterior? _h

theorem peelGroups_of_some {cs inside : List Char} (h : groupInterior? cs = some inside) :
    peelGroups cs = peelGroups inside := by
  rw [peelGroups]
  split
  · next inner hinner => rw [h] at hinner; cases hinner; rfl
  · next hnone => rw [h] at hnone; cases hnone

theorem peelGroups_of_none {cs : List Char} (h : groupInterior? cs = none) :
    peelGroups cs = cs := by
  rw [peelGroups]
  split
  · next inner hinner => rw [h] at hinner; cases hinner
  · rfl

/-- What is left is no group. -/
theorem groupInterior?_peelGroups (cs : List Char) : groupInterior? (peelGroups cs) = none := by
  fun_induction peelGroups cs with
  | case1 cs inside h ih => exact ih
  | case2 cs h => exact h

@[simp] theorem peelGroups_peelGroups (cs : List Char) :
    peelGroups (peelGroups cs) = peelGroups cs :=
  peelGroups_of_none (groupInterior?_peelGroups cs)

end Rulebook.Rule
