import Mathlib.Order.Bounds.Basic
import Rulebook.Proofs.BalanceFirst
import Rulebook.Proofs.ByteOrder
import Rulebook.Proofs.DepthLimit

/-!
# The place of a split

The search for a split goes through a rule once for each keyword, with a scan.  This file says which
place it finds without a scan and without a search.  A keyword can be cut out at an offset if the
text before it, with what is quoted left out, opens as many parentheses as it closes, leaves no
quote open, and the two neighbours of the keyword are delimiters or ends of the text.  A rule is
split at the least offset at which `AND` can be cut out, and if there is none, at the least such
offset of `OR`.

Offsets are counted in bytes of UTF-8, and the search counts characters.  The texts before two
places are prefixes of one text, so the one with fewer bytes is the one with fewer characters
(`length_le_of_utf8ByteSize_le`).

* `CanSplit`, `splitOffsets`: where a keyword can be cut out.
* `countsFirst_iff_isLeast`: the first place of a keyword is the one with the least offset.
* `find?_least_offset`: the split of a rule.
-/

namespace Rulebook.Rule

open Text (utf8)

/-- A keyword can be cut out between two parts of a text.  Outside quotes the first part opens as
many parentheses as it closes, it leaves no quote open, and each neighbour of the keyword is a
delimiter or an end of the text. -/
structure CanSplit (k : Connective) (cs before after : List Char) : Prop
    extends Stands k.keyword.toList cs before after where
  level : openings before = closings before

/-- The offsets, in bytes, at which a keyword can be cut out of a text. -/
def splitOffsets (k : Connective) (cs : List Char) : Set Nat :=
  {offset | ∃ before after, CanSplit k cs before after ∧
    (String.ofList before).utf8ByteSize = offset}

/-- The offset of the keyword of a split. -/
def Split.start (split : Split) : Nat := (String.ofList split.before).utf8ByteSize

/-- The offset at which the text after the keyword begins. -/
def Split.stop (split : Split) : Nat := split.start + split.connective.keyword.utf8ByteSize

variable {k : Connective} {cs before after p q : List Char} {split : Split}

/-! ## Offsets -/

/-- Of two prefixes of one text, the one with fewer bytes is not the longer one. -/
theorem length_le_of_utf8ByteSize_le (hp : p <+: cs) (hq : q <+: cs)
    (h : (String.ofList p).utf8ByteSize ≤ (String.ofList q).utf8ByteSize) :
    p.length ≤ q.length := by
  by_contra hlt
  obtain ⟨more, rfl⟩ := List.prefix_of_prefix_length_le hq hp (Nat.le_of_not_le hlt)
  rw [String.ofList_append, String.utf8ByteSize_append] at h
  have hmore := length_le_utf8ByteSize more
  rw [List.length_append] at hlt
  omega

theorem utf8ByteSize_le_of_length_le (hp : p <+: cs) (hq : q <+: cs) (h : p.length ≤ q.length) :
    (String.ofList p).utf8ByteSize ≤ (String.ofList q).utf8ByteSize := by
  obtain ⟨more, rfl⟩ := List.prefix_of_prefix_length_le hp hq h
  rw [String.ofList_append, String.utf8ByteSize_append]
  exact Nat.le_add_right _ _

/-! ## Places -/

/-- A keyword can be cut out where it counts, and nowhere else. -/
theorem canSplit_iff_counts :
    CanSplit k cs before after ↔ Counts k.keyword.toList cs before after := by
  constructor
  · rintro ⟨⟨hparts, hquotes, hleft, hright⟩, hlevel⟩
    exact ⟨hparts, Scan.isGround_iff.mpr (run_eq_start_iff.mpr ⟨hlevel, hquotes⟩), hleft, hright⟩
  · intro h
    exact ⟨h.stands, (run_eq_start_iff.mp (Scan.isGround_iff.mp h.ground)).1⟩

theorem CanSplit.prefix (h : CanSplit k cs before after) : before <+: cs :=
  ⟨k.keyword.toList ++ after, by rw [← List.append_assoc, h.parts]⟩

/-- A keyword that can be cut out nowhere does not count in the text. -/
theorem splitOffsets_eq_empty_iff : splitOffsets k cs = ∅ ↔ Free k.keyword.toList cs := by
  rw [Set.eq_empty_iff_forall_notMem]
  constructor
  · intro h before after hcounts
    exact h _ ⟨before, after, canSplit_iff_counts.mpr hcounts, rfl⟩
  · rintro h offset ⟨before, after, hcan, -⟩
    exact h before after (canSplit_iff_counts.mp hcan)

/-- The first place where a keyword counts is the one with the least offset. -/
theorem countsFirst_iff_isLeast :
    CountsFirst k.keyword.toList cs before after ↔ CanSplit k cs before after ∧
      IsLeast (splitOffsets k cs) (String.ofList before).utf8ByteSize := by
  constructor
  · intro h
    have hcan := canSplit_iff_counts.mpr h.toCounts
    refine ⟨hcan, ⟨before, after, hcan, rfl⟩, ?_⟩
    rintro offset ⟨before', after', hcan', rfl⟩
    exact utf8ByteSize_le_of_length_le hcan.prefix hcan'.prefix
      (h.first before' after' (canSplit_iff_counts.mp hcan'))
  · rintro ⟨hcan, -, hleast⟩
    refine ⟨canSplit_iff_counts.mp hcan, fun before' after' h' => ?_⟩
    have hcan' := canSplit_iff_counts.mpr h'
    exact length_le_of_utf8ByteSize_le hcan.prefix hcan'.prefix
      (hleast ⟨before', after', hcan', rfl⟩)

/-- A rule is split at the least offset of a keyword that can be cut out, if it may be split at this
keyword. -/
theorem exists_find?_of_nonempty (h : (splitOffsets k cs).Nonempty)
    (hfree : k = .or → splitOffsets .and cs = ∅) :
    ∃ split, Split.find? cs = some split ∧ split.connective = k ∧
      IsLeast (splitOffsets k cs) split.start := by
  rcases hat : Split.at? k cs with _ | split
  · exact absurd (splitOffsets_eq_empty_iff.mpr (at?_eq_none_iff.mp hat)) h.ne_empty
  · obtain ⟨rfl, hfirst⟩ := at?_eq_some_iff.mp hat
    have hfind : Split.find? cs = some split :=
      find?_eq_some_iff.mpr ⟨hfirst, fun hk => splitOffsets_eq_empty_iff.mp (hfree hk)⟩
    exact ⟨split, hfind, rfl, (countsFirst_iff_isLeast.mp hfirst).2⟩

/-- The sides of a split are the bytes before the keyword and those after it. -/
theorem utf8_sides (h : Split.find? cs = some split) :
    utf8 (String.ofList split.before) = (utf8 (String.ofList cs)).take split.start ∧
      utf8 (String.ofList split.after) = (utf8 (String.ofList cs)).drop split.stop := by
  have hstop : split.stop =
      (utf8 (String.ofList (split.before ++ split.connective.keyword.toList))).length := by
    rw [String.ofList_append, String.ofList_toList, Text.utf8_append, List.length_append]
    rfl
  have hstart : split.start = (utf8 (String.ofList split.before)).length := rfl
  rw [← append_of_find? h]
  constructor
  · rw [List.append_assoc, String.ofList_append, Text.utf8_append, hstart, List.take_left]
  · rw [String.ofList_append, Text.utf8_append, hstop, List.drop_left]

/-! ## The split of a rule -/

/-- A rule is split at the least offset at which `AND` can be cut out; if there is none, at the
least offset at which `OR` can be cut out; and it is not split if neither can be.  The two sides
are the bytes up to the keyword and from its end on, and if the rule is balanced, so are they. -/
theorem find?_least_offset (rule : String) :
    ((splitOffsets .and rule.toList).Nonempty →
        ∃ split, Split.find? rule.toList = some split ∧ split.connective = .and ∧
          IsLeast (splitOffsets .and rule.toList) split.start) ∧
      (splitOffsets .and rule.toList = ∅ → (splitOffsets .or rule.toList).Nonempty →
        ∃ split, Split.find? rule.toList = some split ∧ split.connective = .or ∧
          IsLeast (splitOffsets .or rule.toList) split.start) ∧
      (splitOffsets .and rule.toList = ∅ → splitOffsets .or rule.toList = ∅ →
        Split.find? rule.toList = none) ∧
      ∀ split, Split.find? rule.toList = some split →
        split.stop = split.start + split.connective.keyword.length ∧
        utf8 (String.ofList split.before) = (utf8 rule).take split.start ∧
        utf8 (String.ofList split.after) = (utf8 rule).drop split.stop ∧
        (Matched rule.toList → Matched split.before ∧ Matched split.after) := by
  refine ⟨fun h => ?_, fun hand h => ?_, fun hand hor => ?_, fun split h => ?_⟩
  · exact exists_find?_of_nonempty h nofun
  · exact exists_find?_of_nonempty h fun _ => hand
  · refine find?_eq_none_iff.mpr fun k => splitOffsets_eq_empty_iff.mp ?_
    cases k with
    | and => exact hand
    | or => exact hor
  · obtain ⟨hbefore, hafter⟩ := utf8_sides h
    rw [String.ofList_toList] at hbefore hafter
    refine ⟨?_, hbefore, hafter, fun hmatched => ?_⟩
    · cases hk : split.connective <;> rw [Split.stop, hk] <;> rfl
    · obtain ⟨hfirst, -⟩ := find?_eq_some_iff.mp h
      obtain ⟨hleft, hright⟩ := hfirst.balanced_sides (matched_iff.mp hmatched)
      exact ⟨matched_iff.mpr hleft, matched_iff.mpr hright⟩

/-- An `AND` in quotes and an `AND` in a group are no places to split at, so the first `OR` is one.
It comes after a character of two bytes, and the group right after it is balanced. -/
theorem find?_least_offset_quoted :
    splitOffsets .and "é='AND' OR(b AND c)".toList = ∅ ∧
      IsLeast (splitOffsets .or "é='AND' OR(b AND c)".toList) 9 ∧
      ∃ split, Split.find? "é='AND' OR(b AND c)".toList = some split ∧ split.connective = .or ∧
        split.start = 9 ∧ split.stop = 11 ∧ Matched split.before ∧ Matched split.after := by
  have hfind : Split.find? "é='AND' OR(b AND c)".toList =
      some ⟨.or, "é='AND' ".toList, "(b AND c)".toList⟩ := by decide +kernel
  obtain ⟨hfirst, hfree⟩ := find?_eq_some_iff.mp hfind
  have hand := splitOffsets_eq_empty_iff.mpr (hfree rfl)
  have hor : IsLeast (splitOffsets .or "é='AND' OR(b AND c)".toList) 9 :=
    (countsFirst_iff_isLeast.mp hfirst).2
  obtain ⟨-, hsplit, -, hsides⟩ := find?_least_offset "é='AND' OR(b AND c)"
  obtain ⟨split, hfound, hconnective, hleast⟩ := hsplit hand ⟨9, hor.1⟩
  have hstart : split.start = 9 := hleast.unique hor
  obtain ⟨hstop, -, -, hmatched⟩ := hsides split hfound
  refine ⟨hand, hor, split, hfound, hconnective, hstart, ?_, hmatched ?_⟩
  · rw [hstop, hstart, hconnective]
    rfl
  · exact matched_iff.mpr (isBalanced_iff.mp (by decide))

end Rulebook.Rule
