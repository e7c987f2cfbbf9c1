import Mathlib.Data.String.Basic
import Rulebook.Proofs.Grammar.Parsing
import Rulebook.Proofs.ParserLevel

/-!
# The depth limit of the parser

The limit is checked before anything else at every level, so a limit that is too small hides
whatever is wrong further down.  This file shows that it does nothing else.  The parser with a limit
is the parser without one, cut off: an answer that is not the limit's own is the answer under every
greater limit, and a rule that has a tree is refused by exactly the limits below the depth of the
tree.  A limit of as many levels as the rule has bytes cuts nothing off, whatever the rule is.

All of this is read off from what a single level does, `parseLevels_succ_cases`: it has an answer of
its own, and then this answer does not depend on the limit, or it leaves two shorter texts to the
next level, and then which texts these are does not depend on it.

* `parseLevels_of_le`, `not_exceedsLimit_parseLevels`: more levels, and enough levels.
* `parse_depth_cap`: the limit as a cap on whole rules.
-/

namespace Rulebook

/-- The result is a refusal because some limit is exceeded. -/
def ExceedsLimit {α : Type} (result : Except RuleError α) : Prop :=
  ∃ excess, result = .error (.limit excess)

@[simp] theorem not_exceedsLimit_ok {α : Type} (a : α) :
    ¬ ExceedsLimit (.ok a : Except RuleError α) := by
  rintro ⟨excess, ⟨⟩⟩

@[simp] theorem not_exceedsLimit_parseFault {α : Type} (fault : ParseFault) :
    ¬ ExceedsLimit (.error (.parse fault) : Except RuleError α) := by
  rintro ⟨excess, ⟨⟩⟩

@[simp] theorem not_exceedsLimit_conditionFault {α : Type} (fault : ConditionFault) :
    ¬ ExceedsLimit (.error (.condition fault) : Except RuleError α) := by
  rintro ⟨excess, ⟨⟩⟩

namespace Rule

open Text (trim length_trim_le)

variable {limit levels : Nat} {cs : List Char}

/-! ## One level -/

theorem not_exceedsLimit_read (cs : List Char) :
    ¬ ExceedsLimit ((Condition.read cs).map Tree.leaf) := by
  rw [Condition.read]
  split
  · exact not_exceedsLimit_ok _
  · exact not_exceedsLimit_conditionFault _

/-- Peeling groups off makes no text longer. -/
theorem length_peelGroups_le (cs : List Char) : (peelGroups cs).length ≤ cs.length := by
  fun_induction peelGroups cs with
  | case1 cs inside hgroup ih => exact ih.trans (length_lt_of_groupInterior? hgroup).le
  | case2 cs hnone => exact Nat.le_refl _

/-- The two sides of a split are shorter than the text, since the keyword is gone. -/
theorem length_lt_of_find? {split : Split} (h : Split.find? cs = some split) :
    split.before.length < cs.length ∧ split.after.length < cs.length := by
  have hparts := congrArg List.length (append_of_find? h)
  have hkeyword := List.length_pos_iff.mpr (keyword_ne_nil split.connective)
  simp only [List.length_append] at hparts
  omega

/-- What a level does: it has an answer that is the same under every limit, or it leaves two shorter
texts to the next level, the same two under every limit. -/
theorem parseLevels_succ_cases (cs : List Char) :
    (∃ answer, ¬ ExceedsLimit answer ∧
      ∀ limit levels, parseLevels limit (levels + 1) cs = answer) ∨
    ∃ (k : Connective) (before after : List Char),
      (before ≠ [] ∧ before.length < cs.length) ∧ (after ≠ [] ∧ after.length < cs.length) ∧
      ∀ limit levels, parseLevels limit (levels + 1) cs = do
        let left ← parseLevels limit levels before
        let right ← parseLevels limit levels after
        return .node k left right := by
  rcases htake : takeApart cs with answer | ⟨k, before, after⟩
  · refine Or.inl ⟨answer, ?_, parseLevels_of_answer htake⟩
    rcases takeApart_eq_answer_cases htake with ⟨fault, -, rfl⟩ | rfl
    · exact not_exceedsLimit_parseFault fault
    · exact not_exceedsLimit_read (peelGroups cs)
  · obtain ⟨split, hfind, rfl, ⟨rfl, hbefore⟩, rfl, hafter⟩ := takeApart_eq_parts_iff.mp htake
    have hpeel := length_peelGroups_le cs
    have hlength := length_lt_of_find? hfind
    have htrimBefore := length_trim_le split.before
    have htrimAfter := length_trim_le split.after
    exact Or.inr ⟨split.connective, trim split.before, trim split.after, ⟨hbefore, by omega⟩,
      ⟨hafter, by omega⟩, parseLevels_of_parts htake⟩

/-! ## Several levels -/

/-- What some number of levels does not refuse has the same answer under every greater number, also
if the answer is an error. -/
theorem parseLevels_of_le {limit' levels' : Nat} (hle : levels ≤ levels')
    (h : ¬ ExceedsLimit (parseLevels limit levels cs)) :
    parseLevels limit' levels' cs = parseLevels limit levels cs := by
  induction levels generalizing levels' cs with
  | zero => exact absurd ⟨_, rfl⟩ h
  | succ levels ih =>
    obtain ⟨levels', rfl⟩ := Nat.exists_eq_add_one.mpr (Nat.lt_of_lt_of_le levels.succ_pos hle)
    have hle : levels ≤ levels' := Nat.le_of_succ_le_succ hle
    rcases parseLevels_succ_cases cs with
      ⟨answer, -, hanswer⟩ | ⟨k, before, after, -, -, hsplit⟩
    · rw [hanswer, hanswer]
    · rw [hsplit] at h
      rw [hsplit, hsplit]
      -- the right side is parsed, and may be refused, only if the left side has a tree
      rcases hleft : parseLevels limit levels before with e | left
      · rw [hleft] at h
        rw [ih hle (hleft ▸ h), hleft]
        rfl
      · have hright : ¬ ExceedsLimit (parseLevels limit levels after) := by
          rintro ⟨excess, hexcess⟩
          rw [hleft, hexcess] at h
          exact h ⟨excess, rfl⟩
        have hleftOk : ¬ ExceedsLimit (parseLevels limit levels before) := by
          rw [hleft]
          exact not_exceedsLimit_ok left
        rw [ih hle hleftOk, ih hle hright, hleft]

/-- As many levels as the text has characters are enough, since each level takes one away. -/
theorem not_exceedsLimit_parseLevels (hne : cs ≠ []) (hlevels : cs.length ≤ levels) :
    ¬ ExceedsLimit (parseLevels limit levels cs) := by
  induction levels generalizing cs with
  | zero => exact absurd (List.eq_nil_of_length_eq_zero (Nat.le_zero.mp hlevels)) hne
  | succ levels ih =>
    rcases parseLevels_succ_cases cs with
      ⟨answer, hnot, hanswer⟩ | ⟨k, before, after, ⟨hbefore, hlt⟩, ⟨hafter, hlt'⟩, hsplit⟩
    · rw [hanswer]
      exact hnot
    · have hleftOk := ih hbefore (by omega)
      have hrightOk := ih hafter (by omega)
      rw [hsplit]
      rcases hleft : parseLevels limit levels before with e | left
      · rw [hleft] at hleftOk
        exact hleftOk
      · rcases hright : parseLevels limit levels after with e | right
        · rw [hright] at hrightOk
          exact hrightOk
        · exact not_exceedsLimit_ok _

/-! ## Whole rules -/

/-- The checks before the first level do not know the limit. -/
theorem parse_cases (rule : String) :
    (∃ answer, ¬ ExceedsLimit answer ∧ ∀ maxDepth, parse maxDepth rule = answer) ∨
    trim rule.toList ≠ [] ∧
      ∀ maxDepth, parse maxDepth rule = parseLevels maxDepth maxDepth (trim rule.toList) := by
  by_cases hempty : trim rule.toList = []
  · refine Or.inl ⟨.error (.parse .emptyRule), by simp, fun maxDepth => ?_⟩
    rw [parse, parseTrimmed, if_pos hempty]
  · rcases hbalance : balanceFault? (trim rule.toList) with _ | fault
    · refine Or.inr ⟨hempty, fun maxDepth => ?_⟩
      rw [parse, parseTrimmed, if_neg hempty, hbalance]
    · refine Or.inl ⟨.error (.parse (.unbalanced fault (String.ofList (trim rule.toList)))),
        by simp, fun maxDepth => ?_⟩
      rw [parse, parseTrimmed, if_neg hempty, hbalance]

/-- No text has more characters than bytes. -/
theorem length_le_utf8ByteSize (cs : List Char) : cs.length ≤ (String.ofList cs).utf8ByteSize := by
  rw [String.utf8ByteSize_ofList]
  induction cs with
  | nil => exact Nat.le_refl _
  | cons c cs ih =>
    have hc := c.utf8Size_pos
    rw [List.length_cons, String.utf8Len]
    omega

/-- The depth limit is a cap and nothing else.  What a limit does not refuse has the same result
under every greater limit, a rule that has a tree is refused by the limits below the depth of the
tree and by no others, and a limit of as many levels as the trimmed rule has bytes is never
exceeded. -/
theorem parse_depth_cap (rule : String) {maxDepth maxDepth' : Nat} (hle : maxDepth ≤ maxDepth') :
    (¬ ExceedsLimit (parse maxDepth rule) → parse maxDepth' rule = parse maxDepth rule) ∧
      (∀ t, parse maxDepth' rule = .ok t →
        (t.depth ≤ maxDepth → parse maxDepth rule = .ok t) ∧
        (maxDepth < t.depth → parse maxDepth rule = .error (.limit (.nesting maxDepth)))) ∧
      ((String.ofList (trim rule.toList)).utf8ByteSize ≤ maxDepth →
        ¬ ExceedsLimit (parse maxDepth rule)) := by
  refine ⟨fun h => ?_, fun t h => ?_, fun h => ?_⟩
  · rcases parse_cases rule with ⟨answer, -, hanswer⟩ | ⟨-, hparse⟩
    · rw [hanswer, hanswer]
    · rw [hparse] at h
      rw [hparse, hparse]
      exact parseLevels_of_le hle h
  · have hparse := parse_of_isRule (isRule_of_parse h) maxDepth
    refine ⟨fun hdepth => ?_, fun hdepth => ?_⟩
    · rw [hparse, if_pos hdepth]
    · rw [hparse, if_neg (Nat.not_le.mpr hdepth)]
  · rcases parse_cases rule with ⟨answer, hnot, hanswer⟩ | ⟨hne, hparse⟩
    · rw [hanswer]
      exact hnot
    · rw [hparse]
      exact not_exceedsLimit_parseLevels hne ((length_le_utf8ByteSize _).trans h)

/-- A rule of depth three under smaller limits, and a rule that is wrong on its second level. -/
theorem parse_depth_cap_mixed :
    (∃ t, t.depth = 3 ∧ parse 3 "(a='x' OR b='y') AND c='z'" = .ok t) ∧
      parse 2 "(a='x' OR b='y') AND c='z'" = .error (.limit (.nesting 2)) ∧
      parse 3 "(a OR b='y')" = .error (.condition (.noComparison "a")) ∧
      ¬ ExceedsLimit (parse 12 "(a OR b='y')") := by
  have hmixed : parse 3 "(a='x' OR b='y') AND c='z'" = .ok
      (.node .and
        (.node .or (.leaf ⟨"a", .equal, .text "x", "a='x'"⟩)
          (.leaf ⟨"b", .equal, .text "y", "b='y'"⟩))
        (.leaf ⟨"c", .equal, .text "z", "c='z'"⟩)) := by decide +kernel
  have hwrong : parse 2 "(a OR b='y')" = .error (.condition (.noComparison "a")) := by
    decide +kernel
  have hcap := (parse_depth_cap "(a OR b='y')" (by decide : 2 ≤ 3)).1
  refine ⟨⟨_, rfl, hmixed⟩, ?_, ?_, ?_⟩
  · exact ((parse_depth_cap _ (by decide : 2 ≤ 3)).2.1 _ hmixed).2 (by decide)
  · rw [hcap (hwrong ▸ not_exceedsLimit_conditionFault _), hwrong]
  · exact (parse_depth_cap _ (Nat.le_refl 12)).2.2 (by decide +kernel)

end Rule

end Rulebook
