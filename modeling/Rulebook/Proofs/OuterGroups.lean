import Mathlib.Data.List.TakeWhile
import Rulebook.Proofs.BalanceFirst

/-!
# Parentheses around a whole rule

Pairs of parentheses around a rule, with blanks anywhere around them, change nothing about the rule:
not its tree, not its error and not what the error quotes, and they take no level of the limit.  The
parser peels them off before it looks at the rule, one pair after the other, and the only question
is whether it stops in time and no earlier.  A pair comes off exactly if what stands in it is
balanced on its own.  The added pairs stand around a balanced text, so they all come off; and what
is then left is the rule itself, on which the peeling goes on as it would have done without them,
whatever groups the rule starts and ends with.

The rule must not be blank, since a blank rule is empty and a pair around it is an empty group.

* `Wraps`: a text in so many pairs of parentheses, with blanks.
* `parseTrimmed_group`: one pair.
* `parse_wrapped`: any number of pairs.
-/

namespace Rulebook.Rule

open Text (isBlank trim)

/-- The second text is `cs` in so many pairs of parentheses.  There may be blanks around `cs` and
around each pair. -/
inductive Wraps (cs : List Char) : Nat → List Char → Prop where
  | blanks {w w' : List Char} (hw : Blank w) (hw' : Blank w') : Wraps cs 0 (w ++ cs ++ w')
  | pair {n : Nat} {w w' ds : List Char} (hw : Blank w) (h : Wraps cs n ds) (hw' : Blank w') :
      Wraps cs (n + 1) (w ++ '(' :: (ds ++ [')']) ++ w')

variable {cs ds w w' : List Char} {n : Nat}

/-! ## Blanks -/

theorem tight_trim (h : trim cs ≠ []) : Tight (trim cs) where
  ne_nil := h
  head _ := Text.isBlank_of_mem_head?_trim
  last _ := Text.isBlank_of_mem_getLast?_trim

/-- Only blank texts are empty when trimmed. -/
theorem trim_ne_nil_of_not_blank (h : ¬ Blank cs) : trim cs ≠ [] := by
  intro hnil
  obtain ⟨w, w', heq, hw, hw'⟩ := Text.exists_eq_append_trim cs
  rw [hnil, List.append_nil] at heq
  rw [heq] at h
  exact h (Blank.append hw hw')

theorem trim_eq_nil_of_blank (h : Blank cs) : trim cs = [] := by
  have hstart : Text.trimStart cs = [] := by
    rw [Text.trimStart, List.dropWhile_eq_nil_iff]
    exact h
  rw [trim, hstart]
  rfl

/-- Blanks around a text do not change its trimmed part. -/
theorem trim_append_blanks (hw : Blank w) (hw' : Blank w') : trim (w ++ cs ++ w') = trim cs := by
  by_cases hblank : Blank cs
  · rw [trim_eq_nil_of_blank hblank, trim_eq_nil_of_blank ((hw.append hblank).append hw')]
  · obtain ⟨v, v', heq, hv, hv'⟩ := Text.exists_eq_append_trim cs
    have hparts : w ++ cs ++ w' = (w ++ v) ++ trim cs ++ (v' ++ w') := by
      conv_lhs => rw [heq]
      simp only [List.append_assoc]
    rw [hparts]
    exact (tight_trim (trim_ne_nil_of_not_blank hblank)).trim_append
      (Blank.append hw hv) (Blank.append hv' hw')

/-! ## Pairs -/

/-- A pair around a balanced text comes off. -/
theorem peelGroups_group (hds : Balanced ds) :
    peelGroups ('(' :: (ds ++ [')'])) = peelGroups (trim ds) :=
  peelGroups_of_some (groupInterior?_eq_some_iff.mpr ⟨ds, rfl, hds, rfl⟩)

/-- A balanced text parses as it does in parentheses, if it is not blank. -/
theorem parseTrimmed_group (hds : Balanced ds) (hne : trim ds ≠ []) (maxDepth : Nat) :
    parseTrimmed maxDepth ('(' :: (ds ++ [')'])) = parseTrimmed maxDepth (trim ds) := by
  have hinside : balanceFault? (trim ds) = none :=
    (balanced_trim_iff.mpr hds).balanceFault?_eq_none
  rw [parseTrimmed, parseTrimmed, if_neg (List.cons_ne_nil _ _), if_neg hne,
    hds.group.balanceFault?_eq_none, hinside]
  show parseLevels maxDepth maxDepth _ = parseLevels maxDepth maxDepth _
  rw [← parseLevels_peelGroups, peelGroups_group hds, parseLevels_peelGroups]

/-- What a pair with blanks around it holds is parsed instead. -/
theorem parseTrimmed_trim_group (hds : Balanced ds) (hne : trim ds ≠ []) (hw : Blank w)
    (hw' : Blank w') (maxDepth : Nat) :
    parseTrimmed maxDepth (trim (w ++ '(' :: (ds ++ [')']) ++ w')) =
      parseTrimmed maxDepth (trim ds) := by
  rw [(tight_group ds).trim_append hw hw', parseTrimmed_group hds hne]

/-- Pairs and blanks around a text that is balanced and not blank make a text that is so too, and
that parses like the first one. -/
theorem Wraps.parseTrimmed_eq (h : Wraps cs n ds) (hcs : Balanced cs) (hne : trim cs ≠ []) :
    Balanced ds ∧ trim ds ≠ [] ∧
      ∀ maxDepth, parseTrimmed maxDepth (trim ds) = parseTrimmed maxDepth (trim cs) := by
  induction h with
  | blanks hw hw' =>
    have htrim : trim (_ ++ cs ++ _) = trim cs := trim_append_blanks hw hw'
    refine ⟨?_, htrim ▸ hne, fun maxDepth => by rw [htrim]⟩
    exact ((balanced_of_isBlank hw).append hcs).append (balanced_of_isBlank hw')
  | @pair n w w' ds hw _ hw' ih =>
    obtain ⟨hds, hdsNe, hparse⟩ := ih
    refine ⟨?_, ?_, fun maxDepth => ?_⟩
    · exact ((balanced_of_isBlank hw).append hds.group).append (balanced_of_isBlank hw')
    · rw [(tight_group ds).trim_append hw hw']
      exact List.cons_ne_nil _ _
    · rw [parseTrimmed_trim_group hds hdsNe hw hw', hparse]

/-- A rule that is balanced and not blank has, in any number of pairs of parentheses and with blanks
anywhere around them, the same result under every limit: the same tree, or the same error. -/
theorem parse_wrapped {rule wrapped : String} (h : Wraps rule.toList n wrapped.toList)
    (hbalanced : Matched rule.toList) (hblank : ¬ Blank rule.toList) (maxDepth : Nat) :
    parse maxDepth wrapped = parse maxDepth rule :=
  (h.parseTrimmed_eq (matched_iff.mp hbalanced) (trim_ne_nil_of_not_blank hblank)).2.2 maxDepth

/-- Two pairs around a rule that starts and ends with groups of its own, one of them empty: the pairs
take no level, and the error is that of the rule. -/
theorem parse_wrapped_siblings :
    Wraps "(a='x') OR ()".toList 2 "\t( ((a='x') OR ()\n)) ".toList ∧
      parse 0 "\t( ((a='x') OR ()\n)) " = .error (.limit (.nesting 0)) ∧
      parse 1 "\t( ((a='x') OR ()\n)) " = .error (.limit (.nesting 1)) ∧
      parse 2 "\t( ((a='x') OR ()\n)) " = .error (.parse .emptyGroup) := by
  have hblanks : ∀ cs : List Char, cs.all isBlank = true → Blank cs := fun cs h =>
    List.all_eq_true.mp h
  have hwraps : Wraps "(a='x') OR ()".toList 2 "\t( ((a='x') OR ()\n)) ".toList :=
    .pair (w := ['\t']) (hblanks _ rfl) (.pair (w := [' ']) (hblanks _ rfl)
      (.blanks (w := []) (hblanks _ rfl) (hblanks ['\n'] rfl)) (hblanks [] rfl))
      (hblanks [' '] rfl)
  have hmatched : Matched "(a='x') OR ()".toList :=
    matched_iff.mpr (isBalanced_iff.mp (by decide))
  have hblank : ¬ Blank "(a='x') OR ()".toList := fun h => absurd (h '(' (by decide)) (by decide)
  have hparse := parse_wrapped hwraps hmatched hblank
  refine ⟨hwraps, ?_, ?_, ?_⟩
  · rw [hparse]
    decide +kernel
  · rw [hparse]
    decide +kernel
  · rw [hparse]
    decide +kernel

end Rulebook.Rule
