import Rulebook.Rule.Scan

/-!
# Splitting a rule at a keyword

A rule is taken apart at its first `AND` on ground level, and only if there is none at its first
`OR`.  So `OR` binds more tightly than `AND`, and chains of one keyword lean to the right.  A
keyword counts where it stands on ground level between delimiters; the ends of the text count as
delimiters too.

* `Rule.splitAt?`: the two sides of the first place where a word counts.
* `Rule.Split.find?`: the split of a rule.
* `append_of_find?`: a split cuts nothing away but its keyword.
-/

namespace Rulebook.Rule

open Text (isDelimiter)

/-- Whether a keyword may start after a text, which is given last character first. -/
def endsAtDelimiter : List Char → Bool
  | [] => true
  | c :: _ => isDelimiter c

/-- Whether a text starts with a word and the word ends there. -/
def startsWithWord (word cs : List Char) : Bool :=
  word.isPrefixOf cs && endsAtDelimiter (cs.drop word.length)

/-- The text before and after the first place from here on where the word counts.  The scan and
the characters already passed, last one first, come along. -/
def splitFrom? (word : List Char) (s : Scan) (passed : List Char) :
    List Char → Option (List Char × List Char)
  | [] => none
  | c :: rest =>
    if startsWithWord word (c :: rest) && endsAtDelimiter passed && s.isGround then
      some (passed.reverse, (c :: rest).drop word.length)
    else
      splitFrom? word (s.step c) (c :: passed) rest

/-- The text before and after the first place where a word counts. -/
def splitAt? (word cs : List Char) : Option (List Char × List Char) :=
  splitFrom? word .start [] cs

theorem append_of_splitFrom? {word : List Char} {s : Scan} {passed cs before after : List Char}
    (h : splitFrom? word s passed cs = some (before, after)) :
    before ++ word ++ after = passed.reverse ++ cs := by
  induction cs generalizing s passed with
  | nil => cases h
  | cons c rest ih =>
    rw [splitFrom?] at h
    split at h
    · next hhere =>
      cases h
      simp only [Bool.and_eq_true, startsWithWord] at hhere
      obtain ⟨after, hafter⟩ := List.isPrefixOf_iff_prefix.mp hhere.1.1.1
      rw [← hafter, List.drop_left, List.append_assoc]
    · rw [ih h, List.reverse_cons, List.append_assoc, List.singleton_append]

theorem append_of_splitAt? {word cs before after : List Char}
    (h : splitAt? word cs = some (before, after)) : before ++ word ++ after = cs := by
  simpa using append_of_splitFrom? h

/-! ## Splits -/

/-- A rule with its split keyword cut out. -/
structure Split where
  connective : Connective
  before : List Char
  after : List Char
  deriving DecidableEq, Repr

/-- The split of a rule at one keyword. -/
def Split.at? (connective : Connective) (cs : List Char) : Option Split :=
  (splitAt? connective.keyword.toList cs).map fun (before, after) => ⟨connective, before, after⟩

/-- The split of a rule: at the first `AND`, or else at the first `OR`. -/
def Split.find? (cs : List Char) : Option Split :=
  match Split.at? .and cs with
  | some split => some split
  | none => Split.at? .or cs

/-- A split and its keyword make up the rule. -/
theorem append_of_find? {cs : List Char} {split : Split} (h : Split.find? cs = some split) :
    split.before ++ split.connective.keyword.toList ++ split.after = cs := by
  have hat : ∀ {k : Connective} {s : Split}, Split.at? k cs = some s →
      s.before ++ s.connective.keyword.toList ++ s.after = cs := by
    intro k s hs
    obtain ⟨⟨before, after⟩, hsplit, rfl⟩ := Option.map_eq_some_iff.mp hs
    exact append_of_splitAt? hsplit
  unfold Split.find? at h
  split at h
  · next hand =>
    cases h
    exact hat hand
  · exact hat h

end Rulebook.Rule
