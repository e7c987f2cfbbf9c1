import Rulebook.Rule.Parse

/-!
# One level of the parser

At each level the parser does one of two things.  It has an answer, a leaf or an error, or it leaves
two texts to the level below and joins what these give.  Which of the two it is depends on the text
alone; the limit is asked before a level, and never in it.  `takeApart` is this step without the
recursion, and what several levels do is then said by induction from what one of them does.

* `parseLevels_succ`: a level takes its text apart, and the level below parses the parts.
* `takeApart_eq_parts_iff`: the texts that are left to the level below.
* `not_unbalanced_of_takeApart`: a level never complains about the balance of its text.
-/

namespace Rulebook.Rule

open Text (trim)

/-- What a level makes of a text. -/
inductive Outcome where
  /-- The level has an answer of its own. -/
  | answer (result : Except RuleError Tree)
  /-- The level leaves two texts to the level below, and joins the trees that they have. -/
  | parts (connective : Connective) (before after : List Char)

/-- What a level makes of a text, without the levels below it. -/
def takeApart (cs : List Char) : Outcome :=
  let inner := peelGroups cs
  if inner = [] then
    .answer (.error (.parse .emptyGroup))
  else
    match Split.find? inner with
    | none => .answer ((Condition.read inner).map Tree.leaf)
    | some split =>
      if trim split.before = [] ∨ trim split.after = [] then
        .answer (.error (.parse (.missingOperand split.connective (String.ofList inner))))
      else
        .parts split.connective (trim split.before) (trim split.after)

variable {cs before after : List Char} {k : Connective} {result : Except RuleError Tree}

theorem parseLevels_succ (limit levels : Nat) (cs : List Char) :
    parseLevels limit (levels + 1) cs =
      match takeApart cs with
      | .answer result => result
      | .parts k before after => do
        let left ← parseLevels limit levels before
        let right ← parseLevels limit levels after
        return .node k left right := by
  by_cases hempty : peelGroups cs = []
  · simp only [parseLevels, takeApart, if_pos hempty]
  · rcases hfind : Split.find? (peelGroups cs) with _ | split
    · simp only [parseLevels, takeApart, if_neg hempty, hfind]
    · by_cases hmissing : trim split.before = [] ∨ trim split.after = []
      · simp only [parseLevels, takeApart, if_neg hempty, hfind, if_pos hmissing]
      · simp only [parseLevels, takeApart, if_neg hempty, hfind, if_neg hmissing]

theorem parseLevels_of_answer (h : takeApart cs = .answer result) (limit levels : Nat) :
    parseLevels limit (levels + 1) cs = result := by
  rw [parseLevels_succ, h]

theorem parseLevels_of_parts (h : takeApart cs = .parts k before after) (limit levels : Nat) :
    parseLevels limit (levels + 1) cs = (do
      let left ← parseLevels limit levels before
      let right ← parseLevels limit levels after
      return .node k left right) := by
  rw [parseLevels_succ, h]

/-- A level that has an answer has found no keyword, or no text on one side of it. -/
theorem takeApart_eq_answer_cases (h : takeApart cs = .answer result) :
    (∃ fault, (fault = .emptyGroup ∨ ∃ k text, fault = .missingOperand k text) ∧
      result = .error (.parse fault)) ∨
      result = (Condition.read (peelGroups cs)).map Tree.leaf := by
  simp only [takeApart] at h
  split at h
  · cases h
    exact Or.inl ⟨_, Or.inl rfl, rfl⟩
  · split at h
    · cases h
      exact Or.inr rfl
    · split at h
      · cases h
        exact Or.inl ⟨_, Or.inr ⟨_, _, rfl⟩, rfl⟩
      · cases h

/-- The two texts that are left to the level below are the sides of a split, if both have a text. -/
theorem takeApart_eq_parts_iff :
    takeApart cs = .parts k before after ↔
      ∃ split, Split.find? (peelGroups cs) = some split ∧ split.connective = k ∧
        (trim split.before = before ∧ before ≠ []) ∧ (trim split.after = after ∧ after ≠ []) := by
  constructor
  · intro h
    simp only [takeApart] at h
    split at h
    · cases h
    · split at h
      · cases h
      · next split hfind =>
        split at h
        · cases h
        · next hboth =>
          cases h
          obtain ⟨hbefore, hafter⟩ := not_or.mp hboth
          exact ⟨split, hfind, rfl, ⟨rfl, hbefore⟩, rfl, hafter⟩
  · rintro ⟨split, hfind, rfl, ⟨rfl, hbefore⟩, rfl, hafter⟩
    have hinner : peelGroups cs ≠ [] := by
      intro hnil
      rw [hnil] at hfind
      cases hfind
    simp only [takeApart, if_neg hinner, hfind, if_neg (not_or.mpr ⟨hbefore, hafter⟩)]

/-- A level never complains about the balance of its text. -/
theorem not_unbalanced_of_takeApart {fault : BalanceFault} {text : String}
    (h : takeApart cs = .answer result) : result ≠ .error (.parse (.unbalanced fault text)) := by
  rcases takeApart_eq_answer_cases h with ⟨other, hother, rfl⟩ | rfl
  · rcases hother with rfl | ⟨k, text', rfl⟩
    · nofun
    · nofun
  · rw [Condition.read]
    split
    · nofun
    · nofun

end Rulebook.Rule
