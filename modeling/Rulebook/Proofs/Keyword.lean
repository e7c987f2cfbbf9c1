import Rulebook.Proofs.Balance
import Rulebook.Rule.Split
import Mathlib.Data.List.Basic

/-!
# The places where a keyword counts

`Split.find?` looks for keywords with a scan and a list of the characters already passed.  `Counts`
says without either what it looks for: a word on ground level whose neighbours are delimiters or
the ends of the text.  A split is then the first such place, and "no split" means that there is
none.

Where a text is put together from two parts, a word that counts lies in one of them, provided that
the seam between them cannot stand inside the word (`Counts.cases`).  In the other direction a word
that counts in a part, and not at an end of it, counts in the whole (`Counts.extend`).

* `splitAt?_eq_none_iff`, `splitAt?_eq_some_iff`: the split at one word.
* `find?_eq_none_iff`, `find?_eq_some_iff`: the split of a rule.
-/

namespace Rulebook.Rule

open Text (isDelimiter isBlank isQuote)

/-- A word counts between two parts of a text: it stands on ground level, and each of its
neighbours is a delimiter or an end of the text. -/
structure Counts (word cs before after : List Char) : Prop where
  parts : before ++ word ++ after = cs
  ground : (Scan.start.run before).isGround = true
  left : ∀ c ∈ before.getLast?, isDelimiter c = true
  right : ∀ c ∈ after.head?, isDelimiter c = true

/-- No place of the text has the word count. -/
def Free (word cs : List Char) : Prop := ∀ before after, ¬ Counts word cs before after

section Neighbours

variable {word cs before after : List Char}

/-- Before a word that counts stands a delimiter, if anything. -/
theorem Counts.before_eq_nil (h : Counts word cs before after)
    (hbefore : ∀ c ∈ before, isDelimiter c = false) : before = [] := by
  rcases List.eq_nil_or_concat before with rfl | ⟨init, c, rfl⟩
  · rfl
  · have hc := h.left c (by simp)
    rw [hbefore c (by simp)] at hc
    cases hc

/-- Right after a word that counts no text without delimiters stands. -/
theorem Counts.right_eq_nil {part rest : List Char} (h : Counts word cs before (part ++ rest))
    (hpart : ∀ c ∈ part, isDelimiter c = false) : part = [] := by
  cases part with
  | nil => rfl
  | cons c part =>
    have hc := h.right c rfl
    rw [hpart c (List.mem_cons_self ..)] at hc
    cases hc

theorem Counts.after_eq_nil (h : Counts word cs before after)
    (hafter : ∀ c ∈ after, isDelimiter c = false) : after = [] := by
  have happend : Counts word cs before (after ++ []) := by rwa [List.append_nil]
  exact happend.right_eq_nil hafter

end Neighbours

/-! ## The first place -/

theorem endsAtDelimiter_iff {cs : List Char} :
    endsAtDelimiter cs = true ↔ ∀ c ∈ cs.head?, isDelimiter c = true := by
  cases cs <;> simp [endsAtDelimiter]

/-- The test at one place asks whether the word counts there. -/
theorem counts_here_iff {word passed cs : List Char} :
    (startsWithWord word cs && endsAtDelimiter passed &&
        (Scan.start.run passed.reverse).isGround) = true ↔
      Counts word (passed.reverse ++ cs) passed.reverse (cs.drop word.length) := by
  simp only [startsWithWord, Bool.and_eq_true, endsAtDelimiter_iff, List.isPrefixOf_iff_prefix]
  constructor
  · rintro ⟨⟨⟨⟨after, rfl⟩, hright⟩, hleft⟩, hground⟩
    refine ⟨?_, hground, by rwa [List.getLast?_reverse], hright⟩
    rw [List.drop_left, List.append_assoc]
  · rintro ⟨hparts, hground, hleft, hright⟩
    rw [List.append_assoc, List.append_right_inj] at hparts
    rw [List.getLast?_reverse] at hleft
    exact ⟨⟨⟨⟨_, hparts⟩, hright⟩, hleft⟩, hground⟩

/-- Places of one text that are equally far from its start are the same. -/
theorem Counts.eq_of_length_eq {word cs before after before' after' : List Char}
    (h : Counts word cs before after) (h' : Counts word cs before' after')
    (hlength : before.length = before'.length) : before = before' ∧ after = after' := by
  have heq : before ++ (word ++ after) = before' ++ (word ++ after') := by
    rw [← List.append_assoc, ← List.append_assoc, h.parts, h'.parts]
  obtain ⟨hbefore, hafter⟩ := List.append_inj heq hlength
  exact ⟨hbefore, List.append_cancel_left hafter⟩

/-- Where the test fails, a place that is not earlier is later. -/
theorem Counts.length_lt {word passed cs before after : List Char}
    (h : Counts word (passed.reverse ++ cs) before after)
    (hhere : ¬ (startsWithWord word cs && endsAtDelimiter passed &&
      (Scan.start.run passed.reverse).isGround) = true)
    (hle : passed.length ≤ before.length) : passed.length < before.length := by
  refine Nat.lt_of_le_of_ne hle fun hlength => hhere (counts_here_iff.mpr ?_)
  have hparts := h.parts
  rw [List.append_assoc] at hparts
  obtain ⟨rfl, hrest⟩ := List.append_inj hparts (by rw [List.length_reverse, hlength])
  rw [← hrest, List.drop_left, hrest]
  exact h

/-- The search from a place on finds the first place there, and none only if there is none. -/
theorem splitFrom?_spec {word : List Char} (hword : word ≠ []) (passed cs : List Char) :
    match splitFrom? word (Scan.start.run passed.reverse) passed cs with
    | some (before, after) =>
      Counts word (passed.reverse ++ cs) before after ∧
        ∀ before' after', Counts word (passed.reverse ++ cs) before' after' →
          passed.length ≤ before'.length → before.length ≤ before'.length
    | none =>
      ∀ before after, Counts word (passed.reverse ++ cs) before after →
        before.length < passed.length := by
  induction cs generalizing passed with
  | nil =>
    intro before after h
    have hlength := congrArg List.length h.parts
    have hpos := List.length_pos_iff.mpr hword
    simp only [List.length_append, List.length_reverse, List.length_nil] at hlength
    omega
  | cons c rest ih =>
    have hnext := ih (c :: passed)
    have hscan : Scan.start.run (c :: passed).reverse = (Scan.start.run passed.reverse).step c := by
      rw [List.reverse_cons, Scan.run_append]
      rfl
    have htext : (c :: passed).reverse ++ rest = passed.reverse ++ c :: rest := by
      rw [List.reverse_cons, List.append_assoc, List.singleton_append]
    rw [hscan, htext] at hnext
    rw [splitFrom?]
    by_cases hhere : (startsWithWord word (c :: rest) && endsAtDelimiter passed &&
        (Scan.start.run passed.reverse).isGround) = true
    · rw [if_pos hhere]
      refine ⟨counts_here_iff.mp hhere, fun before' after' _ hle => ?_⟩
      rwa [List.length_reverse]
    · rw [if_neg hhere]
      rcases heq : splitFrom? word ((Scan.start.run passed.reverse).step c) (c :: passed) rest
        with _ | ⟨before, after⟩
      · rw [heq] at hnext
        intro before after h
        have hlt := hnext before after h
        rw [List.length_cons] at hlt
        rcases Nat.lt_or_ge before.length passed.length with hless | hle
        · exact hless
        · have hmore := h.length_lt hhere hle
          omega
      · rw [heq] at hnext
        exact ⟨hnext.1, fun before' after' h' hle => hnext.2 before' after' h'
          (h'.length_lt hhere hle)⟩

/-- A word counts first between two parts of a text: nowhere does it count earlier. -/
structure CountsFirst (word cs before after : List Char) : Prop
    extends Counts word cs before after where
  first : ∀ before' after', Counts word cs before' after' → before.length ≤ before'.length

theorem splitAt?_eq_none_iff {word : List Char} (hword : word ≠ []) {cs : List Char} :
    splitAt? word cs = none ↔ Free word cs := by
  have hspec := splitFrom?_spec hword [] cs
  rw [splitAt?]
  simp only [List.reverse_nil, Scan.run_nil, List.nil_append] at hspec
  split at hspec
  · next before after heq =>
    rw [heq]
    exact iff_of_false nofun fun hfree => hfree before after hspec.1
  · next heq =>
    rw [heq]
    exact iff_of_true rfl fun before after h => Nat.not_lt_zero _ (hspec before after h)

theorem splitAt?_eq_some_iff {word : List Char} (hword : word ≠ []) {cs before after : List Char} :
    splitAt? word cs = some (before, after) ↔ CountsFirst word cs before after := by
  have hspec := splitFrom?_spec hword [] cs
  rw [splitAt?]
  simp only [List.reverse_nil, Scan.run_nil, List.nil_append] at hspec
  split at hspec
  · next found rest heq =>
    obtain ⟨hcounts, hfirst⟩ := hspec
    rw [heq]
    constructor
    · intro h
      cases h
      exact ⟨hcounts, fun before' after' h' => hfirst before' after' h' (Nat.zero_le _)⟩
    · intro h
      have hle := hfirst before after h.toCounts (Nat.zero_le _)
      have hge := h.first found rest hcounts
      obtain ⟨rfl, rfl⟩ := hcounts.eq_of_length_eq h.toCounts (Nat.le_antisymm hle hge)
      rfl
  · next heq =>
    rw [heq]
    exact iff_of_false nofun fun h => Nat.not_lt_zero _ (hspec before after h.toCounts)

/-! ## Keywords -/

theorem keyword_ne_nil (k : Connective) : k.keyword.toList ≠ [] := by
  cases k <;> decide

/-- No character of a keyword is white space, a delimiter or a quote. -/
theorem marks_of_mem_keyword (k : Connective) {c : Char} (h : c ∈ k.keyword.toList) :
    isBlank c = false ∧ isDelimiter c = false ∧ isQuote c = false := by
  have hall : (k.keyword.toList.any fun c => isBlank c || isDelimiter c || isQuote c) = false := by
    cases k <;> decide
  simpa [and_assoc] using List.any_eq_false.mp hall c h

theorem isPlain_of_mem_keyword {k : Connective} {c : Char} (h : c ∈ k.keyword.toList) :
    Scan.IsPlain c := by
  obtain ⟨-, hdelimiter, hquote⟩ := marks_of_mem_keyword k h
  simp only [isDelimiter, Bool.or_eq_false_iff, beq_eq_false_iff_ne] at hdelimiter
  exact ⟨hquote, hdelimiter.1.2, hdelimiter.2⟩

theorem at?_eq_none_iff {k : Connective} {cs : List Char} :
    Split.at? k cs = none ↔ Free k.keyword.toList cs := by
  rw [Split.at?, Option.map_eq_none_iff, splitAt?_eq_none_iff (keyword_ne_nil k)]

theorem at?_eq_some_iff {k : Connective} {cs : List Char} {split : Split} :
    Split.at? k cs = some split ↔
      split.connective = k ∧ CountsFirst k.keyword.toList cs split.before split.after := by
  rw [Split.at?, Option.map_eq_some_iff]
  constructor
  · rintro ⟨⟨before, after⟩, hsplit, rfl⟩
    exact ⟨rfl, (splitAt?_eq_some_iff (keyword_ne_nil k)).mp hsplit⟩
  · rintro ⟨rfl, hfirst⟩
    exact ⟨(split.before, split.after),
      (splitAt?_eq_some_iff (keyword_ne_nil split.connective)).mpr hfirst, rfl⟩

/-- A rule is not split exactly if no keyword counts in it. -/
theorem find?_eq_none_iff {cs : List Char} :
    Split.find? cs = none ↔ ∀ k : Connective, Free k.keyword.toList cs := by
  constructor
  · intro h k
    unfold Split.find? at h
    split at h
    · cases h
    · next hand =>
      cases k with
      | and => exact at?_eq_none_iff.mp hand
      | or => exact at?_eq_none_iff.mp h
  · intro h
    rw [Split.find?, at?_eq_none_iff.mpr (h .and)]
    exact at?_eq_none_iff.mpr (h .or)

/-- A rule is split at its first `AND`, and at its first `OR` only if there is no `AND`. -/
theorem find?_eq_some_iff {cs : List Char} {split : Split} :
    Split.find? cs = some split ↔
      CountsFirst split.connective.keyword.toList cs split.before split.after ∧
        (split.connective = .or → Free Connective.and.keyword.toList cs) := by
  rcases hand : Split.at? .and cs with _ | found
  · rw [Split.find?, hand]
    have hfree := at?_eq_none_iff.mp hand
    rw [at?_eq_some_iff]
    constructor
    · rintro ⟨hor, hfirst⟩
      rw [hor]
      exact ⟨hfirst, fun _ => hfree⟩
    · rintro ⟨hfirst, -⟩
      rcases hk : split.connective with _ | _
      · rw [hk] at hfirst
        exact absurd hfirst.toCounts (hfree _ _)
      · rw [hk] at hfirst
        exact ⟨rfl, hfirst⟩
  · rw [Split.find?, hand]
    obtain ⟨hfound, hcounts⟩ := at?_eq_some_iff.mp hand
    constructor
    · intro h
      cases h
      rw [hfound]
      exact ⟨hcounts, nofun⟩
    · rintro ⟨hfirst, hfree⟩
      rcases hk : split.connective with _ | _
      · rw [hk] at hfirst
        rw [at?_eq_some_iff.mpr ⟨hk, hfirst⟩] at hand
        cases hand
        rfl
      · exact absurd hcounts.toCounts (hfree hk _ _)

/-! ## Words in texts that are put together -/

/-- A word in a text of two parts lies in one of them if the seam cannot stand inside the word. -/
theorem append_word_cases {word xs ys before after : List Char}
    (h : before ++ word ++ after = xs ++ ys)
    (hseam : (∀ c ∈ xs.getLast?, c ∉ word) ∨ ∀ c ∈ ys.head?, c ∉ word) :
    (∃ more, before ++ word ++ more = xs ∧ after = more ++ ys) ∨
      ∃ more, before = xs ++ more ∧ more ++ word ++ after = ys := by
  rcases List.append_eq_append_iff.mp h with ⟨more, hxs, hafter⟩ | ⟨tail, hcut, hys⟩
  · exact Or.inl ⟨more, hxs.symm, hafter⟩
  · rcases List.append_eq_append_iff.mp hcut with ⟨start, hxs, hword⟩ | ⟨more, hbefore, htail⟩
    · -- the seam cuts the word into `start` and `tail`, and one of them must be empty
      rcases List.eq_nil_or_concat start with rfl | ⟨start, c, rfl⟩
      · refine Or.inr ⟨[], by simpa using hxs.symm, ?_⟩
        rw [hys, hword, List.nil_append, List.nil_append]
      · cases tail with
        | nil =>
          refine Or.inl ⟨[], ?_, by simpa using hys.symm⟩
          rw [hword, hxs, List.append_nil, List.append_nil]
        | cons d tail =>
          rcases hseam with hlast | hhead
          · refine absurd ?_ (hlast c (by simp [hxs]))
            simp [hword]
          · refine absurd ?_ (hhead d (by simp [hys]))
            simp [hword]
    · exact Or.inr ⟨more, hbefore, by rw [hys, htail]⟩

/-- A word that counts in a text of two parts counts in one of them, if the first part ends on
ground level and the seam cannot stand inside the word. -/
theorem Counts.cases {word xs ys before after : List Char}
    (h : Counts word (xs ++ ys) before after) (hxs : (Scan.start.run xs).isGround = true)
    (hseam : (∀ c ∈ xs.getLast?, c ∉ word) ∨ ∀ c ∈ ys.head?, c ∉ word) :
    (∃ more, Counts word xs before more) ∨
      ∃ more, before = xs ++ more ∧ Counts word ys more after := by
  rcases append_word_cases h.parts hseam with ⟨more, hmore, hafter⟩ | ⟨more, hbefore, hmore⟩
  · refine Or.inl ⟨more, hmore, h.ground, h.left, fun c hc => h.right c ?_⟩
    rw [hafter, List.head?_append, Option.mem_def.mp hc]
    rfl
  · have hground := h.ground
    rw [hbefore, Scan.run_append_of_isGround hxs] at hground
    refine Or.inr ⟨more, hbefore, hmore, hground, fun c hc => h.left c ?_, h.right⟩
    rw [hbefore, List.getLast?_append, Option.mem_def.mp hc]
    rfl

/-- A text put together from two others is free of a word if both are. -/
theorem Free.append {word xs ys : List Char} (hxs : Free word xs) (hys : Free word ys)
    (hground : (Scan.start.run xs).isGround = true)
    (hseam : (∀ c ∈ xs.getLast?, c ∉ word) ∨ ∀ c ∈ ys.head?, c ∉ word) : Free word (xs ++ ys) := by
  intro before after h
  rcases h.cases hground hseam with ⟨more, hmore⟩ | ⟨more, -, hmore⟩
  · exact hxs _ _ hmore
  · exact hys _ _ hmore

/-- A word that counts in a part of a text, not at an end of the part, counts in the text. -/
theorem Counts.extend {word cs before after : List Char} (h : Counts word cs before after)
    (hbefore : before ≠ []) (hafter : after ≠ []) {xs : List Char}
    (hxs : (Scan.start.run xs).isGround = true) (ys : List Char) :
    Counts word (xs ++ cs ++ ys) (xs ++ before) (after ++ ys) where
  parts := by simp [← h.parts]
  ground := by
    rw [Scan.run_append_of_isGround hxs]
    exact h.ground
  left c hc := by
    rw [List.getLast?_append_of_ne_nil _ hbefore] at hc
    exact h.left c hc
  right c hc := by
    rw [List.head?_append_of_ne_nil _ hafter] at hc
    exact h.right c hc

end Rulebook.Rule
