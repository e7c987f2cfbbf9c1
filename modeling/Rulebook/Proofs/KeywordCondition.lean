import Rulebook.Proofs.Grammar.Parsing
import Rulebook.Proofs.StoredRoundTrip

/-!
# Conditions with a keyword in them

The text of a condition is read in two ways.  A stored tree reads it as it is.  A rule is first
checked for balance, freed of groups and cut at its keywords, and only what has none is read as a
condition.  The two ways agree unless a keyword counts in the text, and this file says in which
conditions one does.

Keywords are not reserved: a field may be called `AND`, and `AND` may be a bare literal.  What the
name and a bare literal are made of delimits nothing, and what is quoted does not count, so a
keyword that counts is the name or the bare literal as a whole, with a space on its other side.
The rule is then cut with nothing on one side of the keyword, and is refused for that.

* `Condition.HasKeywordField`, `Condition.HasKeywordLiteral`: the conditions in question.
* `cases_of_counts`: where a keyword counts in the text of a condition.
* `find?_condition_eq_none_iff`: the conditions in which none does.
* `parse_of_not_meetsKeyword`, `parse_of_meetsKeyword`: what becomes of a condition as a rule.
* `parse_condition`: the difference between the two ways.
-/

namespace Rulebook

open Text (isBlank isDelimiter isNameStart isQuote isSpace isWord trim)

namespace Condition

/-- The field is a keyword, and a space follows it in the text. -/
def HasKeywordField (c : Condition) : Prop :=
  ∃ (k : Connective) (d : Char) (after : List Char),
    c.field = k.keyword ∧ isSpace d = true ∧ c.raw.toList = k.keyword.toList ++ d :: after

/-- The literal is a keyword without quotes, and a space precedes it in the text. -/
def HasKeywordLiteral (c : Condition) : Prop :=
  ∃ (k : Connective) (d : Char) (before : List Char),
    c.literal = .text k.keyword ∧ isSpace d = true ∧ c.raw.toList = before ++ d :: k.keyword.toList

/-- The field or the literal is a keyword with a space on the side of the comparator. -/
def MeetsKeyword (c : Condition) : Prop := c.HasKeywordField ∨ c.HasKeywordLiteral

end Condition

namespace Rule

variable {k : Connective} {cs before after : List Char} {c : Condition}

/-! ## Characters -/

/-- A test that all delimiters fail is passed by no delimiter. -/
theorem isDelimiter_eq_false_of_test {p : Char → Bool}
    (hp : [' ', '\t', '\n', '\x0C', '\r', '(', ')'].any p = false) {d : Char} (h : p d = true) :
    isDelimiter d = false := by
  have hne : ∀ e ∈ [' ', '\t', '\n', '\x0C', '\r', '(', ')'], d ≠ e := by
    rintro e he rfl
    exact List.any_eq_false.mp hp d he h
  simp only [List.mem_cons, List.not_mem_nil, or_false, forall_eq_or_imp, forall_eq] at hne
  simp [isDelimiter, isSpace, hne]

theorem isDelimiter_eq_false_of_isWord {d : Char} (h : isWord d = true) : isDelimiter d = false :=
  isDelimiter_eq_false_of_test (by decide) h

theorem isDelimiter_eq_false_of_isNameStart {d : Char} (h : isNameStart d = true) :
    isDelimiter d = false :=
  isDelimiter_eq_false_of_test (by decide) h

theorem isDelimiter_eq_false_of_isBare {d : Char} (h : isBare d = true) : isDelimiter d = false :=
  isDelimiter_eq_false_of_test (by decide) h

/-- The delimiters that are no parentheses are the spaces. -/
theorem isSpace_of_isDelimiter {d : Char} (hplain : Scan.IsPlain d) (h : isDelimiter d = true) :
    isSpace d = true := by
  simpa [isDelimiter, hplain.2.1, hplain.2.2] using h

theorem notMem_keyword_of_mem_symbol {symbol : Comparator} {d : Char}
    (h : d ∈ symbol.symbol.toList) : d ∉ k.keyword.toList := by
  have hany : (symbol.symbol.toList.any fun d => k.keyword.toList.contains d) = false := by
    cases symbol <;> cases k <;> decide
  simpa using List.any_eq_false.mp hany d h

theorem notMem_keyword_of_isQuote {q : Char} (hq : isQuote q = true) : q ∉ k.keyword.toList := by
  intro hmem
  rw [(marks_of_mem_keyword k hmem).2.2] at hq
  cases hq

theorem isDelimiter_eq_false_of_mem_name {p : Condition.Parts} {d : Char}
    (h : d ∈ p.first :: p.more) : isDelimiter d = false := by
  rcases List.mem_cons.mp h with rfl | h
  · exact isDelimiter_eq_false_of_isNameStart (isNameStart_iff.mpr p.first_spec)
  · exact isDelimiter_eq_false_of_isWord (p.more_isWord d h)

/-! ## Literals -/

/-- Quotes hide keywords. -/
theorem free_quoted {q : Char} (hq : isQuote q = true) {inside : List Char} (hinside : q ∉ inside)
    (k : Connective) : Free k.keyword.toList (q :: (inside ++ [q])) := by
  have hnotMem : q ∉ k.keyword.toList := notMem_keyword_of_isQuote hq
  obtain ⟨first, word, hword⟩ := List.exists_cons_of_ne_nil (keyword_ne_nil k)
  have hfirst : first ≠ q := fun heq => hnotMem (by rw [hword, heq]; exact List.mem_cons_self ..)
  intro before after h
  have hparts := h.parts
  rw [List.append_assoc] at hparts
  rcases List.append_eq_cons_iff.mp hparts with ⟨-, hhead⟩ | ⟨inner, rfl, hinner⟩
  · rw [hword] at hhead
    exact hfirst (List.cons.inj hhead).1
  · have hinner' : inner ++ k.keyword.toList ++ after = inside ++ [q] := by
      rw [List.append_assoc, hinner]
    have hseam : ∀ d ∈ [q].head?, d ∉ k.keyword.toList := by
      rintro d ⟨⟩
      exact hnotMem
    rcases append_word_cases hinner' (Or.inr hseam) with ⟨more, rfl, -⟩ | ⟨more, -, hquote⟩
    · -- the quote is still open where the keyword stands
      have hopen : q ∉ inner := fun hmem =>
        hinside (List.mem_append_left _ (List.mem_append_left _ hmem))
      have hground := h.ground
      rw [Scan.run_cons, Scan.step_quote rfl hq, Scan.run_inside hopen] at hground
      cases hground
    · have hmem : first ∈ [q] := by
        rw [← hquote, hword]
        simp
      exact hfirst (List.mem_singleton.mp hmem)

theorem ofBare_keyword (k : Connective) : Literal.ofBare k.keyword.toList = .text k.keyword := by
  cases k <;> decide

/-! ## Where keywords count in a condition -/

/-- The text of a condition consists of a name, the comparator with the blanks around it, and a
literal.  In the name stand no delimiters, and around the comparator stands no part of a keyword. -/
structure HasParts (cs : List Char) (c : Condition) (name middle literal : List Char) : Prop where
  text : name ++ middle ++ literal = cs
  raw : c.raw.toList = cs
  field : c.field = String.ofList name
  name : ∀ d ∈ name, Scan.IsPlain d ∧ isDelimiter d = false
  middle_ne_nil : middle ≠ []
  middle : ∀ d ∈ middle, Scan.IsPlain d ∧ ∀ k : Connective, d ∉ k.keyword.toList
  literal : readLiteral? literal = some c.literal

theorem exists_hasParts (h : Condition.ofTrimmed? cs = some c) :
    ∃ name middle literal, HasParts cs c name middle literal := by
  obtain ⟨p, rfl, rfl⟩ := Condition.Parts.exists_of_ofTrimmed? h
  refine ⟨p.first :: p.more, p.middle, p.token, p.append_middle, String.toList_ofList, rfl, ?_, ?_,
    ?_, readLiteral?_eq_some_iff.mpr p.isLiteral⟩
  · exact fun d hd => ⟨p.isPlain_of_mem_name d hd, isDelimiter_eq_false_of_mem_name hd⟩
  · rw [Condition.Parts.middle]
    cases p.comparator <;> simp [Comparator.symbol]
  · intro d hd
    refine ⟨p.isPlain_of_mem_middle d hd, fun k => ?_⟩
    simp only [Condition.Parts.middle, List.mem_append] at hd
    rcases hd with (hd | hd) | hd
    · exact notMem_keyword k (Or.inr (p.gap_isBlank d hd))
    · exact notMem_keyword_of_mem_symbol hd
    · exact notMem_keyword k (Or.inr (p.gap'_isBlank d hd))

section Parts

variable {name middle literal : List Char}

theorem HasParts.isPlain (h : HasParts cs c name middle literal) :
    ∀ d ∈ name ++ middle, Scan.IsPlain d := by
  intro d hd
  rcases List.mem_append.mp hd with hd | hd
  · exact (h.name d hd).1
  · exact (h.middle d hd).1

/-- A keyword that counts before the literal is the name. -/
theorem HasParts.hasKeywordField (h : HasParts cs c name middle literal)
    (hcounts : Counts k.keyword.toList (name ++ middle) before after) :
    before = [] ∧ c.HasKeywordField := by
  have hseam : ∀ d ∈ middle.head?, d ∉ k.keyword.toList := fun d hd =>
    (h.middle d (List.mem_of_mem_head? hd)).2 k
  rcases append_word_cases hcounts.parts (Or.inr hseam) with ⟨tail, hname, rfl⟩ | ⟨tail, -, hmiddle⟩
  · have hbefore : before = [] := hcounts.before_eq_nil fun d hd =>
      (h.name d (by simp [← hname, hd])).2
    have htail : tail = [] := hcounts.right_eq_nil fun d hd =>
      (h.name d (by simp [← hname, hd])).2
    rw [hbefore, htail, List.nil_append, List.append_nil] at hname
    obtain ⟨d, rest, rfl⟩ := List.exists_cons_of_ne_nil h.middle_ne_nil
    have hspace : isSpace d = true :=
      isSpace_of_isDelimiter (h.middle d (List.mem_cons_self ..)).1
        (hcounts.right d (by rw [htail]; rfl))
    refine ⟨hbefore, k, d, rest ++ literal, ?_, hspace, ?_⟩
    · rw [h.field, ← hname, String.ofList_toList]
    · rw [h.raw, ← h.text, ← hname, List.append_assoc, List.cons_append]
  · obtain ⟨d, hd⟩ := List.exists_mem_of_ne_nil _ (keyword_ne_nil k)
    exact absurd hd ((h.middle d (by simp [← hmiddle, hd])).2 k)

/-- A keyword that counts in the literal is the literal, and has no quotes. -/
theorem HasParts.hasKeywordLiteral (h : HasParts cs c name middle literal)
    (hcounts : Counts k.keyword.toList literal before after)
    (hleft : ∀ d ∈ (name ++ middle ++ before).getLast?, isDelimiter d = true) :
    after = [] ∧ c.HasKeywordLiteral := by
  rcases readLiteral?_eq_some h.literal with ⟨q, inside, hq, hinside, -, rfl, -⟩ | ⟨-, hbare, hl⟩
  · exact absurd hcounts (free_quoted hq hinside k before after)
  · have hnone : ∀ d ∈ literal, isDelimiter d = false := fun d hd =>
      isDelimiter_eq_false_of_isBare (hbare d hd)
    have hbefore : before = [] := hcounts.before_eq_nil fun d hd =>
      hnone d (by simp [← hcounts.parts, hd])
    have hafter : after = [] := hcounts.after_eq_nil fun d hd =>
      hnone d (by simp [← hcounts.parts, hd])
    have hliteral := hcounts.parts
    rw [hbefore, hafter, List.nil_append, List.append_nil] at hliteral
    rcases List.eq_nil_or_concat middle with hnil | ⟨init, d, rfl⟩
    · exact absurd hnil h.middle_ne_nil
    · have hspace : isSpace d = true :=
        isSpace_of_isDelimiter (h.middle d (by simp)).1 (hleft d (by simp [hbefore]))
      refine ⟨hafter, k, d, name ++ init, ?_, hspace, ?_⟩
      · rw [hl, ← hliteral, ofBare_keyword]
      · rw [h.raw, ← h.text, ← hliteral]
        simp only [List.concat_eq_append, List.append_assoc, List.cons_append, List.nil_append]

end Parts

/-- A keyword that counts in the text of a condition is the field, with a space after it, or the
literal, without quotes and with a space before it. -/
theorem cases_of_counts (h : Condition.ofTrimmed? cs = some c)
    (hcounts : Counts k.keyword.toList cs before after) :
    before = [] ∧ c.HasKeywordField ∨ after = [] ∧ c.HasKeywordLiteral := by
  obtain ⟨name, middle, literal, hparts⟩ := exists_hasParts h
  have hground : (Scan.start.run (name ++ middle)).isGround = true := by
    rw [Scan.run_of_isPlain rfl hparts.isPlain]
    rfl
  have hseam : ∀ d ∈ (name ++ middle).getLast?, d ∉ k.keyword.toList := by
    intro d hd
    rw [List.getLast?_append_of_ne_nil _ hparts.middle_ne_nil] at hd
    exact (hparts.middle d (List.mem_of_mem_getLast? hd)).2 k
  rw [← hparts.text] at hcounts
  rcases hcounts.cases hground (Or.inl hseam) with ⟨more, hfield⟩ | ⟨more, rfl, hliteral⟩
  · exact Or.inl (hparts.hasKeywordField hfield)
  · exact Or.inr (hparts.hasKeywordLiteral hliteral hcounts.left)

/-- In a text that ends with a keyword, no literal is quoted. -/
theorem HasParts.isPlain_of_keyword {name middle literal init : List Char}
    (h : HasParts cs c name middle literal) (hcs : cs = init ++ k.keyword.toList) :
    ∀ d ∈ cs, Scan.IsPlain d := by
  rcases readLiteral?_eq_some h.literal with ⟨q, inside, hq, -, -, rfl, -⟩ | ⟨-, hbare, -⟩
  · have hlast : cs.getLast? = some q := by
      rw [← h.text, List.getLast?_append_of_ne_nil _ (List.cons_ne_nil _ _), ← List.cons_append,
        List.getLast?_concat]
    rw [hcs, List.getLast?_append_of_ne_nil _ (keyword_ne_nil k)] at hlast
    exact absurd (List.mem_of_mem_getLast? hlast) (notMem_keyword_of_isQuote hq)
  · intro d hd
    rw [← h.text] at hd
    exact (List.mem_append.mp hd).elim (h.isPlain d) fun hd => isPlain_of_isBare (hbare d hd)

/-- In a condition that meets a keyword, the keyword counts. -/
theorem exists_counts_of_meetsKeyword (h : Condition.ofTrimmed? cs = some c)
    (hmeets : c.MeetsKeyword) :
    ∃ (k : Connective) (before after : List Char), Counts k.keyword.toList cs before after := by
  obtain ⟨name, middle, literal, hparts⟩ := exists_hasParts h
  rcases hmeets with ⟨k, d, rest, -, hspace, hraw⟩ | ⟨k, d, init, -, hspace, hraw⟩
  · rw [hparts.raw] at hraw
    refine ⟨k, [], d :: rest, hraw.symm, rfl, by simp, ?_⟩
    rintro e ⟨⟩
    simp [isDelimiter, hspace]
  · have hcs : cs = init ++ [d] ++ k.keyword.toList := by
      rw [← hparts.raw, hraw, List.append_assoc, List.singleton_append]
    have hplain : ∀ e ∈ init ++ [d], Scan.IsPlain e := fun e he =>
      hparts.isPlain_of_keyword hcs e (hcs ▸ List.mem_append_left _ he)
    refine ⟨k, init ++ [d], [], by rw [hcs, List.append_nil], ?_, ?_, by simp⟩
    · rw [Scan.run_of_isPlain rfl hplain]
      rfl
    · rw [List.getLast?_concat]
      rintro e ⟨⟩
      simp [isDelimiter, hspace]

/-- The text of a condition is cut at no keyword exactly if the condition meets none. -/
theorem find?_condition_eq_none_iff (h : Condition.ofTrimmed? cs = some c) :
    Split.find? cs = none ↔ ¬ c.MeetsKeyword := by
  rw [find?_eq_none_iff]
  constructor
  · intro hfree hmeets
    obtain ⟨k, before, after, hcounts⟩ := exists_counts_of_meetsKeyword h hmeets
    exact hfree k before after hcounts
  · intro hmeets k before after hcounts
    rcases cases_of_counts h hcounts with ⟨-, hfield⟩ | ⟨-, hliteral⟩
    · exact hmeets (Or.inl hfield)
    · exact hmeets (Or.inr hliteral)

/-! ## Trees of rules -/

/-- The conditions of a derived text have been read from text. -/
theorem Derives.isRead {level : Level} {t : Tree} (h : Derives level cs t) : t.IsRead := by
  induction h with
  | @leaf cs c h =>
    intro d hd
    cases List.mem_singleton.mp hd
    refine ⟨String.ofList cs, ?_⟩
    rw [Condition.ofString, String.toList_ofList]
    exact h.reads
  | group _ _ _ ih => exact ih
  | operand _ ih => exact ih
  | chain _ _ _ _ _ _ ihleft ihright =>
    intro d hd
    exact (List.mem_append.mp hd).elim (ihleft d) (ihright d)

/-- The conditions of a tree that a rule parses to have been read from text. -/
theorem isRead_of_parse {maxDepth : Nat} {rule : String} {t : Tree}
    (h : parse maxDepth rule = .ok t) : t.IsRead := by
  obtain ⟨_, _, _, -, -, -, hderives⟩ := isRule_of_parse h
  exact hderives.isRead

/-! ## Conditions as rules -/

/-- A condition that meets no keyword is a rule, with the condition as its only leaf. -/
theorem parse_of_not_meetsKeyword {s : String} {maxDepth : Nat} (hdepth : 1 ≤ maxDepth)
    (h : Condition.ofString s = .ok c) (hmeets : ¬ c.MeetsKeyword) :
    parse maxDepth s = .ok (.leaf c) := by
  have hread : Condition.read (trim s.toList) = .ok c := by
    rw [read_eq_ok_iff, Text.trim_trim]
    exact read_eq_ok_iff.mp h
  have hfind := (find?_condition_eq_none_iff (read_eq_ok_iff.mp h)).mpr hmeets
  have hderives : Derives (.chain .and) (trim s.toList) (.leaf c) :=
    derivesWhereFree_leaf (Text.trim_trim _) hfind hread _ (by rintro (_ | _) ⟨⟩)
  obtain ⟨w, w', hs, hw, hw'⟩ := Text.exists_eq_append_trim s.toList
  have hleafDepth : (Tree.leaf c).depth ≤ maxDepth := hdepth
  rw [parse_of_isRule ⟨w, _, w', hs, hw, hw', hderives⟩, if_pos hleafDepth]

/-- A condition that meets a keyword is cut there, with nothing on one side. -/
theorem parse_of_meetsKeyword {s : String} {maxDepth : Nat} (hdepth : 1 ≤ maxDepth)
    (h : Condition.ofString s = .ok c) (hmeets : c.MeetsKeyword) :
    ∃ k, parse maxDepth s = .error (.parse (.missingOperand k c.raw)) := by
  have htrimmed := read_eq_ok_iff.mp h
  obtain ⟨first, rest, hcs, -⟩ := head?_ne_open_of_ofTrimmed? htrimmed
  have hbalanced := (flat_of_ofTrimmed? htrimmed).balanced.balanceFault?_eq_none
  have hpeel := peelGroups_of_none (groupInterior?_condition htrimmed)
  rcases hfind : Split.find? (trim s.toList) with _ | split
  · exact absurd hmeets ((find?_condition_eq_none_iff htrimmed).mp hfind)
  · have hempty : trim split.before = [] ∨ trim split.after = [] := by
      rcases cases_of_counts htrimmed (find?_eq_some_iff.mp hfind).1.toCounts with
        ⟨hnil, -⟩ | ⟨hnil, -⟩
      · exact Or.inl (by rw [hnil, Text.trim_nil])
      · exact Or.inr (by rw [hnil, Text.trim_nil])
    obtain ⟨levels, rfl⟩ := Nat.exists_eq_add_of_le' hdepth
    refine ⟨split.connective, ?_⟩
    have hne : trim s.toList ≠ [] := by simp [hcs]
    rw [parse, parseTrimmed, if_neg hne, hbalanced, raw_of_read h]
    simp only [parseLevels, hpeel, if_neg hne, hfind, if_pos hempty]

/-- A condition that meets a keyword and has a quoted literal has the keyword for its field. -/
theorem hasKeywordField_of_quoted {q : Char} (hq : isQuote q = true)
    (hlast : q ∈ c.raw.toList.getLast?) (hmeets : c.MeetsKeyword) : c.HasKeywordField := by
  rcases hmeets with hfield | ⟨k, d, init, -, -, hraw⟩
  · exact hfield
  · rw [hraw, List.append_cons, List.getLast?_append_of_ne_nil _ (keyword_ne_nil k)] at hlast
    exact absurd (List.mem_of_mem_getLast? hlast) (notMem_keyword_of_isQuote hq)

/-- A text that reads as a condition is a rule with the condition as its only leaf, unless the
condition has a keyword for its field, with a space after it, or for its literal, without quotes and
with a space before it; then the rule is refused, as a side of the keyword is missing.  So nothing
that stands in quotes matters, and the texts of stored trees that are no rules are those of the
conditions that meet a keyword. -/
theorem parse_condition (maxDepth : Nat) (hdepth : 1 ≤ maxDepth) :
    (∀ s c, Condition.ofString s = .ok c →
      (¬ c.MeetsKeyword → parse maxDepth s = .ok (.leaf c)) ∧
        (c.MeetsKeyword → ∃ k, parse maxDepth s = .error (.parse (.missingOperand k c.raw)))) ∧
      (∀ s c q, Condition.ofString s = .ok c → isQuote q = true → q ∈ c.raw.toList.getLast? →
        ¬ c.HasKeywordField → parse maxDepth s = .ok (.leaf c)) ∧
      ∀ node t, StoredNode.toTree node = .ok t → ∀ c ∈ t.conditions,
        Condition.ofString c.raw = .ok c ∧
          (c.MeetsKeyword ↔ ∃ err, parse maxDepth c.raw = .error err) := by
  refine ⟨fun s c h => ⟨parse_of_not_meetsKeyword hdepth h, parse_of_meetsKeyword hdepth h⟩,
    fun s c q h hq hlast hfield => ?_, fun node t hnode c hc => ?_⟩
  · exact parse_of_not_meetsKeyword hdepth h fun hmeets =>
      hfield (hasKeywordField_of_quoted hq hlast hmeets)
  · obtain ⟨s, hs⟩ := StoredNode.isRead_of_toTree hnode c hc
    have hraw := ofString_raw hs
    refine ⟨hraw, fun hmeets => ?_, fun ⟨err, herr⟩ => ?_⟩
    · obtain ⟨k, hk⟩ := parse_of_meetsKeyword hdepth hraw hmeets
      exact ⟨_, hk⟩
    · by_contra hmeets
      rw [parse_of_not_meetsKeyword hdepth hraw hmeets] at herr
      cases herr

/-- A field that is called `AND`, with a space after it and without one, and a quoted literal that
holds a parenthesis and a keyword. -/
theorem parse_condition_and :
    (∃ k, parse 1 "AND = x" = .error (.parse (.missingOperand k "AND = x"))) ∧
      parse 1 "AND=OR" = .ok (.leaf ⟨"AND", .equal, .text "OR", "AND=OR"⟩) ∧
      parse 1 "x = '(a AND '" = .ok (.leaf ⟨"x", .equal, .text "(a AND ", "x = '(a AND '"⟩) := by
  obtain ⟨hsplit, hquoted, -⟩ := parse_condition 1 (by decide)
  refine ⟨(hsplit _ ⟨"AND", .equal, .text "x", "AND = x"⟩ ?_).2 ?_, (hsplit _ _ ?_).1 ?_,
    hquoted _ _ '\x27' ?_ rfl rfl ?_⟩
  · exact read_eq_ok_iff.mpr (by decide)
  · exact Or.inl ⟨.and, ' ', ['=', ' ', 'x'], rfl, rfl, rfl⟩
  · exact read_eq_ok_iff.mpr (by decide)
  · rintro (⟨k, d, rest, hfield, hspace, hraw⟩ | ⟨k, d, init, hliteral, hspace, hraw⟩)
    · cases k with
      | and =>
        have htext : "AND".toList ++ ['=', 'O', 'R'] = "AND".toList ++ d :: rest := hraw
        cases (List.cons.inj (List.append_cancel_left htext)).1
        cases hspace
      | or => exact absurd hfield (by decide)
    · cases k with
      | and => exact absurd hliteral (by decide)
      | or =>
        have htext : "AND=".toList ++ "OR".toList = init ++ [d] ++ "OR".toList :=
          hraw.trans (List.append_cons ..)
        have hlast : some '=' = some d :=
          (congrArg List.getLast? (List.append_cancel_right htext)).trans List.getLast?_concat
        cases hlast
        cases hspace
  · exact read_eq_ok_iff.mpr (by decide)
  · rintro ⟨k, -, -, hfield, -⟩
    cases k with
    | and => exact absurd hfield (by decide)
    | or => exact absurd hfield (by decide)

end Rule

end Rulebook
