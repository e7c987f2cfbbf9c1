import Rulebook.Evaluate
import Rulebook.Proofs.BalanceFirst
import Rulebook.Proofs.ConditionGrammar
import Rulebook.Proofs.KeywordCondition
import Rulebook.Proofs.Spacing.Basic

/-!
# White space between words does not matter

Three notions of white space meet in the parser.  Trimming goes by the Unicode property, and so does
the white space around a comparator, but only the ASCII spaces delimit a keyword.  Two texts that
differ in their runs of spaces are treated alike by all three: a space is white space in either
sense, and a run of spaces is replaced by one that is not empty.

So the parser takes the same steps on both texts, and what it goes on with are again texts that
differ by spacing only.  Each step is a cut at a seam outside quotes that is not inside a run of
spaces: at the parentheses of a group, at a keyword, at the parts of a condition.  That one text has
no such cut follows from the other direction, since the relation is symmetric.  The results differ in
the texts that they quote and in nothing else.

* `Condition.withoutRaw`, `Tree.withoutRaw`, `RuleError.withoutRaw`: results without the texts of
  their conditions, with `Tree.evaluate_withoutRaw`.
* `Respaced.peelGroups`, `Respaced.find?_cases`, `Respaced.ofTrimmed?`: the steps.
* `Respaced.takeApart_cases`, `Respaced.parseLevels`: one level, and all of them.
* `parse_respaced`: whole rules.
-/

namespace Rulebook

open Text (isDelimiter isSpace)

/-! ## Results without the texts of their conditions -/

/-- The condition without the text it was read from. -/
def Condition.withoutRaw (c : Condition) : Condition := { c with raw := "" }

/-- The tree without the texts of its conditions. -/
def Tree.withoutRaw : Tree → Tree
  | leaf c => leaf c.withoutRaw
  | node k left right => node k left.withoutRaw right.withoutRaw

/-- The error without the text of the condition that it quotes, if it quotes one. -/
def RuleError.withoutRaw : RuleError → RuleError
  | .typeMismatch _ field value => .typeMismatch "" field value
  | e => e

namespace Condition

variable (c : Condition)

theorem checkText_withoutRaw (value : Scalar) :
    c.withoutRaw.checkText value = (c.checkText value).mapError RuleError.withoutRaw := by
  obtain ⟨field, comparator, literal, raw⟩ := c
  unfold checkText withoutRaw
  dsimp only
  split
  · rfl
  · rfl

theorem checkValue_withoutRaw (value : Scalar) :
    c.withoutRaw.checkValue value = (c.checkValue value).mapError RuleError.withoutRaw := by
  have hnumbers : c.withoutRaw.literal.numbers? value = c.literal.numbers? value := rfl
  unfold checkValue
  rw [hnumbers]
  rcases c.literal.numbers? value with _ | ⟨actual, expected⟩
  · exact c.checkText_withoutRaw value
  · rfl

theorem check_withoutRaw (r : Record) :
    c.withoutRaw.check r = (c.check r).mapError RuleError.withoutRaw := by
  have hfield : r.get? c.withoutRaw.field = r.get? c.field := rfl
  rcases hvalue : r.get? c.field with _ | value
  · rw [check_of_get?_eq_none hvalue, check_of_get?_eq_none (hfield.trans hvalue)]
    rfl
  · rw [check_of_get? hvalue, check_of_get? (hfield.trans hvalue)]
    exact c.checkValue_withoutRaw value

end Condition

/-- The texts of its conditions matter to a tree only where an error quotes them. -/
theorem Tree.evaluate_withoutRaw (t : Tree) (r : Record) :
    t.withoutRaw.evaluate r = (t.evaluate r).mapError RuleError.withoutRaw := by
  induction t with
  | leaf c => exact c.check_withoutRaw r
  | node k left right ihleft ihright =>
    rw [withoutRaw, evaluate_node, evaluate_node, ihleft, ihright]
    rcases left.evaluate r with e | b
    · cases k <;> rfl
    · cases k <;> cases b <;> rfl

namespace Rule

/-- Two trees that are the same without the texts of their conditions, or two errors of the same
kind. -/
inductive Alike : Except RuleError Tree → Except RuleError Tree → Prop where
  | ok {t t' : Tree} (h : t.withoutRaw = t'.withoutRaw) : Alike (.ok t) (.ok t')
  | error {e e' : RuleError} (h : e.kind = e'.kind) : Alike (.error e) (.error e')

/-- A node whose sides are alike is alike. -/
theorem Alike.bind_node {left left' right right' : Except RuleError Tree} (k : Connective)
    (hleft : Alike left left') (hright : Alike right right') :
    Alike (do let t ← left; let u ← right; return .node k t u)
      (do let t ← left'; let u ← right'; return .node k t u) := by
  cases hleft with
  | error h => exact .error h
  | ok h =>
    cases hright with
    | error h' => exact .error h'
    | ok h' =>
      refine .ok ?_
      rw [Tree.withoutRaw, Tree.withoutRaw, h, h']

variable {cs ds inside before after : List Char} {k : Connective} {c : Condition}

/-- A reader that finds something in the second text wherever it does so in the first one finds
nothing there if it finds nothing in the first one. -/
theorem Respaced.eq_none {α : Type} {read? : List Char → Option α}
    (hread : ∀ {cs ds x}, Respaced cs ds → read? cs = some x → ∃ y, read? ds = some y)
    (h : Respaced cs ds) (hcs : read? cs = none) : read? ds = none := by
  rw [Option.eq_none_iff_forall_ne_some]
  intro y hy
  obtain ⟨x, hx⟩ := hread h.symm hy
  rw [hcs] at hx
  cases hx

/-! ## Groups -/

theorem Respaced.groupInterior? (h : Respaced cs ds) (hcs : groupInterior? cs = some inside) :
    ∃ inside', Rule.groupInterior? ds = some inside' ∧ Respaced inside inside' := by
  obtain ⟨body, rfl, hbody, rfl⟩ := groupInterior?_eq_some_iff.mp hcs
  have hopen : QuotesClosed ['('] := .cons rfl .nil
  have hfirst : Seam ['('] (body ++ [')']) := Or.inl fun d hd => by cases hd; rfl
  have hlast : Seam body [')'] := Or.inr fun d hd => by cases hd; rfl
  rw [← List.singleton_append] at h
  obtain ⟨front, rest, rfl, hfront, hrest⟩ := h.cut hopen hfirst
  obtain ⟨body', back, rfl, hbody', hback⟩ := hrest.cut hbody.quotesClosed hlast
  rw [hfront.eq_of_notSpace (List.forall_mem_singleton.mpr rfl),
    hback.eq_of_notSpace (List.forall_mem_singleton.mpr rfl)]
  exact ⟨Text.trim body', groupInterior?_eq_some_iff.mpr ⟨body', rfl, hbody'.balanced hbody, rfl⟩,
    hbody'.trim hbody.quotesClosed⟩

/-- The same groups are peeled off. -/
theorem Respaced.peelGroups (h : Respaced cs ds) :
    Respaced (Rule.peelGroups cs) (Rule.peelGroups ds) := by
  fun_induction Rule.peelGroups cs generalizing ds with
  | case1 cs inside hgroup ih =>
    obtain ⟨inside', hgroup', hinside⟩ := h.groupInterior? hgroup
    rw [peelGroups_of_some hgroup']
    exact ih hinside
  | case2 cs hnone =>
    have hnone' : Rule.groupInterior? ds = none :=
      h.eq_none (fun h hgroup => (h.groupInterior? hgroup).imp fun _ => And.left) hnone
    rwa [peelGroups_of_none hnone']

/-! ## Keywords -/

/-- A place where a keyword counts has its like in the other text. -/
theorem Respaced.counts (h : Respaced cs ds) (hcs : Counts k.keyword.toList cs before after) :
    ∃ before' after', Counts k.keyword.toList ds before' after' ∧
      Respaced before before' ∧ Respaced after after' := by
  have hkeyword : ∀ d ∈ k.keyword.toList, isSpace d = false := fun d hd =>
    isSpace_eq_false_of_isBlank (marks_of_mem_keyword k hd).1
  have hfirst : Seam before (k.keyword.toList ++ after) := by
    refine Or.inr fun d hd => hkeyword d ?_
    rw [List.head?_append_of_ne_nil _ (keyword_ne_nil k)] at hd
    exact List.mem_of_mem_head? hd
  have hlast : Seam k.keyword.toList after :=
    Or.inl fun d hd => hkeyword d (List.mem_of_mem_getLast? hd)
  rw [← hcs.parts, List.append_assoc] at h
  obtain ⟨before', rest, rfl, hbefore, hrest⟩ := h.cut hcs.stands.unquoted hfirst
  obtain ⟨word, after', rfl, hword, hafter⟩ := hrest.cut (balanced_keyword k).quotesClosed hlast
  rw [hword.eq_of_notSpace hkeyword]
  have hspaces : ∀ d, isSpace d = true → isDelimiter d = true := fun d hd => by
    simp [isDelimiter, hd]
  refine ⟨before', after', ⟨List.append_assoc .., ?_, ?_, ?_⟩, hbefore, hafter⟩
  · rw [← hbefore.run_eq rfl, hcs.ground]
  · exact hbefore.last.forall (Or.inl hspaces) hcs.left
  · exact hafter.head.forall (Or.inl hspaces) hcs.right

theorem Respaced.free (h : Respaced cs ds) (hcs : Free k.keyword.toList cs) :
    Free k.keyword.toList ds := by
  intro before after hcounts
  obtain ⟨before', after', hcounts', -⟩ := h.symm.counts hcounts
  exact hcs before' after' hcounts'

/-- Neither text is split, or both are split at the same keyword and the sides are alike. -/
theorem Respaced.find?_cases (h : Respaced cs ds) :
    (Split.find? cs = none ∧ Split.find? ds = none) ∨
      ∃ split split', Split.find? cs = some split ∧ Split.find? ds = some split' ∧
        split'.connective = split.connective ∧ Respaced split.before split'.before ∧
        Respaced split.after split'.after := by
  rcases hfind : Split.find? cs with _ | split
  · have hfree := find?_eq_none_iff.mp hfind
    exact Or.inl ⟨rfl, find?_eq_none_iff.mpr fun k => h.free (hfree k)⟩
  · obtain ⟨hfirst, hand⟩ := find?_eq_some_iff.mp hfind
    obtain ⟨before', after', hcounts, hbefore, hafter⟩ := h.counts hfirst.toCounts
    have hfree := hbefore.free (hfirst.toCounts.countsFirst_iff.mp hfirst)
    have hfind' : Split.find? ds = some ⟨split.connective, before', after'⟩ :=
      find?_eq_some_iff.mpr
        ⟨hcounts.countsFirst_iff.mpr hfree, fun hor => h.free (hand hor)⟩
    exact Or.inr ⟨split, _, rfl, hfind', rfl, hbefore, hafter⟩

/-! ## Conditions -/

theorem isSpace_eq_false_of_isDelimiter {d : Char} (h : isDelimiter d = false) :
    isSpace d = false := by
  simp only [isDelimiter, Bool.or_eq_false_iff] at h
  exact h.1.1

theorem isSpace_eq_false_of_mem_symbol {symbol : Comparator} {d : Char}
    (h : d ∈ symbol.symbol.toList) : isSpace d = false := by
  have hany : symbol.symbol.toList.any isSpace = false := by cases symbol <;> decide
  simpa using List.any_eq_false.mp hany d h

/-- A literal has no spaces outside quotes. -/
theorem Respaced.eq_of_isLiteral {l : Literal} (h : Respaced cs ds) (hl : IsLiteral cs l) :
    ds = cs := by
  have hbare : ∀ {cs : List Char}, (∀ d ∈ cs, IsBareCharacter d) → ∀ d ∈ cs, isSpace d = false :=
    fun hall d hd => isSpace_eq_false_of_isBlank (hall d hd).1
  cases hl with
  | quoted hquote _ hinside => exact h.eq_of_quoted (by simpa [Text.isQuote] using hquote) hinside
  | number _ hall => exact h.eq_of_notSpace (hbare hall)
  | word _ hall => exact h.eq_of_notSpace (hbare hall)

/-- The parts of a condition are the same, save for the white space around the comparator. -/
theorem Respaced.ofTrimmed? (h : Respaced cs ds) (hc : Condition.ofTrimmed? cs = some c) :
    ∃ c', Condition.ofTrimmed? ds = some c' ∧ c'.withoutRaw = c.withoutRaw := by
  obtain ⟨p, rfl, rfl⟩ := Condition.Parts.exists_of_ofTrimmed? hc
  have hname : ∀ d ∈ p.first :: p.more, isSpace d = false := fun d hd =>
    isSpace_eq_false_of_isDelimiter (isDelimiter_eq_false_of_mem_name hd)
  rw [Condition.Parts.text] at h
  obtain ⟨name, rest, rfl, hname', hrest⟩ := h.cut
    (quotesClosed_of_isPlain p.isPlain_of_mem_name)
    (Or.inl fun d hd => hname d (List.mem_of_mem_getLast? hd))
  obtain ⟨gap, rest, rfl, hgap, hrest⟩ := hrest.cut
    (balanced_of_isBlank p.gap_isBlank).quotesClosed
    (Or.inr fun d hd => isSpace_eq_false_of_isBlank (p.comparator.head_symbol _ d hd).1)
  obtain ⟨symbol, rest, rfl, hsymbol, hrest⟩ := hrest.cut
    (quotesClosed_of_isPlain fun d hd => isPlain_of_mem_symbol hd)
    (Or.inl fun d hd => isSpace_eq_false_of_mem_symbol (List.mem_of_mem_getLast? hd))
  obtain ⟨gap', token, rfl, hgap', htoken⟩ := hrest.cut
    (balanced_of_isBlank p.gap'_isBlank).quotesClosed
    (Or.inr fun d hd => isSpace_eq_false_of_isBlank (p.isLiteral.head d hd).1)
  rw [hname'.eq_of_notSpace hname, hsymbol.eq_of_notSpace fun _ => isSpace_eq_false_of_mem_symbol,
    htoken.eq_of_isLiteral p.isLiteral]
  let q : Condition.Parts :=
    { p with
      gap := gap
      gap' := gap'
      gap_isBlank := hgap.blank p.gap_isBlank
      gap'_isBlank := hgap'.blank p.gap'_isBlank }
  exact ⟨q.condition, q.ofTrimmed?_text, rfl⟩

/-- Both texts are the same condition but for its text, or neither is a condition. -/
theorem Respaced.read (h : Respaced cs ds) (hcs : QuotesClosed cs) :
    Alike ((Condition.read cs).map Tree.leaf) ((Condition.read ds).map Tree.leaf) := by
  have htrim := h.trim hcs
  rcases hc : Condition.ofTrimmed? (Text.trim cs) with _ | c
  · have hnone : Condition.ofTrimmed? (Text.trim ds) = none :=
      htrim.eq_none (fun h hsome => (h.ofTrimmed? hsome).imp fun _ => And.left) hc
    rw [Condition.read, Condition.read, hc, hnone]
    exact .error rfl
  · obtain ⟨c', hc', hsame⟩ := htrim.ofTrimmed? hc
    rw [read_eq_ok_iff.mpr hc, read_eq_ok_iff.mpr hc']
    exact .ok (congrArg Tree.leaf hsame.symm)

/-! ## Levels -/

/-- A level has answers to both texts that are alike, or it leaves sides to the level below that
are alike. -/
theorem Respaced.takeApart_cases (h : Respaced cs ds) (hcs : Balanced cs) :
    (∃ result result', takeApart cs = .answer result ∧ takeApart ds = .answer result' ∧
        Alike result result') ∨
      ∃ k before after before' after', takeApart cs = .parts k before after ∧
        takeApart ds = .parts k before' after' ∧ Respaced before before' ∧
        Respaced after after' := by
  have hpeel := h.peelGroups
  have hbalanced := balanced_peelGroups hcs
  simp only [takeApart]
  by_cases hempty : Rule.peelGroups cs = []
  · rw [if_pos hempty, if_pos (hpeel.eq_nil_iff.mp hempty)]
    exact Or.inl ⟨_, _, rfl, rfl, .error rfl⟩
  · rw [if_neg hempty, if_neg (mt hpeel.eq_nil_iff.mpr hempty)]
    rcases hpeel.find?_cases with ⟨hnone, hnone'⟩ |
      ⟨split, ⟨k, before', after'⟩, hsome, hsome', rfl, hbefore, hafter⟩
    · rw [hnone, hnone']
      exact Or.inl ⟨_, _, rfl, rfl, hpeel.read hbalanced.quotesClosed⟩
    · obtain ⟨hleft, hright⟩ :=
        (find?_eq_some_iff.mp hsome).1.balanced_sides hbalanced
      have hbefore' := hbefore.trim hleft.quotesClosed
      have hafter' := hafter.trim hright.quotesClosed
      have hmissing : Text.trim split.before = [] ∨ Text.trim split.after = [] ↔
          Text.trim before' = [] ∨ Text.trim after' = [] :=
        or_congr hbefore'.eq_nil_iff hafter'.eq_nil_iff
      simp only [hsome, hsome']
      by_cases hside : Text.trim split.before = [] ∨ Text.trim split.after = []
      · rw [if_pos hside, if_pos (hmissing.mp hside)]
        exact Or.inl ⟨_, _, rfl, rfl, .error rfl⟩
      · rw [if_neg hside, if_neg (mt hmissing.mpr hside)]
        exact Or.inr ⟨_, _, _, _, _, rfl, rfl, hbefore', hafter'⟩

theorem Respaced.parseLevels (h : Respaced cs ds) (hcs : Balanced cs) (limit levels : Nat) :
    Alike (Rule.parseLevels limit levels cs) (Rule.parseLevels limit levels ds) := by
  induction levels generalizing cs ds with
  | zero => exact .error rfl
  | succ levels ih =>
    rcases h.takeApart_cases hcs with ⟨result, result', htake, htake', halike⟩ |
      ⟨k, before, after, before', after', htake, htake', hbefore, hafter⟩
    · rw [parseLevels_of_answer htake, parseLevels_of_answer htake']
      exact halike
    · obtain ⟨hleft, hright⟩ := balanced_of_takeApart hcs htake
      rw [parseLevels_of_parts htake, parseLevels_of_parts htake']
      exact (ih hbefore hleft).bind_node k (ih hafter hright)

/-! ## Rules -/

theorem exists_error_of_not_balanced {rule : String} (h : ¬ Balanced rule.toList)
    (maxDepth : Nat) : ∃ e, parse maxDepth rule = .error e ∧ e.kind = .parse := by
  obtain ⟨fault, text, hparse⟩ := reportsUnbalanced_parse_iff.mpr h
  exact ⟨_, hparse, rfl⟩

theorem alike_parse {rule rule' : String} (h : Respaced rule.toList rule'.toList)
    (maxDepth : Nat) : Alike (parse maxDepth rule) (parse maxDepth rule') := by
  by_cases hbalanced : Balanced rule.toList
  · have htrim := h.trim hbalanced.quotesClosed
    have hinside := balanced_trim_iff.mpr hbalanced
    by_cases hempty : Text.trim rule.toList = []
    · rw [parse, parse, hempty, htrim.eq_nil_iff.mp hempty]
      exact .error rfl
    · rw [parse_of_balanced hempty hinside,
        parse_of_balanced (mt htrim.eq_nil_iff.mpr hempty) (htrim.balanced hinside)]
      exact htrim.parseLevels hinside maxDepth maxDepth
  · have hbalanced' : ¬ Balanced rule'.toList := mt h.symm.balanced hbalanced
    obtain ⟨e, he, hkind⟩ := exists_error_of_not_balanced hbalanced maxDepth
    obtain ⟨e', he', hkind'⟩ := exists_error_of_not_balanced hbalanced' maxDepth
    rw [he, he']
    exact .error (hkind.trans hkind'.symm)

/-- Two rules that differ only in their runs of spaces outside quotes have, under every limit, trees
that are the same but for the texts of their conditions, or errors of the same kind.  The trees have
the same answers on all records, and their errors differ at most in the text that they quote. -/
theorem parse_respaced {rule rule' : String} (h : Respaced rule.toList rule'.toList)
    (maxDepth : Nat) :
    (∃ t t', parse maxDepth rule = .ok t ∧ parse maxDepth rule' = .ok t' ∧
        t.withoutRaw = t'.withoutRaw ∧
        ∀ record, (t.evaluate record).mapError RuleError.withoutRaw =
          (t'.evaluate record).mapError RuleError.withoutRaw) ∨
      ∃ e e', parse maxDepth rule = .error e ∧ parse maxDepth rule' = .error e' ∧
        e.kind = e'.kind := by
  have halike := alike_parse h maxDepth
  generalize parse maxDepth rule = result at halike
  generalize parse maxDepth rule' = result' at halike
  cases halike with
  | @ok t t' hsame =>
    refine Or.inl ⟨t, t', rfl, rfl, hsame, fun record => ?_⟩
    rw [← t.evaluate_withoutRaw, ← t'.evaluate_withoutRaw, hsame]
  | error hkind => exact Or.inr ⟨_, _, rfl, rfl, hkind⟩

/-- Other spaces after a comparator and around a keyword give another tree, since the texts of the
conditions differ, but the same answers.  The spaces in quotes are kept. -/
theorem parse_respaced_quoted :
    Respaced "a= 'x  y' AND b>1".toList "a=\t\n'x  y'\r\nAND  b>1".toList ∧
      ∃ t t', parse 2 "a= 'x  y' AND b>1" = .ok t ∧
        parse 2 "a=\t\n'x  y'\r\nAND  b>1" = .ok t' ∧ t ≠ t' ∧
        ∀ record, (t.evaluate record).mapError RuleError.withoutRaw =
          (t'.evaluate record).mapError RuleError.withoutRaw := by
  have hspaces : ∀ w : List Char, w ≠ [] → w.all isSpace = true → Spaces w := fun w hne hall =>
    ⟨hne, List.all_eq_true.mp hall⟩
  have hinside : '\x27' ∉ ['x', ' ', ' ', 'y'] := by decide
  have htail : Respaced "AND b>1".toList "AND  b>1".toList :=
    .char rfl rfl (.char rfl rfl (.char rfl rfl (.spaces (hspaces [' '] nofun rfl)
      (hspaces [' ', ' '] nofun rfl) (.char rfl rfl (.char rfl rfl (.char rfl rfl .nil))))))
  have hrespaced : Respaced "a= 'x  y' AND b>1".toList "a=\t\n'x  y'\r\nAND  b>1".toList :=
    .char rfl rfl (.char rfl rfl (.spaces (hspaces [' '] nofun rfl)
      (hspaces ['\t', '\n'] nofun rfl) (.quoted rfl hinside
        (.spaces (hspaces [' '] nofun rfl) (hspaces ['\r', '\n'] nofun rfl) htail))))
  refine ⟨hrespaced, ?_⟩
  rcases parse_respaced hrespaced 2 with ⟨t, t', ht, ht', -, hrecords⟩ | ⟨e, -, he, -⟩
  · refine ⟨t, t', ht, ht', ?_, hrecords⟩
    rintro rfl
    have hparse : parse 2 "a= 'x  y' AND b>1" ≠ parse 2 "a=\t\n'x  y'\r\nAND  b>1" := by
      decide +kernel
    exact hparse (ht.trans ht'.symm)
  · have hok : (parse 2 "a= 'x  y' AND b>1").toBool = true := by decide +kernel
    rw [he] at hok
    cases hok

end Rule

end Rulebook
