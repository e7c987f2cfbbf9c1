import Rulebook.Proofs.BalanceFault
import Rulebook.Proofs.Grammar.Parsing
import Rulebook.Proofs.ParserLevel

/-!
# Balance is decided first

A rule is checked for balance before anything else is looked at, so whether a rule is refused for
its balance, and with which fault, is a property of its text and not of the limit or of what stands
in it.  The check is not repeated at the levels below.  It need not be, since balance is inherited:
peeling off a group leaves its inside, which is balanced, a keyword counts on ground level only, so
the text before it ends with nothing open, and blanks open and close nothing.

To say which texts the parser takes on, `parseNoting` is the parser with a list of them; it gives
the same result (`snd_parseNoting`).

* `parse_eq_unbalanced_iff`: the fault that a rule is refused for is the fault of its text.
* `balanced_of_takeApart`, `balanced_of_mem_noted`: one level, and all of them.
* `not_balanced_insert`, `balanced_of_quoted`: one parenthesis more or less, and another text in
  quotes.
* `parse_balance`: all of this on a rule.
-/

namespace Rulebook

/-- The result is a refusal because parentheses or quotes do not balance. -/
def ReportsUnbalanced (result : Except RuleError Tree) : Prop :=
  ∃ fault text, result = .error (.parse (.unbalanced fault text))

/-! ## Other texts with the same balance, and with another -/

section Changes

open Text (isQuote)

variable {xs ys inside inside' : List Char} {q : Char}

/-- A parenthesis outside quotes shifts the depth of everything after it. -/
theorem not_balanced_insert (hxs : QuotesClosed xs) {p : Char} (hp : p = '(' ∨ p = ')')
    (h : Balanced (xs ++ ys)) : ¬ Balanced (xs ++ p :: ys) := by
  intro hinsert
  have hquote := quotesClosed_iff.mp hxs
  obtain ⟨k, hk, hstep⟩ : ∃ k : Int, k ≠ 0 ∧
      (Scan.start.run xs).step p = (Scan.start.run xs).raise k := by
    rcases hp with rfl | rfl
    · exact ⟨1, by decide, by simp [Scan.step, Scan.raise, hquote, isQuote]⟩
    · exact ⟨-1, by decide, by simp [Scan.step, Scan.raise, hquote, isQuote, Int.sub_eq_add_neg]⟩
  have hend := hinsert.closed
  rw [Scan.run_append, Scan.run_cons, hstep, Scan.run_raise, ← Scan.run_append, h.closed] at hend
  have hdepth := congrArg Scan.depth hend
  simp only [Scan.depth_raise, Scan.start] at hdepth
  omega

/-- The prefixes of a text of two parts are those of the first part, and the first part with those
of the second. -/
theorem forall_prefix_append_iff {P : List Char → Prop} :
    (∀ p, p <+: xs ++ ys → P p) ↔ (∀ p, p <+: xs → P p) ∧ ∀ p, p <+: ys → P (xs ++ p) := by
  constructor
  · intro h
    exact ⟨fun p hp => h p (hp.trans (List.prefix_append xs ys)),
      fun p hp => h _ ((List.prefix_append_right_inj xs).mpr hp)⟩
  · rintro ⟨hxs, hys⟩ p hp
    rcases List.prefix_or_prefix_of_prefix hp (List.prefix_append xs ys) with hpre | ⟨tail, rfl⟩
    · exact hxs p hpre
    · exact hys tail ((List.prefix_append_right_inj xs).mp hp)

/-- What stands in quotes does not matter, as long as it does not end them. -/
theorem balanced_of_quoted (hxs : QuotesClosed xs) (hq : isQuote q = true) (hinside : q ∉ inside)
    (hinside' : q ∉ inside') (h : Balanced (xs ++ q :: (inside ++ ys))) :
    Balanced (xs ++ q :: (inside' ++ ys)) := by
  -- after the quote and any text that does not end it, the scan is this one
  have hopen : ∀ {w : List Char}, q ∉ w →
      Scan.start.run (xs ++ q :: w) = ⟨(Scan.start.run xs).depth, some q⟩ := fun hw => by
    rw [Scan.run_append, Scan.run_cons, Scan.step_quote (quotesClosed_iff.mp hxs) hq,
      Scan.run_inside hw]
  have hrun : ∀ zs, Scan.start.run (xs ++ q :: inside' ++ zs) =
      Scan.start.run (xs ++ q :: inside ++ zs) := fun zs => by
    rw [Scan.run_append, hopen hinside', ← hopen hinside, ← Scan.run_append]
  have hparts : ∀ w, xs ++ q :: (w ++ ys) = xs ++ q :: w ++ ys := fun w => by
    rw [List.append_assoc, List.cons_append]
  rw [hparts] at h ⊢
  have hnonneg : ∀ p, p <+: xs ++ q :: inside ++ ys → 0 ≤ (Scan.start.run p).depth := by
    rintro p ⟨after, heq⟩
    exact h.holds p after heq
  obtain ⟨hfirst, hrest⟩ := forall_prefix_append_iff.mp hnonneg
  have hall : ∀ p, p <+: xs ++ q :: inside' ++ ys → 0 ≤ (Scan.start.run p).depth := by
    refine forall_prefix_append_iff.mpr ⟨forall_prefix_append_iff.mpr ⟨?_, ?_⟩, fun p hp => ?_⟩
    · exact (forall_prefix_append_iff.mp hfirst).1
    · intro p hp
      rcases List.prefix_cons_iff.mp hp with rfl | ⟨w, rfl, hw⟩
      · rw [List.append_nil]
        exact (forall_prefix_append_iff.mp hfirst).1 xs List.prefix_rfl
      · rw [hopen fun hmem => hinside' (hw.subset hmem)]
        exact (forall_prefix_append_iff.mp hfirst).1 xs List.prefix_rfl
    · rw [hrun]
      exact hrest p hp
  exact ⟨fun before after heq => hall before ⟨after, heq⟩, (hrun ys).trans h.closed⟩

end Changes

namespace Rule

open Text (isQuote trim)

variable {cs before after : List Char} {k : Connective} {limit levels : Nat}

/-! ## Balance is inherited -/

/-- What is left of a balanced text without its outer groups is balanced. -/
theorem balanced_peelGroups (h : Balanced cs) : Balanced (peelGroups cs) := by
  fun_induction peelGroups cs with
  | case1 cs inside hgroup ih =>
    obtain ⟨body, -, hbody, rfl⟩ := groupInterior?_eq_some_iff.mp hgroup
    exact ih (balanced_trim_iff.mpr hbody)
  | case2 cs hnone => exact h

/-- Both sides of a place where a keyword counts are balanced. -/
theorem Counts.balanced_sides (h : Counts k.keyword.toList cs before after) (hcs : Balanced cs) :
    Balanced before ∧ Balanced after := by
  rw [← h.parts, List.append_assoc] at hcs
  obtain ⟨hbefore, hrest⟩ := hcs.cut (Scan.isGround_iff.mp h.ground)
  exact ⟨hbefore, (hrest.cut (balanced_keyword k).closed).2⟩

/-- The texts that a level leaves to the level below are balanced if its own text is. -/
theorem balanced_of_takeApart (hcs : Balanced cs) (h : takeApart cs = .parts k before after) :
    Balanced before ∧ Balanced after := by
  obtain ⟨split, hfind, rfl, ⟨rfl, -⟩, rfl, -⟩ := takeApart_eq_parts_iff.mp h
  obtain ⟨hfirst, -⟩ := find?_eq_some_iff.mp hfind
  obtain ⟨hbefore, hafter⟩ := hfirst.balanced_sides (balanced_peelGroups hcs)
  exact ⟨balanced_trim_iff.mpr hbefore, balanced_trim_iff.mpr hafter⟩

/-- The parser, with the texts that it takes on, each before those that it leaves to the level
below. -/
def parseNoting (limit : Nat) :
    (levels : Nat) → List Char → List (List Char) × Except RuleError Tree
  | 0, cs => ([cs], .error (.limit (.nesting limit)))
  | levels + 1, cs =>
    match takeApart cs with
    | .answer result => ([cs], result)
    | .parts k before after =>
      let left := parseNoting limit levels before
      match left.2 with
      | .error e => (cs :: left.1, .error e)
      | .ok tree =>
        let right := parseNoting limit levels after
        (cs :: (left.1 ++ right.1), right.2.map (Tree.node k tree))

/-- Noting the texts does not change the result. -/
theorem snd_parseNoting (limit levels : Nat) (cs : List Char) :
    (parseNoting limit levels cs).2 = parseLevels limit levels cs := by
  induction levels generalizing cs with
  | zero => rfl
  | succ levels ih =>
    rcases htake : takeApart cs with result | ⟨k, before, after⟩
    · rw [parseLevels_of_answer htake, parseNoting, htake]
    · rw [parseLevels_of_parts htake, parseNoting, htake, ← ih before, ← ih after]
      dsimp only
      split
      · next e hleft =>
        rw [hleft]
        rfl
      · next tree hleft =>
        rw [hleft]
        cases (parseNoting limit levels after).2 <;> rfl

/-- All texts that the parser takes on are balanced if the first one is. -/
theorem balanced_of_mem_noted (hcs : Balanced cs) :
    ∀ part ∈ (parseNoting limit levels cs).1, Balanced part := by
  induction levels generalizing cs with
  | zero => exact List.forall_mem_singleton.mpr hcs
  | succ levels ih =>
    intro part hpart
    rw [parseNoting] at hpart
    rcases htake : takeApart cs with result | ⟨k, before, after⟩
    · rw [htake] at hpart
      rw [List.mem_singleton.mp hpart]
      exact hcs
    · obtain ⟨hbefore, hafter⟩ := balanced_of_takeApart hcs htake
      rw [htake] at hpart
      dsimp only at hpart
      split at hpart
      · rcases List.mem_cons.mp hpart with rfl | hleft
        · exact hcs
        · exact ih hbefore part hleft
      · rcases List.mem_cons.mp hpart with rfl | hrest
        · exact hcs
        · rcases List.mem_append.mp hrest with hleft | hright
          · exact ih hbefore part hleft
          · exact ih hafter part hright

/-! ## Whole rules -/

/-- No level complains about the balance of its text. -/
theorem not_reportsUnbalanced_parseLevels (limit levels : Nat) (cs : List Char) :
    ¬ ReportsUnbalanced (parseLevels limit levels cs) := by
  induction levels generalizing cs with
  | zero =>
    rintro ⟨fault, text, hresult⟩
    cases hresult
  | succ levels ih =>
    rintro ⟨fault, text, hresult⟩
    rcases htake : takeApart cs with result | ⟨k, before, after⟩
    · rw [parseLevels_of_answer htake] at hresult
      exact not_unbalanced_of_takeApart htake hresult
    · rw [parseLevels_of_parts htake] at hresult
      rcases hleft : parseLevels limit levels before with e | left
      · rw [hleft] at hresult
        exact ih before ⟨fault, text, hleft.trans hresult⟩
      · rcases hright : parseLevels limit levels after with e | right
        · rw [hleft, hright] at hresult
          exact ih after ⟨fault, text, hright.trans hresult⟩
        · rw [hleft, hright] at hresult
          cases hresult

/-- A rule without blanks at its ends that is balanced is left to the levels. -/
theorem parse_of_balanced {rule : String} (hne : trim rule.toList ≠ [])
    (h : Balanced (trim rule.toList)) (maxDepth : Nat) :
    parse maxDepth rule = parseLevels maxDepth maxDepth (trim rule.toList) := by
  rw [parse, parseTrimmed, if_neg hne, h.balanceFault?_eq_none]

/-- The fault that a rule is refused for is the fault of its trimmed text, which the refusal
quotes. -/
theorem parse_eq_unbalanced_iff {rule text : String} {maxDepth : Nat} {fault : BalanceFault} :
    parse maxDepth rule = .error (.parse (.unbalanced fault text)) ↔
      fault.IsOf (trim rule.toList) ∧ text = String.ofList (trim rule.toList) := by
  rw [← balanceFault?_eq_some_iff, parse, parseTrimmed]
  by_cases hempty : trim rule.toList = []
  · have hnone : balanceFault? ([] : List Char) = none := rfl
    rw [if_pos hempty, hempty, hnone]
    simp
  · rw [if_neg hempty]
    rcases balanceFault? (trim rule.toList) with _ | found
    · refine iff_of_false (fun h => ?_) (by simp)
      exact not_reportsUnbalanced_parseLevels _ _ _ ⟨fault, text, h⟩
    · simp [eq_comm]

/-- A rule is refused for its balance exactly if its text is not balanced. -/
theorem reportsUnbalanced_parse_iff {rule : String} {maxDepth : Nat} :
    ReportsUnbalanced (parse maxDepth rule) ↔ ¬ Balanced rule.toList := by
  rw [← balanced_trim_iff, ← isBalanced_iff, isBalanced, Option.isNone_iff_eq_none,
    ← ne_eq, Option.ne_none_iff_exists']
  constructor
  · rintro ⟨fault, text, h⟩
    exact ⟨fault, balanceFault?_eq_some_iff.mpr (parse_eq_unbalanced_iff.mp h).1⟩
  · rintro ⟨fault, h⟩
    exact ⟨fault, _, parse_eq_unbalanced_iff.mpr ⟨balanceFault?_eq_some_iff.mp h, rfl⟩⟩

/-- Whether a rule is refused for its balance does not depend on the limit, nor on anything else
that may be wrong with it: it is refused exactly if its trimmed text is not balanced, for the fault
of this text.  An unmatched parenthesis is reported exactly if some prefix closes more than it
opens.  If the rule is balanced, all texts that the parser takes on below are balanced too.  One
parenthesis more or less outside quotes makes a balanced rule one that is not, and what stands in
quotes does not matter as long as it does not end them. -/
theorem parse_balance (rule : String) (maxDepth : Nat) :
    let cs := trim rule.toList
    let isRefusedFor := fun fault =>
      parse maxDepth rule = .error (.parse (.unbalanced fault (String.ofList cs)))
    (ReportsUnbalanced (parse maxDepth rule) ↔ ¬ Matched cs) ∧
      (∀ fault, isRefusedFor fault ↔ fault.IsOf cs) ∧
      ((∃ offset, isRefusedFor (.unmatchedClose offset)) ↔ ¬ NeverOvercloses cs) ∧
      (cs ≠ [] → Matched cs →
        parse maxDepth rule = (parseNoting maxDepth maxDepth cs).2 ∧
          ∀ part ∈ (parseNoting maxDepth maxDepth cs).1, Matched part) ∧
      (∀ xs ys, rule.toList = xs ++ ys → QuotesClosed xs → ∀ p, p = '(' ∨ p = ')' →
        ReportsUnbalanced (parse maxDepth rule) ∨
          ReportsUnbalanced (parse maxDepth (String.ofList (xs ++ p :: ys)))) ∧
      ∀ xs q inside inside' ys, rule.toList = xs ++ q :: (inside ++ ys) → QuotesClosed xs →
        isQuote q = true → q ∉ inside → q ∉ inside' →
        (ReportsUnbalanced (parse maxDepth rule) ↔
          ReportsUnbalanced (parse maxDepth (String.ofList (xs ++ q :: (inside' ++ ys))))) := by
  intro cs isRefusedFor
  have hfault : ∀ fault, isRefusedFor fault ↔ fault.IsOf cs := fun fault =>
    parse_eq_unbalanced_iff.trans (and_iff_left rfl)
  refine ⟨?_, hfault, ?_, fun hne hmatched => ⟨?_, ?_⟩, ?_, ?_⟩
  · rw [reportsUnbalanced_parse_iff, matched_iff, balanced_trim_iff]
  · constructor
    · rintro ⟨offset, h⟩
      obtain ⟨before, hfirst, -⟩ := (hfault _).mp h
      exact hfirst.not_neverOvercloses
    · intro hover
      rcases neverOvercloses_or_exists_firstUnmatched cs with hnever | ⟨before, hfirst⟩
      · exact absurd hnever hover
      · exact ⟨_, (hfault _).mpr ⟨before, hfirst, rfl⟩⟩
  · rw [snd_parseNoting]
    exact parse_of_balanced hne (matched_iff.mp hmatched) maxDepth
  · intro part hpart
    exact matched_iff.mpr (balanced_of_mem_noted (matched_iff.mp hmatched) part hpart)
  · intro xs ys hrule hxs p hp
    rw [reportsUnbalanced_parse_iff, reportsUnbalanced_parse_iff, hrule, String.toList_ofList,
      ← imp_iff_not_or]
    exact not_balanced_insert hxs hp
  · intro xs q inside inside' ys hrule hxs hq hinside hinside'
    rw [reportsUnbalanced_parse_iff, reportsUnbalanced_parse_iff, hrule, String.toList_ofList]
    exact not_congr ⟨balanced_of_quoted hxs hq hinside hinside',
      balanced_of_quoted hxs hq hinside' hinside⟩

/-- A parenthesis in quotes matches nothing, and the place of an unmatched one is counted in bytes;
no limit is too low for this refusal.  A group that is balanced has balanced parts, and is not
balanced any more with one parenthesis more after it. -/
theorem parse_balance_quoted :
    parse 0 " é='(' ) " = .error (.parse (.unbalanced (.unmatchedClose 7) "é='(' )")) ∧
      (∀ part ∈ (parseNoting 2 2 "(a='(' OR b)".toList).1, Matched part) ∧
      ReportsUnbalanced (parse 2 "(a='(' OR b))") ∧
      ¬ ReportsUnbalanced (parse 2 "(a=')(' OR b)") := by
  have hbalanced : Balanced "(a='(' OR b)".toList := isBalanced_iff.mp (by decide)
  have hnot : ¬ ReportsUnbalanced (parse 2 "(a='(' OR b)") := fun h =>
    reportsUnbalanced_parse_iff.mp h hbalanced
  obtain ⟨-, -, -, hparts, hinsert, hquoted⟩ := parse_balance "(a='(' OR b)" 2
  refine ⟨?_, ?_, ?_, ?_⟩
  · have hfault : (BalanceFault.unmatchedClose 7).IsOf (trim " é='(' ) ".toList) :=
      balanceFault?_eq_some_iff.mp (by decide)
    exact ((parse_balance " é='(' ) " 0).2.1 _).mpr hfault
  · exact (hparts (by decide) (matched_iff.mpr hbalanced)).2
  · have hclosed : QuotesClosed "(a='(' OR b)".toList := quotesClosed_iff.mpr (by decide)
    rcases hinsert _ [] (List.append_nil _).symm hclosed ')' (Or.inr rfl) with h | h
    · exact absurd h hnot
    · exact h
  · have hclosed : QuotesClosed "(a=".toList := quotesClosed_iff.mpr (by decide)
    have hsame := hquoted "(a=".toList '\x27' ['('] [')', '('] "' OR b)".toList rfl hclosed rfl
      (by decide) (by decide)
    exact fun h => hnot (hsame.mpr h)

end Rule

end Rulebook
