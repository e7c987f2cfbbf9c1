import Rulebook.Proofs.OuterGroups

/-!
# Which parentheses are peeled off

Peeling never looks for the partner of a parenthesis.  It takes the first and the last character off
and asks whether what is left is balanced on its own.  This file says that the question is the right
one.  The partner of the parenthesis that a text starts with is the first place at which, outside
quotes, as many parentheses are closed as opened (`Partner`); a balanced text has exactly one.  In
`(a) AND (b)` it stands before `AND`, and so the text between the outermost parentheses closes more
than it opens.  If the partner is the last character, then at every place before it one parenthesis
more is open than in the text between the two, which is therefore balanced.

One round of peeling is then a statement on partners (`groupInterior?_eq_some_iff_partner`), and
what several rounds do follows by induction on them (`Rounds`).

* `exists_partner`, `Partner.unique`: the partner of the first parenthesis.
* `Partner.balanced`: what stands between the two is balanced.
* `peelGroups_enclosing`: the rounds of peeling, and what is left after the last one.
-/

namespace Rulebook.Rule

open Text (trim)

/-- The closing parenthesis after `before` is the partner of the one that the text starts with.
Outside quotes as many parentheses are closed as opened up to it, and nowhere earlier. -/
structure Partner (cs before after : List Char) : Prop where
  parts : '(' :: (before ++ ')' :: after) = cs
  level : openings ('(' :: (before ++ [')'])) = closings ('(' :: (before ++ [')']))
  first : ∀ p, p <+: '(' :: before → p ≠ [] → openings p ≠ closings p

/-- So many rounds of peeling make the second text of the first one. -/
inductive Rounds : Nat → List Char → List Char → Prop where
  | stop (cs : List Char) : Rounds 0 cs cs
  | round {n : Nat} {cs inside ds : List Char} (hround : groupInterior? cs = some inside)
      (h : Rounds n inside ds) : Rounds (n + 1) cs ds

variable {cs ds rest before after before' after' inside w w' : List Char} {n : Nat}

/-! ## Partners -/

theorem Partner.prefix (h : Partner cs before after) : '(' :: (before ++ [')']) <+: cs :=
  ⟨after, by rw [← h.parts, List.cons_append, List.append_assoc, List.singleton_append]⟩

theorem Partner.prefix_open (h : Partner cs before after) : '(' :: before <+: cs :=
  ⟨')' :: after, h.parts⟩

/-- Before the partner at least the first parenthesis is open. -/
theorem Partner.one_le_depth (h : Partner cs before after) (hcs : Balanced cs) {p : List Char}
    (hp : p <+: '(' :: before) (hne : p ≠ []) : 1 ≤ (Scan.start.run p).depth := by
  obtain ⟨more, hmore⟩ := hp.trans h.prefix_open
  have hnonneg := hcs.holds p more hmore
  have hzero := mt depth_run_eq_zero_iff.mp (h.first p hp hne)
  omega

/-- What stands between the first parenthesis and its partner is balanced. -/
theorem Partner.balanced (h : Partner cs before after) (hcs : Balanced cs) : Balanced before := by
  have hdepth : ∀ p, p <+: before → 0 ≤ (Scan.start.run p).depth := by
    intro p hp
    have hone := h.one_le_depth hcs ((List.prefix_cons_inj '(').mpr hp) (List.cons_ne_nil _ _)
    rw [run_open_cons, Scan.depth_raise] at hone
    omega
  have hlast := depth_run_eq_zero_iff.mpr h.level
  have hone := h.one_le_depth hcs List.prefix_rfl (List.cons_ne_nil _ _)
  rw [← List.cons_append, Scan.run_append, Scan.run_cons, Scan.run_nil] at hlast
  obtain ⟨-, hquote, hstep⟩ := Scan.closes_of_depth_step_lt (by rw [hlast]; exact hone)
  rw [run_open_cons] at hquote hstep hlast
  refine ⟨fun p more heq => hdepth p ⟨more, heq⟩, ?_⟩
  rw [Scan.depth_raise] at hstep
  rw [Scan.quote_raise] at hquote
  refine Scan.isGround_iff.mp ?_
  have hground : (Scan.start.run before).depth = 0 := by omega
  simp [Scan.isGround, hquote, hground]

/-- A balanced text that starts with a parenthesis has a partner for it. -/
theorem exists_partner (hcs : Balanced ('(' :: rest)) :
    ∃ before after, Partner ('(' :: rest) before after := by
  have hopen : openings ('(' :: []) ≠ closings ('(' :: []) :=
    mt depth_run_eq_zero_iff.mpr (by decide)
  rcases exists_first_prefix (P := fun p => openings ('(' :: p) ≠ closings ('(' :: p)) hopen rest
    with hall | ⟨before, c, after, rfl, hfirst, hlevel⟩
  · refine absurd (depth_run_eq_zero_iff.mp ?_) (hall rest List.prefix_rfl)
    rw [hcs.closed]
    rfl
  · have hlevel := not_ne_iff.mp hlevel
    have hclose : c = ')' := by
      have hnonneg := hcs.holds ('(' :: before) (c :: after) (List.cons_append ..)
      have hopened := mt depth_run_eq_zero_iff.mp (hfirst before List.prefix_rfl)
      have hlast := depth_run_eq_zero_iff.mpr hlevel
      rw [← List.cons_append, Scan.run_append, Scan.run_cons, Scan.run_nil] at hlast
      exact (Scan.closes_of_depth_step_lt (s := Scan.start.run ('(' :: before)) (by omega)).1
    subst hclose
    refine ⟨before, after, rfl, hlevel, fun p hp hne => ?_⟩
    rcases List.prefix_cons_iff.mp hp with rfl | ⟨tail, rfl, htail⟩
    · exact absurd rfl hne
    · exact hfirst tail htail

/-- No partner stands before another one. -/
theorem Partner.length_le (h : Partner cs before after) (h' : Partner cs before' after') :
    before.length ≤ before'.length := by
  by_contra hlt
  have hpre : '(' :: (before' ++ [')']) <+: '(' :: before := by
    refine List.prefix_of_prefix_length_le h'.prefix h.prefix_open ?_
    simp only [List.length_cons, List.length_append, List.length_nil]
    omega
  exact h.first _ hpre (List.cons_ne_nil _ _) h'.level

/-- The first parenthesis has one partner at most. -/
theorem Partner.unique (h : Partner cs before after) (h' : Partner cs before' after') :
    before = before' ∧ after = after' := by
  have hparts := (List.cons.inj (h.parts.trans h'.parts.symm)).2
  obtain ⟨hbefore, hafter⟩ :=
    List.append_inj hparts (Nat.le_antisymm (h.length_le h') (h'.length_le h))
  exact ⟨hbefore, (List.cons.inj hafter).2⟩

/-- Where a balanced text stands between two parentheses, these are partners. -/
theorem partner_of_balanced (h : Balanced before) (after : List Char) :
    Partner ('(' :: (before ++ ')' :: after)) before after where
  parts := rfl
  level := by
    rw [← depth_run_eq_zero_iff, h.group.closed]
    rfl
  first p hp hne := by
    rcases List.prefix_cons_iff.mp hp with rfl | ⟨tail, rfl, more, rfl⟩
    · exact absurd rfl hne
    · have hone := h.one_le_depth
      exact mt depth_run_eq_zero_iff.mpr (by omega)

/-! ## Rounds -/

/-- A round takes the first and the last character off a balanced text, and then the blanks at the
ends, exactly if the last character is the partner of the first one. -/
theorem groupInterior?_eq_some_iff_partner (hcs : Balanced cs) :
    groupInterior? cs = some inside ↔ ∃ before, Partner cs before [] ∧ trim before = inside := by
  rw [groupInterior?_eq_some_iff]
  constructor
  · rintro ⟨before, rfl, hbefore, hinside⟩
    exact ⟨before, partner_of_balanced hbefore [], hinside⟩
  · rintro ⟨before, hpartner, hinside⟩
    exact ⟨before, hpartner.parts.symm, hpartner.balanced hcs, hinside⟩

/-- What is balanced and has no blanks at its ends is so after any number of rounds. -/
theorem Rounds.preserves (h : Rounds n cs ds) (hcs : Balanced cs) (htrim : trim cs = cs) :
    Balanced ds ∧ trim ds = ds := by
  induction h with
  | stop cs => exact ⟨hcs, htrim⟩
  | round hround _ ih =>
    obtain ⟨before, -, hbefore, rfl⟩ := groupInterior?_eq_some_iff.mp hround
    exact ih (balanced_trim_iff.mpr hbefore) (Text.trim_trim before)

/-- Peeling goes on round by round until it stops. -/
theorem exists_rounds_peelGroups (cs : List Char) : ∃ n, Rounds n cs (peelGroups cs) := by
  fun_induction peelGroups cs with
  | case1 cs inside hround ih =>
    obtain ⟨n, hn⟩ := ih
    exact ⟨n + 1, .round hround hn⟩
  | case2 cs hnone => exact ⟨0, .stop cs⟩

/-- Blanks around a text in pairs are blanks around the outermost pair. -/
theorem Wraps.append_blanks (h : Wraps cs n ds) (hw : Blank w) (hw' : Blank w') :
    Wraps cs n (w ++ ds ++ w') := by
  cases h with
  | @blanks v v' hv hv' =>
    have hparts : w ++ (v ++ cs ++ v') ++ w' = (w ++ v) ++ cs ++ (v' ++ w') := by
      simp only [List.append_assoc]
    rw [hparts]
    exact .blanks (hw.append hv) (hv'.append hw')
  | @pair n v v' es hv h hv' =>
    have hparts : w ++ (v ++ '(' :: (es ++ [')']) ++ v') ++ w' =
        (w ++ v) ++ '(' :: (es ++ [')']) ++ (v' ++ w') := by
      simp only [List.append_assoc]
    rw [hparts]
    exact .pair (hw.append hv) h (hv'.append hw')

/-- Each round takes off one pair of parentheses, with the blanks inside it. -/
theorem Rounds.wraps (h : Rounds n cs ds) : Wraps ds n cs := by
  have hnil : Blank [] := fun c hc => absurd hc List.not_mem_nil
  induction h with
  | stop cs =>
    have hwraps : Wraps cs 0 ([] ++ cs ++ []) := .blanks hnil hnil
    rwa [List.nil_append, List.append_nil] at hwraps
  | round hround _ ih =>
    obtain ⟨before, rfl, -, rfl⟩ := groupInterior?_eq_some_iff.mp hround
    obtain ⟨w, w', heq, hw, hw'⟩ := Text.exists_eq_append_trim before
    have hwraps := ih.append_blanks hw hw'
    rw [← heq] at hwraps
    simpa using Wraps.pair hnil hwraps hnil

/-- Pairs around a balanced text come off again, and so does whatever comes off the text. -/
theorem Wraps.peelGroups_eq (h : Wraps cs n ds) (hcs : Balanced cs) :
    Balanced ds ∧ peelGroups (trim ds) = peelGroups (trim cs) := by
  induction h with
  | blanks hw hw' =>
    exact ⟨((balanced_of_isBlank hw).append hcs).append (balanced_of_isBlank hw'),
      by rw [trim_append_blanks hw hw']⟩
  | @pair n w w' ds hw _ hw' ih =>
    obtain ⟨hds, hpeel⟩ := ih
    refine ⟨((balanced_of_isBlank hw).append hds.group).append (balanced_of_isBlank hw'), ?_⟩
    rw [(tight_group ds).trim_append hw hw', peelGroups_group hds, hpeel]

/-- Only pairs with nothing but blanks in them come off without a remainder. -/
theorem peelGroups_eq_nil_iff (htrim : trim cs = cs) :
    peelGroups cs = [] ↔ cs = [] ∨ ∃ n, Wraps [] (n + 1) cs := by
  constructor
  · intro hnil
    obtain ⟨n, hn⟩ := exists_rounds_peelGroups cs
    have hwraps := hn.wraps
    rw [hnil] at hwraps
    cases hwraps with
    | @blanks w w' hw hw' =>
      refine Or.inl ?_
      rw [← htrim, List.append_nil]
      exact trim_eq_nil_of_blank (hw.append hw')
    | pair hw h hw' => exact Or.inr ⟨_, .pair hw h hw'⟩
  · rintro (rfl | ⟨n, hwraps⟩)
    · exact peelGroups_of_none rfl
    · have hpeel := (hwraps.peelGroups_eq (balanced_of_isBlank nofun)).2
      rw [htrim] at hpeel
      exact hpeel.trans (peelGroups_of_none rfl)

/-- Peeling takes off the pairs of parentheses that enclose a rule, and no others.  In each round
the first parenthesis of the text, if it starts with one, has exactly one partner, and the first and
the last character come off, and then the blanks at the ends, exactly if the last character is this
partner.  What is left in the end has no blanks at its ends, is balanced and is not enclosed by a
pair; with some pairs and blanks around it, it is the rule again; and nothing more comes off it.  It
is empty exactly if the rule is, or is a chain of nested pairs with nothing but blanks in them. -/
theorem peelGroups_enclosing {rule : String} (hmatched : Matched rule.toList)
    (htrim : trim rule.toList = rule.toList) :
    (∀ n current, Rounds n rule.toList current →
        (∀ rest, current = '(' :: rest →
          ∃! sides : List Char × List Char, Partner current sides.1 sides.2) ∧
        ∀ inside, groupInterior? current = some inside ↔
          ∃ before, Partner current before [] ∧ trim before = inside) ∧
      (∃ n, Rounds n rule.toList (peelGroups rule.toList) ∧
        Wraps (peelGroups rule.toList) n rule.toList) ∧
      trim (peelGroups rule.toList) = peelGroups rule.toList ∧
      Matched (peelGroups rule.toList) ∧
      (¬ ∃ before, Partner (peelGroups rule.toList) before []) ∧
      peelGroups (peelGroups rule.toList) = peelGroups rule.toList ∧
      (peelGroups rule.toList = [] ↔
        rule.toList = [] ∨ ∃ n, Wraps [] (n + 1) rule.toList) := by
  have hrule := matched_iff.mp hmatched
  obtain ⟨n, hn⟩ := exists_rounds_peelGroups rule.toList
  obtain ⟨hbalanced, htight⟩ := hn.preserves hrule htrim
  refine ⟨fun m current hm => ?_, ⟨n, hn, hn.wraps⟩, htight, matched_iff.mpr hbalanced, ?_,
    peelGroups_peelGroups _, peelGroups_eq_nil_iff htrim⟩
  · have hcurrent := (hm.preserves hrule htrim).1
    refine ⟨?_, fun inside => groupInterior?_eq_some_iff_partner hcurrent⟩
    rintro rest rfl
    obtain ⟨before, after, hpartner⟩ := exists_partner hcurrent
    refine ⟨(before, after), hpartner, ?_⟩
    rintro ⟨before', after'⟩ hpartner'
    obtain ⟨rfl, rfl⟩ := hpartner.unique hpartner'
    rfl
  · rintro ⟨before, hpartner⟩
    have hround := (groupInterior?_eq_some_iff_partner hbalanced).mpr ⟨before, hpartner, rfl⟩
    rw [groupInterior?_peelGroups] at hround
    cases hround

/-- Two pairs come off.  What is left starts and ends with parentheses that are no partners, and the
partner of the first one is not the quoted one. -/
theorem peelGroups_enclosing_siblings :
    Matched "( ((a=')')OR(b=1)\n))".toList ∧
      trim "( ((a=')')OR(b=1)\n))".toList = "( ((a=')')OR(b=1)\n))".toList ∧
      peelGroups "( ((a=')')OR(b=1)\n))".toList = "(a=')')OR(b=1)".toList ∧
      (∃ n, Wraps "(a=')')OR(b=1)".toList n "( ((a=')')OR(b=1)\n))".toList) ∧
      Partner "(a=')')OR(b=1)".toList "a=')'".toList "OR(b=1)".toList ∧
      ¬ ∃ before, Partner "(a=')')OR(b=1)".toList before [] := by
  have hmatched : Matched "( ((a=')')OR(b=1)\n))".toList :=
    matched_iff.mpr (isBalanced_iff.mp (by decide))
  have htrim : trim "( ((a=')')OR(b=1)\n))".toList = "( ((a=')')OR(b=1)\n))".toList := by decide
  have hpeel : peelGroups "( ((a=')')OR(b=1)\n))".toList = "(a=')')OR(b=1)".toList := by
    decide +kernel
  obtain ⟨-, ⟨n, -, hwraps⟩, -, -, hnot, -⟩ := peelGroups_enclosing hmatched htrim
  rw [hpeel] at hwraps hnot
  have hinside : Balanced "a=')'".toList := isBalanced_iff.mp (by decide)
  exact ⟨hmatched, htrim, hpeel, ⟨n, hwraps⟩, partner_of_balanced hinside _, hnot⟩

end Rulebook.Rule
