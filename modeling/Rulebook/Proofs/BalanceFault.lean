import Rulebook.Proofs.Balance
import Mathlib.Data.List.Basic

/-!
# Balance, counted

Whether a text is balanced can be said without a scan.  Leave out what is quoted, and count the
parentheses in what remains: no prefix of the text closes more than it opens, the text as a whole
opens as many as it closes, and every quote has its partner.  A prefix may end inside quotes, and
then what is left out of it goes on to its end.

The depth of a scan is the number of parentheses opened so far less the number of those closed
(`depth_run_eq`), so the walk that looks for a fault decides these properties, one after the other.
A fault of the first kind has a place, the first prefix that closes more than it opens; the others
can be seen only at the end of the text.

* `unquoted`, `openings`, `closings`: what is outside quotes, and its parentheses.
* `Matched`, `BalanceFault.IsOf`: a text without fault, and the faults of a text.
* `matched_iff`, `balanceFault?_eq_some_iff`: the walk finds the fault of a text, if it has one.
-/

namespace Rulebook

open Text (isQuote)

/-! ## Text outside quotes -/

/-- The text outside quotes.  A quote and everything up to the next one of its kind is left out, or
everything to the end if there is no other. -/
def unquoted : List Char → List Char
  | [] => []
  | c :: rest =>
    if isQuote c then unquoted ((rest.dropWhile (· ≠ c)).drop 1) else c :: unquoted rest
termination_by cs => cs.length
decreasing_by
  · have hle := (List.dropWhile_sublist (· ≠ c) (l := rest)).length_le
    simp only [List.length_drop, List.length_cons]
    omega
  · simp only [List.length_cons]
    omega

/-- The parentheses that a text opens outside quotes. -/
def openings (cs : List Char) : Nat := (unquoted cs).count '('

/-- The parentheses that a text closes outside quotes. -/
def closings (cs : List Char) : Nat := (unquoted cs).count ')'

@[simp] theorem unquoted_nil : unquoted [] = [] := by
  rw [unquoted]

theorem unquoted_cons {c : Char} (hc : isQuote c = false) (rest : List Char) :
    unquoted (c :: rest) = c :: unquoted rest := by
  rw [unquoted, hc, if_neg Bool.false_ne_true]

theorem dropWhile_ne_append {q : Char} {inside : List Char} (h : q ∉ inside) (rest : List Char) :
    (inside ++ rest).dropWhile (· ≠ q) = rest.dropWhile (· ≠ q) := by
  refine List.dropWhile_append_of_pos fun c hc => decide_eq_true ?_
  rintro rfl
  exact h hc

/-- A quoted text is left out. -/
theorem unquoted_quoted {q : Char} (hq : isQuote q = true) {inside : List Char} (h : q ∉ inside)
    (rest : List Char) : unquoted (q :: (inside ++ q :: rest)) = unquoted rest := by
  rw [unquoted, if_pos hq, dropWhile_ne_append h, List.dropWhile_cons_of_neg (by simp),
    List.drop_succ_cons, List.drop_zero]

/-- After a quote without a partner nothing remains. -/
theorem unquoted_open {q : Char} (hq : isQuote q = true) {inside : List Char} (h : q ∉ inside) :
    unquoted (q :: inside) = [] := by
  have hnone : inside.dropWhile (· ≠ q) = [] := by
    have hdrop := dropWhile_ne_append h []
    rwa [List.append_nil] at hdrop
  rw [unquoted, if_pos hq, hnone, List.drop_nil, unquoted_nil]

/-- One character changes the depth by what it opens or closes. -/
theorem Scan.depth_step_eq {s : Scan} (h : s.quote = none) {c : Char} (hc : isQuote c = false) :
    (s.step c).depth + [c].count ')' = s.depth + [c].count '(' := by
  simp only [step, h, hc, Bool.false_eq_true, if_false, List.count_singleton]
  split
  · next hopen =>
    subst hopen
    simp
  · next hopen =>
    split
    · next hclose =>
      subst hclose
      simp
    · next hclose => simp [hopen, hclose]

/-- The depth is what has been opened outside quotes less what has been closed there. -/
theorem depth_run_eq (cs : List Char) :
    (Scan.start.run cs).depth = (openings cs : Int) - closings cs := by
  induction cs using quotes_induction with
  | nil => simp [openings, closings, Scan.start]
  | @plain c rest hc ih =>
    have hstep := Scan.depth_step_eq (s := Scan.start) rfl hc
    have hcount : ∀ d : Char, (c :: unquoted rest).count d = [c].count d + (unquoted rest).count d :=
      fun d => by rw [← List.count_append, List.singleton_append]
    simp only [openings, closings, unquoted_cons hc, hcount] at ih ⊢
    rw [Scan.run_cons, Scan.run_eq_raise (Scan.quote_step rfl hc), Scan.depth_raise, ih]
    simp only [Scan.start] at hstep ⊢
    omega
  | quoted hq hinside ih =>
    simp only [openings, closings, unquoted_quoted hq hinside] at ih ⊢
    rw [← ih, List.append_cons, ← List.cons_append, Scan.run_append, Scan.run_quoted rfl hq hinside]
  | unclosed hq hinside =>
    simp only [openings, closings, unquoted_open hq hinside]
    rw [Scan.run_cons, Scan.step_quote rfl hq, Scan.run_inside hinside]
    rfl

/-! ## Texts without fault -/

/-- No prefix of the text closes more than it opens. -/
def NeverOvercloses (cs : List Char) : Prop := ∀ p, p <+: cs → closings p ≤ openings p

/-- Outside quotes, no prefix of the text closes more than it opens and the whole opens as much as
it closes, and every quote has its partner. -/
structure Matched (cs : List Char) : Prop where
  prefixes : NeverOvercloses cs
  totals : openings cs = closings cs
  quotes : QuotesClosed cs

theorem nonneg_depth_run_iff {cs : List Char} :
    0 ≤ (Scan.start.run cs).depth ↔ closings cs ≤ openings cs := by
  rw [depth_run_eq]
  omega

theorem depth_run_eq_zero_iff {cs : List Char} :
    (Scan.start.run cs).depth = 0 ↔ openings cs = closings cs := by
  rw [depth_run_eq]
  omega

/-- Nothing is open after a text exactly if it opens as much as it closes and its quotes have their
partners. -/
theorem run_eq_start_iff {cs : List Char} :
    Scan.start.run cs = Scan.start ↔ openings cs = closings cs ∧ QuotesClosed cs := by
  have hdepth := depth_run_eq cs
  rw [quotesClosed_iff]
  generalize Scan.start.run cs = s at *
  obtain ⟨depth, quote⟩ := s
  simp only [Scan.start, Scan.mk.injEq] at *
  refine and_congr_left fun _ => ?_
  omega

/-- Counting and scanning agree on which texts are balanced. -/
theorem matched_iff {cs : List Char} : Matched cs ↔ Balanced cs := by
  constructor
  · intro h
    refine ⟨fun before after heq => ?_, run_eq_start_iff.mpr ⟨h.totals, h.quotes⟩⟩
    exact nonneg_depth_run_iff.mpr (h.prefixes before ⟨after, heq⟩)
  · intro h
    obtain ⟨htotals, hquotes⟩ := run_eq_start_iff.mp h.closed
    refine ⟨?_, htotals, hquotes⟩
    rintro p ⟨after, heq⟩
    exact nonneg_depth_run_iff.mp (h.holds p after heq)

/-! ## The fault of a text -/

/-- The parenthesis that is closed after `before` is the first place at which more is closed than
opened. -/
structure FirstUnmatched (cs before : List Char) : Prop where
  place : before ++ [')'] <+: cs
  overcloses : openings (before ++ [')']) < closings (before ++ [')'])
  first : NeverOvercloses before

/-- The text has the fault.  An unmatched parenthesis comes before the others, and an open quote
before parentheses that are not closed. -/
def BalanceFault.IsOf (cs : List Char) : BalanceFault → Prop
  | .unmatchedClose offset =>
    ∃ before, FirstUnmatched cs before ∧ (String.ofList before).utf8ByteSize = offset
  | .openQuote => NeverOvercloses cs ∧ ¬ QuotesClosed cs
  | .unclosed count =>
    NeverOvercloses cs ∧ QuotesClosed cs ∧ 0 < count ∧ openings cs = closings cs + count

/-- Only a closing parenthesis outside quotes lowers the depth, and it does so by one. -/
theorem Scan.closes_of_depth_step_lt {s : Scan} {c : Char} (h : (s.step c).depth < s.depth) :
    c = ')' ∧ s.quote = none ∧ (s.step c).depth = s.depth - 1 := by
  rw [step] at h ⊢
  split at h
  · split at h
    · exact absurd h (Int.lt_irrefl _)
    · exact absurd h (Int.lt_irrefl _)
  · next hquote =>
    split at h
    · exact absurd h (Int.lt_irrefl _)
    · next hc =>
      split at h
      · simp only at h
        omega
      · next hopen =>
        split at h
        · next hclose => exact ⟨hclose, hquote, by rw [if_neg hc, if_neg hopen, if_pos hclose]⟩
        · exact absurd h (Int.lt_irrefl _)

variable {cs : List Char} {fault : BalanceFault}

/-- A text in which more is closed than opened has a first place at which this is so. -/
theorem neverOvercloses_or_exists_firstUnmatched (cs : List Char) :
    NeverOvercloses cs ∨ ∃ before, FirstUnmatched cs before := by
  have hnil : closings [] ≤ openings [] := nonneg_depth_run_iff.mp (Int.le_refl 0)
  rcases exists_first_prefix (P := fun p => closings p ≤ openings p) hnil cs with
    hall | ⟨before, c, after, rfl, hfirst, hnot⟩
  · exact Or.inl hall
  · have hclose : c = ')' := by
      have hnonneg := nonneg_depth_run_iff.mpr (hfirst before List.prefix_rfl)
      rw [← nonneg_depth_run_iff, Scan.run_append] at hnot
      exact (Scan.closes_of_depth_step_lt (Int.lt_of_lt_of_le (Int.not_le.mp hnot) hnonneg)).1
    subst hclose
    refine Or.inr ⟨before, ⟨after, ?_⟩, Nat.lt_of_not_le hnot, hfirst⟩
    rw [List.append_assoc, List.singleton_append]

/-- Where more is closed than opened, this is the fault, at the first such place. -/
theorem FirstUnmatched.balanceFault?_eq {before : List Char} (h : FirstUnmatched cs before) :
    balanceFault? cs = some (.unmatchedClose (String.ofList before).utf8ByteSize) := by
  obtain ⟨⟨after, rfl⟩, hover, hfirst⟩ := h
  have hneg : (Scan.start.run (before ++ [')'])).depth < 0 := by
    rw [← Int.not_le, nonneg_depth_run_iff]
    omega
  rw [balanceFault?, List.append_assoc, List.singleton_append,
    balanceFaultFrom?_of_neg (fun p hp => nonneg_depth_run_iff.mpr (hfirst p hp)) hneg, Nat.zero_add]

/-- Otherwise the fault is what is open at the end. -/
theorem NeverOvercloses.balanceFault?_eq (h : NeverOvercloses cs) :
    balanceFault? cs = (Scan.start.run cs).endFault? :=
  balanceFaultFrom?_of_nonneg (fun p hp => nonneg_depth_run_iff.mpr (h p hp)) 0

theorem FirstUnmatched.not_neverOvercloses {before : List Char} (h : FirstUnmatched cs before) :
    ¬ NeverOvercloses cs := fun hnever =>
  absurd (hnever _ h.place) (Nat.not_le.mpr h.overcloses)

/-- What is open at the end of a text, a quote or so many parentheses. -/
theorem endFault?_run_eq_some_iff (h : NeverOvercloses cs) :
    (Scan.start.run cs).endFault? = some fault ↔
      (¬ QuotesClosed cs ∧ fault = .openQuote) ∨
        QuotesClosed cs ∧ openings cs ≠ closings cs ∧
          fault = .unclosed (openings cs - closings cs) := by
  have hle := h cs List.prefix_rfl
  have hdepth := depth_run_eq cs
  rw [Scan.endFault?, quotesClosed_iff]
  generalize Scan.start.run cs = s at *
  obtain ⟨depth, _ | q⟩ := s
  · have hcount : depth.toNat = openings cs - closings cs := by
      simp only at hdepth
      omega
    have hzero : depth ≠ 0 ↔ openings cs ≠ closings cs := by
      simp only at hdepth
      omega
    simp [hcount, hzero, eq_comm]
  · simp [eq_comm]

/-- The walk over a text finds the fault of the text. -/
theorem balanceFault?_eq_some_iff : balanceFault? cs = some fault ↔ fault.IsOf cs := by
  rcases neverOvercloses_or_exists_firstUnmatched cs with hnever | ⟨before, hfirst⟩
  · rw [hnever.balanceFault?_eq, endFault?_run_eq_some_iff hnever]
    cases fault with
    | unmatchedClose offset =>
      refine iff_of_false (by simp) ?_
      rintro ⟨before, hfirst, -⟩
      exact hfirst.not_neverOvercloses hnever
    | openQuote => simp [BalanceFault.IsOf, hnever]
    | unclosed count =>
      have hle := hnever cs List.prefix_rfl
      have hcount : openings cs ≠ closings cs ∧ count = openings cs - closings cs ↔
          0 < count ∧ openings cs = closings cs + count := by omega
      simp [BalanceFault.IsOf, hnever, hcount]
  · rw [hfirst.balanceFault?_eq, Option.some.injEq]
    constructor
    · rintro rfl
      exact ⟨before, hfirst, rfl⟩
    · intro hfault
      cases fault with
      | unmatchedClose offset =>
        obtain ⟨before', hfirst', rfl⟩ := hfault
        exact Option.some.inj (hfirst.balanceFault?_eq.symm.trans hfirst'.balanceFault?_eq)
      | openQuote => exact absurd hfault.1 hfirst.not_neverOvercloses
      | unclosed count => exact absurd hfault.1 hfirst.not_neverOvercloses

end Rulebook
