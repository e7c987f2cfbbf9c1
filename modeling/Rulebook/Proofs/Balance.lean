import Rulebook.Rule.Scan

/-!
# Balance, read as a property of places

`isBalanced` walks a text once and stops at the first fault.  What later files need is the
property that the walk decides: at no place more is closed than opened, and the scan of the whole
text ends where it began.  In this form balance passes to concatenations and through groups, and a
balanced text can be cut out of a longer one without any change to the scan of the rest.

The same form with "no parenthesis is open" in place of "no more is closed than opened" describes
the texts of conditions, whose parentheses are all quoted.  `Stays` is the common form.

* `isBalanced_iff`: the walk decides `Balanced`.
* `Stays.append`, `Balanced.group`, `stays_of_isPlain`, `stays_quoted`: how such texts are put
  together; `Stays.cut`: how they are cut.
* `balanced_trim_iff`: blanks at the ends do not matter.
* `not_balanced_append`: where a group ends before the text does, what stands between the
  outermost parentheses is not balanced.
* `quotes_induction`: induction on the quotes of a text.
* `quotesClosed_iff`: no quote is open exactly after a text in which each quote has its partner.
-/

namespace Rulebook

open Text (isQuote isBlank)

namespace Scan

/-! ## Scans from another depth -/

/-- The scan with the depth raised. -/
def raise (s : Scan) (k : Int) : Scan := ⟨s.depth + k, s.quote⟩

@[simp] theorem depth_raise (s : Scan) (k : Int) : (s.raise k).depth = s.depth + k := rfl

@[simp] theorem quote_raise (s : Scan) (k : Int) : (s.raise k).quote = s.quote := rfl

theorem step_raise (s : Scan) (k : Int) (c : Char) : (s.raise k).step c = (s.step c).raise k := by
  obtain ⟨depth, quote⟩ := s
  cases quote with
  | some q =>
    simp only [step, raise]
    split <;> rfl
  | none =>
    simp only [step, raise]
    split
    · rfl
    · split
      · simp only [Scan.mk.injEq, and_true]
        omega
      · split
        · simp only [Scan.mk.injEq, and_true]
          omega
        · rfl

/-- Where a scan starts shifts the depth and nothing else. -/
theorem run_raise (s : Scan) (k : Int) (cs : List Char) :
    (s.raise k).run cs = (s.run cs).raise k := by
  induction cs generalizing s with
  | nil => rfl
  | cons c cs ih => rw [run_cons, step_raise, ih, run_cons]

/-- Outside quotes, a scan is the scan from the start, raised. -/
theorem run_eq_raise {s : Scan} (h : s.quote = none) (cs : List Char) :
    s.run cs = (start.run cs).raise s.depth := by
  have hs : s = start.raise s.depth := by
    obtain ⟨depth, quote⟩ := s
    simp only at h
    simp [raise, start, h]
  rw [← run_raise, ← hs]

theorem isGround_iff {s : Scan} : s.isGround = true ↔ s = start := by
  obtain ⟨depth, quote⟩ := s
  simp [isGround, start, and_comm]

/-- On ground level a scan may be taken to start anew. -/
theorem run_append_of_isGround {cs : List Char} (h : (start.run cs).isGround = true)
    (ds : List Char) : start.run (cs ++ ds) = start.run ds := by
  rw [run_append, isGround_iff.mp h]

/-! ## Plain characters -/

/-- A character that opens and closes nothing. -/
def IsPlain (c : Char) : Prop := isQuote c = false ∧ c ≠ '(' ∧ c ≠ ')'

theorem step_of_isPlain {s : Scan} (h : s.quote = none) {c : Char} (hc : IsPlain c) :
    s.step c = s := by
  obtain ⟨hquote, hopen, hclose⟩ := hc
  simp [step, h, hquote, hopen, hclose]

theorem run_of_isPlain {s : Scan} (h : s.quote = none) {cs : List Char}
    (hcs : ∀ c ∈ cs, IsPlain c) : s.run cs = s := by
  induction cs with
  | nil => rfl
  | cons c cs ih =>
    rw [run_cons, step_of_isPlain h (hcs c (List.mem_cons_self ..))]
    exact ih fun d hd => hcs d (List.mem_cons_of_mem _ hd)

/-- A test that all four marks fail is passed by plain characters only. -/
theorem isPlain_of_test {p : Char → Bool}
    (hp : ['\x27', '\x22', '(', ')'].any p = false) {c : Char} (h : p c = true) : IsPlain c := by
  have hne : ∀ d ∈ ['\x27', '\x22', '(', ')'], c ≠ d := by
    rintro d hd rfl
    exact List.any_eq_false.mp hp c hd h
  simp only [List.mem_cons, List.not_mem_nil, or_false, forall_eq_or_imp, forall_eq] at hne
  obtain ⟨hsingle, hdouble, hopen, hclose⟩ := hne
  exact ⟨by simp [isQuote, hsingle, hdouble], hopen, hclose⟩

theorem isPlain_of_isBlank {c : Char} (h : isBlank c = true) : IsPlain c :=
  isPlain_of_test (by decide) h

/-! ## Quoted text -/

theorem step_quote {s : Scan} (h : s.quote = none) {q : Char} (hq : isQuote q = true) :
    s.step q = ⟨s.depth, some q⟩ := by
  simp [step, h, hq]

theorem quote_step {s : Scan} (h : s.quote = none) {c : Char} (hc : isQuote c = false) :
    (s.step c).quote = none := by
  simp only [step, h, hc, Bool.false_eq_true, if_false]
  split
  · rfl
  · split
    · rfl
    · exact h

/-- Only quotes are ever open as quotes. -/
theorem isQuote_of_mem_quote_step {s : Scan} (hs : ∀ q ∈ s.quote, isQuote q = true) {c q : Char}
    (hq : q ∈ (s.step c).quote) : isQuote q = true := by
  rcases hquote : s.quote with _ | p
  · rcases hc : isQuote c with _ | _
    · rw [quote_step hquote hc] at hq
      cases hq
    · rw [step_quote hquote hc] at hq
      cases hq
      exact hc
  · rw [step, hquote] at hq
    dsimp only at hq
    split at hq
    · cases hq
    · exact hs q hq

theorem isQuote_of_mem_quote_start : ∀ q ∈ start.quote, isQuote q = true := nofun

theorem isQuote_of_mem_quote_run {s : Scan} (hs : ∀ q ∈ s.quote, isQuote q = true)
    (cs : List Char) : ∀ q ∈ (s.run cs).quote, isQuote q = true := by
  induction cs generalizing s with
  | nil => exact hs
  | cons c cs ih => exact ih fun q => isQuote_of_mem_quote_step hs

/-- Up to its partner, a quote hides everything. -/
theorem run_inside {q : Char} {inside : List Char} (h : q ∉ inside) (depth : Int) :
    (⟨depth, some q⟩ : Scan).run inside = ⟨depth, some q⟩ := by
  induction inside with
  | nil => rfl
  | cons c inside ih =>
    have hc : c ≠ q := fun heq => h (heq ▸ List.mem_cons_self ..)
    rw [run_cons]
    simp only [step, if_neg hc]
    exact ih fun hmem => h (List.mem_cons_of_mem _ hmem)

/-- Blanks after a text do not change its scan, in quotes or not. -/
theorem run_append_of_isBlank (cs : List Char) {w : List Char} (hw : ∀ c ∈ w, isBlank c = true) :
    start.run (cs ++ w) = start.run cs := by
  rw [run_append]
  rcases hquote : (start.run cs).quote with _ | q
  · exact run_of_isPlain hquote fun c hc => isPlain_of_isBlank (hw c hc)
  · have hq := isQuote_of_mem_quote_run isQuote_of_mem_quote_start cs q hquote
    have hnot : q ∉ w := by
      intro hmem
      have hplain := (isPlain_of_isBlank (hw q hmem)).1
      rw [hq] at hplain
      cases hplain
    have hrun := run_inside hnot (start.run cs).depth
    rwa [← hquote] at hrun

/-- A quoted text leaves the scan as it was. -/
theorem run_quoted {s : Scan} (h : s.quote = none) {q : Char} (hq : isQuote q = true)
    {inside : List Char} (hinside : q ∉ inside) : s.run (q :: (inside ++ [q])) = s := by
  obtain ⟨depth, quote⟩ := s
  simp only at h
  subst h
  rw [run_cons, step_quote rfl hq, run_append, run_inside hinside]
  simp [step]

end Scan

/-! ## Texts that stay where they are -/

/-- The scan of a text ends where it began, and at each place on the way the depth is as asked. -/
structure Stays (P : Int → Prop) (cs : List Char) : Prop where
  holds : ∀ before after, before ++ after = cs → P (Scan.start.run before).depth
  closed : Scan.start.run cs = Scan.start

/-- Parentheses and quotes of a text balance: up to no place more is closed than opened. -/
abbrev Balanced : List Char → Prop := Stays (0 ≤ ·)

/-- Quotes of a text balance, and it has no parentheses outside them. -/
abbrev Flat : List Char → Prop := Stays (· = 0)

namespace Stays

variable {P : Int → Prop} {cs ds : List Char}

theorem isGround (h : Stays P cs) : (Scan.start.run cs).isGround = true := by
  rw [h.closed]
  rfl

theorem append (hcs : Stays P cs) (hds : Stays P ds) : Stays P (cs ++ ds) := by
  refine ⟨fun before after heq => ?_, by rw [Scan.run_append, hcs.closed, hds.closed]⟩
  rcases List.append_eq_append_iff.mp heq with ⟨more, hmore, -⟩ | ⟨more, rfl, hmore⟩
  · exact hcs.holds before more hmore.symm
  · rw [Scan.run_append, hcs.closed]
    exact hds.holds more after hmore.symm

/-- Cut on ground level, such a text falls into two such texts. -/
theorem cut (h : Stays P (cs ++ ds)) (hcs : Scan.start.run cs = Scan.start) :
    Stays P cs ∧ Stays P ds := by
  refine ⟨⟨fun before after heq => ?_, hcs⟩, ⟨fun before after heq => ?_, ?_⟩⟩
  · exact h.holds before (after ++ ds) (by rw [← List.append_assoc, heq])
  · have hdepth := h.holds (cs ++ before) after (by rw [List.append_assoc, heq])
    rwa [Scan.run_append, hcs] at hdepth
  · have hall := h.closed
    rwa [Scan.run_append, hcs] at hall

theorem mono {Q : Int → Prop} (hPQ : ∀ n, P n → Q n) (h : Stays P cs) : Stays Q cs :=
  ⟨fun before after heq => hPQ _ (h.holds before after heq), h.closed⟩

end Stays

theorem Flat.balanced {cs : List Char} (h : Flat cs) : Balanced cs :=
  h.mono fun _ hn => Int.le_of_eq hn.symm

theorem stays_of_isPlain {P : Int → Prop} (hP : P 0) {cs : List Char}
    (h : ∀ c ∈ cs, Scan.IsPlain c) : Stays P cs := by
  refine ⟨fun before after heq => ?_, Scan.run_of_isPlain rfl h⟩
  rw [Scan.run_of_isPlain rfl fun c hc => h c (heq ▸ List.mem_append_left _ hc)]
  exact hP

/-- Whatever stands between two quotes leaves the depth alone. -/
theorem stays_quoted {P : Int → Prop} (hP : P 0) {q : Char} (hq : isQuote q = true)
    {inside : List Char} (h : q ∉ inside) : Stays P (q :: (inside ++ [q])) := by
  refine ⟨fun before after heq => ?_, Scan.run_quoted rfl hq h⟩
  rcases List.append_eq_cons_iff.mp heq with ⟨rfl, -⟩ | ⟨inner, rfl, hinner⟩
  · exact hP
  · rcases List.append_eq_append_iff.mp hinner.symm with ⟨more, hmore, -⟩ | ⟨more, hmore, hlast⟩
    · have hnot : q ∉ inner := fun hmem => h (hmore ▸ List.mem_append_left _ hmem)
      rw [Scan.run_cons, Scan.step_quote rfl hq, Scan.run_inside hnot]
      exact hP
    · rcases List.singleton_eq_append_iff.mp hlast with ⟨rfl, -⟩ | ⟨rfl, -⟩
      · rw [hmore, List.append_nil, Scan.run_cons, Scan.step_quote rfl hq, Scan.run_inside h]
        exact hP
      · rw [hmore, Scan.run_quoted rfl hq h]
        exact hP

/-! ## Balanced texts -/

theorem endFault?_eq_none_iff {s : Scan} (h : 0 ≤ s.depth) : s.endFault? = none ↔ s = .start := by
  obtain ⟨depth, quote⟩ := s
  rcases quote with _ | q
  · simp [Scan.endFault?, Scan.start]
  · simp [Scan.endFault?, Scan.start]

/-- A property of prefixes that the empty one has holds of all prefixes of a text, or there is a
first one that lacks it. -/
theorem exists_first_prefix {P : List Char → Prop} (hnil : P []) (cs : List Char) :
    (∀ p, p <+: cs → P p) ∨ ∃ before c after, before ++ c :: after = cs ∧
      (∀ p, p <+: before → P p) ∧ ¬ P (before ++ [c]) := by
  induction cs generalizing P with
  | nil =>
    refine Or.inl fun p hp => ?_
    rw [List.prefix_nil.mp hp]
    exact hnil
  | cons c rest ih =>
    by_cases hc : P [c]
    · rcases ih (P := fun p => P (c :: p)) hc with hall | ⟨before, d, after, rfl, hfirst, hnot⟩
      · refine Or.inl fun p hp => ?_
        rcases List.prefix_cons_iff.mp hp with rfl | ⟨tail, rfl, htail⟩
        · exact hnil
        · exact hall tail htail
      · refine Or.inr ⟨c :: before, d, after, rfl, fun p hp => ?_, hnot⟩
        rcases List.prefix_cons_iff.mp hp with rfl | ⟨tail, rfl, htail⟩
        · exact hnil
        · exact hfirst tail htail
    · refine Or.inr ⟨[], c, rest, rfl, fun p hp => ?_, hc⟩
      rw [List.prefix_nil.mp hp]
      exact hnil

/-- A walk that never goes below zero ends with the fault of its last place. -/
theorem balanceFaultFrom?_of_nonneg {s : Scan} {cs : List Char}
    (h : ∀ p, p <+: cs → 0 ≤ (s.run p).depth) (offset : Nat) :
    balanceFaultFrom? s offset cs = (s.run cs).endFault? := by
  induction cs generalizing s offset with
  | nil => rfl
  | cons c rest ih =>
    have hone : 0 ≤ (s.step c).depth := h [c] (List.prefix_append [c] rest)
    rw [balanceFaultFrom?, if_neg (Int.not_lt.mpr hone), Scan.run_cons]
    exact ih (fun p hp => h (c :: p) ((List.prefix_cons_inj c).mpr hp)) _

/-- A walk stops at the first place below zero and reports how many bytes come before it. -/
theorem balanceFaultFrom?_of_neg {s : Scan} {before : List Char} {c : Char}
    (hfirst : ∀ p, p <+: before → 0 ≤ (s.run p).depth) (hneg : (s.run (before ++ [c])).depth < 0)
    (after : List Char) (offset : Nat) :
    balanceFaultFrom? s offset (before ++ c :: after) =
      some (.unmatchedClose (offset + (String.ofList before).utf8ByteSize)) := by
  induction before generalizing s offset with
  | nil => exact if_pos hneg
  | cons d before ih =>
    have hone : 0 ≤ (s.step d).depth := hfirst [d] (List.prefix_append [d] before)
    rw [List.cons_append, balanceFaultFrom?, if_neg (Int.not_lt.mpr hone), String.ofList_cons,
      String.utf8ByteSize_append, String.utf8ByteSize_singleton, ← Nat.add_assoc]
    exact ih (fun p hp => hfirst (d :: p) ((List.prefix_cons_inj d).mpr hp)) hneg _

/-- The walk over a text decides whether the text is balanced. -/
theorem isBalanced_iff {cs : List Char} : isBalanced cs = true ↔ Balanced cs := by
  rw [isBalanced, Option.isNone_iff_eq_none, balanceFault?]
  rcases exists_first_prefix (P := fun p => 0 ≤ (Scan.start.run p).depth) (Int.le_refl 0) cs with
    hall | ⟨before, c, after, rfl, hfirst, hneg⟩
  · rw [balanceFaultFrom?_of_nonneg hall, endFault?_eq_none_iff (hall cs List.prefix_rfl)]
    exact ⟨fun h => ⟨fun before after heq => hall before ⟨after, heq⟩, h⟩, fun h => h.closed⟩
  · rw [balanceFaultFrom?_of_neg hfirst (Int.not_le.mp hneg)]
    refine iff_of_false nofun fun h => hneg (h.holds (before ++ [c]) after ?_)
    rw [List.append_assoc, List.singleton_append]

theorem Balanced.balanceFault?_eq_none {cs : List Char} (h : Balanced cs) :
    balanceFault? cs = none := by
  simpa [isBalanced] using isBalanced_iff.mpr h

theorem balanced_of_isBlank {cs : List Char} (h : ∀ c ∈ cs, isBlank c = true) : Balanced cs :=
  stays_of_isPlain (Int.le_refl 0) fun c hc => Scan.isPlain_of_isBlank (h c hc)

/-- Blanks at the ends of a text do not matter to its balance. -/
theorem balanced_trim_iff {cs : List Char} : Balanced (Text.trim cs) ↔ Balanced cs := by
  obtain ⟨w, w', heq, hw, hw'⟩ := Text.exists_eq_append_trim cs
  constructor
  · intro h
    rw [heq]
    exact ((balanced_of_isBlank hw).append h).append (balanced_of_isBlank hw')
  · intro h
    rw [heq, List.append_assoc] at h
    have hrest := (h.cut (balanced_of_isBlank hw).closed).2
    refine (hrest.cut ?_).1
    rw [← Scan.run_append_of_isBlank (Text.trim cs) hw', hrest.closed]

/-! ## Groups -/

/-- After an opening parenthesis the scan is one level deeper. -/
theorem run_open_cons (cs : List Char) :
    Scan.start.run ('(' :: cs) = (Scan.start.run cs).raise 1 :=
  Scan.run_raise Scan.start 1 cs

/-- Inside a group every place is below ground. -/
theorem Balanced.one_le_depth {before after : List Char} (h : Balanced (before ++ after)) :
    1 ≤ (Scan.start.run ('(' :: before)).depth := by
  have hnonneg := h.holds before after rfl
  rw [run_open_cons, Scan.depth_raise]
  omega

/-- Parentheses around a balanced text are balanced. -/
theorem Balanced.group {cs : List Char} (h : Balanced cs) : Balanced ('(' :: (cs ++ [')'])) := by
  have hend : Scan.start.run ('(' :: (cs ++ [')'])) = Scan.start := by
    rw [run_open_cons, Scan.run_append, h.closed]
    rfl
  refine ⟨fun before after heq => ?_, hend⟩
  rcases List.append_eq_cons_iff.mp heq with ⟨rfl, -⟩ | ⟨inner, rfl, hinner⟩
  · exact Int.le_refl 0
  · rcases List.append_eq_append_iff.mp hinner.symm with ⟨more, hcs, -⟩ | ⟨more, hmore, hlast⟩
    · have hdepth := Balanced.one_le_depth (hcs ▸ h)
      omega
    · rcases List.singleton_eq_append_iff.mp hlast with ⟨rfl, -⟩ | ⟨rfl, -⟩
      · rw [List.append_nil] at hmore
        have hall : Balanced (inner ++ []) := by rwa [hmore, List.append_nil]
        have hdepth := hall.one_le_depth
        omega
      · rw [hmore, hend]
        exact Int.le_refl 0

/-- A group that ends before the text does leaves something unbalanced between the outermost
parentheses. -/
theorem not_balanced_append {cs : List Char} (h : Balanced ('(' :: cs)) (ds : List Char) :
    ¬ Balanced (cs ++ ds) := by
  intro hcs
  have hone := hcs.one_le_depth
  rw [h.closed] at hone
  exact absurd hone (by decide)

/-! ## Closed quotes -/

/-- Induction on a text by its quotes.  A text that is not empty starts with a character that is no
quote, with a quote that has a partner, or with one that has none. -/
@[elab_as_elim]
theorem quotes_induction {motive : List Char → Prop} (nil : motive [])
    (plain : ∀ {c rest}, isQuote c = false → motive rest → motive (c :: rest))
    (quoted : ∀ {q inside rest}, isQuote q = true → q ∉ inside → motive rest →
      motive (q :: (inside ++ q :: rest)))
    (unclosed : ∀ {q inside}, isQuote q = true → q ∉ inside → motive (q :: inside))
    (cs : List Char) : motive cs := by
  match cs with
  | [] => exact nil
  | c :: rest =>
    rcases hc : isQuote c with _ | _
    · exact plain hc (quotes_induction nil plain quoted unclosed rest)
    · by_cases hmem : c ∈ rest
      · obtain ⟨inside, after, hrest, hinside⟩ := List.eq_append_cons_of_mem hmem
        have hlength : after.length < rest.length := by
          rw [hrest, List.length_append, List.length_cons]
          omega
        rw [hrest]
        exact quoted hc hinside (quotes_induction nil plain quoted unclosed after)
      · exact unclosed hc hmem
termination_by cs.length
decreasing_by
  all_goals
    simp only [List.length_cons]
    omega

/-- A text in which every quote that is opened is closed by the next quote of its kind. -/
inductive QuotesClosed : List Char → Prop where
  | nil : QuotesClosed []
  | cons {c : Char} {cs : List Char} (hc : isQuote c = false) (h : QuotesClosed cs) :
      QuotesClosed (c :: cs)
  | quoted {q : Char} {inside cs : List Char} (hq : isQuote q = true) (hinside : q ∉ inside)
      (h : QuotesClosed cs) : QuotesClosed (q :: (inside ++ q :: cs))

/-- The quote that a scan has open does not depend on the depth. -/
theorem Scan.quote_run_eq {s : Scan} (h : s.quote = none) (cs : List Char) :
    (s.run cs).quote = (start.run cs).quote := by
  rw [run_eq_raise h, quote_raise]

theorem QuotesClosed.quote_run {cs : List Char} (h : QuotesClosed cs) :
    (Scan.start.run cs).quote = none := by
  induction h with
  | nil => rfl
  | cons hc _ ih =>
    rw [Scan.run_cons, Scan.quote_run_eq (Scan.quote_step rfl hc), ih]
  | quoted hq hinside _ ih =>
    rw [List.append_cons, ← List.cons_append, Scan.run_append, Scan.run_quoted rfl hq hinside, ih]

theorem quotesClosed_of_quote_run {cs : List Char} (h : (Scan.start.run cs).quote = none) :
    QuotesClosed cs := by
  induction cs using quotes_induction with
  | nil => exact .nil
  | plain hc ih =>
    rw [Scan.run_cons, Scan.quote_run_eq (Scan.quote_step rfl hc)] at h
    exact .cons hc (ih h)
  | quoted hq hinside ih =>
    rw [List.append_cons, ← List.cons_append, Scan.run_append, Scan.run_quoted rfl hq hinside] at h
    exact .quoted hq hinside (ih h)
  | unclosed hq hinside =>
    rw [Scan.run_cons, Scan.step_quote rfl hq, Scan.run_inside hinside] at h
    cases h

/-- No quote is open after a text exactly if each of its quotes has its partner. -/
theorem quotesClosed_iff {cs : List Char} :
    QuotesClosed cs ↔ (Scan.start.run cs).quote = none :=
  ⟨QuotesClosed.quote_run, quotesClosed_of_quote_run⟩

theorem Stays.quotesClosed {P : Int → Prop} {cs : List Char} (h : Stays P cs) :
    QuotesClosed cs :=
  quotesClosed_iff.mpr (by rw [h.closed]; rfl)

end Rulebook
