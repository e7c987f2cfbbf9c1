import Rulebook.Proofs.OuterGroups

/-!
# Texts with other white space

Which white space stands between the words of a rule, and how much of it, should not matter.  What is
quoted is not touched, though, and no white space may come or go: `ab` and `a b` are different
names.  So two texts are taken to be the same but for their spacing if each run of spaces outside
quotes in the one stands where the other has a run of spaces too.  Spaces are the five ASCII
characters that delimit a keyword.  Other white space, such as the vertical tab, is blank and is
trimmed, but it delimits nothing, and it stays as it is.

Positions in the two texts differ, so a place in the one is never compared with a place in the other
by its distance from the start.  Instead, a text that is cut in two cuts every text that differs
from it by spacing only, provided that the seam is outside quotes and not inside a run of spaces
(`Respaced.cut`).  Whatever a parser does to a text, it cuts it at such seams.

* `Respaced`: the relation, with `Respaced.symm` and `Respaced.cut`.
* `Respaced.run_eq`, `Respaced.balanced`: scans do not see the difference.
* `Respaced.head`, `Respaced.last`: the ends of the texts are the same, or both are spaces.
* `Respaced.trim`: trimmed texts.
-/

namespace Rulebook.Rule

open Text (isBlank isQuote isSpace)

/-! ## The relation -/

/-- A run of spaces. -/
def Spaces (cs : List Char) : Prop := cs ≠ [] ∧ ∀ c ∈ cs, isSpace c = true

/-- The second text has the characters of the first one, save that a run of spaces outside quotes
may be another run of spaces.  A quote that is not closed quotes all that follows. -/
inductive Respaced : List Char → List Char → Prop where
  | nil : Respaced [] []
  | spaces {w w' cs ds : List Char} (hw : Spaces w) (hw' : Spaces w') (h : Respaced cs ds) :
      Respaced (w ++ cs) (w' ++ ds)
  | char {c : Char} {cs ds : List Char} (hquote : isQuote c = false) (hspace : isSpace c = false)
      (h : Respaced cs ds) : Respaced (c :: cs) (c :: ds)
  | quoted {q : Char} {inside cs ds : List Char} (hq : isQuote q = true) (hinside : q ∉ inside)
      (h : Respaced cs ds) : Respaced (q :: (inside ++ q :: cs)) (q :: (inside ++ q :: ds))
  | unclosed {q : Char} {inside : List Char} (hq : isQuote q = true) (hinside : q ∉ inside) :
      Respaced (q :: inside) (q :: inside)

variable {cs ds xs ys w : List Char} {c : Char}

theorem Respaced.symm (h : Respaced cs ds) : Respaced ds cs := by
  induction h with
  | nil => exact .nil
  | spaces hw hw' _ ih => exact .spaces hw' hw ih
  | char hquote hspace _ ih => exact .char hquote hspace ih
  | quoted hq hinside _ ih => exact .quoted hq hinside ih
  | unclosed hq hinside => exact .unclosed hq hinside

theorem Respaced.of_spaces {w w' : List Char} (hw : Spaces w) (hw' : Spaces w') :
    Respaced w w' := by
  have h := Respaced.spaces hw hw' .nil
  rwa [List.append_nil, List.append_nil] at h

theorem isBlank_eq_false_of_isQuote {q : Char} (hq : isQuote q = true) : isBlank q = false := by
  simp only [isQuote, Bool.or_eq_true, beq_iff_eq] at hq
  rcases hq with rfl | rfl <;> rfl

theorem isSpace_eq_false_of_isBlank (h : isBlank c = false) : isSpace c = false := by
  rcases hspace : isSpace c with _ | _
  · rfl
  · rw [Text.isBlank_of_isSpace hspace] at h
    cases h

theorem isSpace_eq_false_of_isQuote {q : Char} (hq : isQuote q = true) : isSpace q = false :=
  isSpace_eq_false_of_isBlank (isBlank_eq_false_of_isQuote hq)

/-- A text without spaces is left as it is. -/
theorem Respaced.eq_of_notSpace (h : Respaced cs ds) (hcs : ∀ c ∈ cs, isSpace c = false) :
    ds = cs := by
  induction h with
  | nil => rfl
  | @spaces w w' cs ds hw _ _ _ =>
    obtain ⟨c, rest, rfl⟩ := List.exists_cons_of_ne_nil hw.1
    have hc := hcs c (List.mem_append_left _ (List.mem_cons_self ..))
    rw [hw.2 c (List.mem_cons_self ..)] at hc
    cases hc
  | char _ _ _ ih => rw [ih fun d hd => hcs d (List.mem_cons_of_mem _ hd)]
  | quoted _ _ _ ih =>
    rw [ih fun d hd => hcs d
      (List.mem_cons_of_mem _ (List.mem_append_right _ (List.mem_cons_of_mem _ hd)))]
  | unclosed => rfl

/-- A quoted text is left as it is. -/
theorem Respaced.eq_of_quoted {q : Char} {inside : List Char} (hq : isQuote q = true)
    (hinside : q ∉ inside) (h : Respaced (q :: (inside ++ [q])) ds) :
    ds = q :: (inside ++ [q]) := by
  generalize hcs : q :: (inside ++ [q]) = cs at h
  cases h with
  | nil => rfl
  | spaces hw =>
    obtain ⟨c, rest, rfl⟩ := List.exists_cons_of_ne_nil hw.1
    obtain ⟨rfl, -⟩ := List.cons.inj hcs
    have hc := hw.2 q (List.mem_cons_self ..)
    rw [isSpace_eq_false_of_isQuote hq] at hc
    cases hc
  | char hquote =>
    obtain ⟨rfl, -⟩ := List.cons.inj hcs
    rw [hq] at hquote
    cases hquote
  | @quoted _ inside' rest rest' _ hinside' h =>
    obtain ⟨rfl, hrest⟩ := List.cons.inj hcs
    obtain ⟨rfl, -, rfl⟩ := (List.append_cons_inj_of_notMem hinside List.not_mem_nil).mp hrest
    rw [h.eq_of_notSpace nofun]
  | unclosed => rfl

/-! ## Cutting -/

/-- The seam between two texts is not inside a run of spaces. -/
def Seam (xs ys : List Char) : Prop :=
  (∀ c ∈ xs.getLast?, isSpace c = false) ∨ ∀ c ∈ ys.head?, isSpace c = false

/-- What is cut off at the front does not matter to a seam. -/
theorem Seam.of_append {front : List Char} (h : Seam (front ++ xs) ys) : Seam xs ys := by
  refine h.imp_left fun hlast c hc => hlast c ?_
  rw [List.getLast?_append, Option.mem_def.mp hc]
  rfl

/-- A run of spaces has no seam in it. -/
theorem Seam.eq_nil_of_spaces {more : List Char} (h : Seam xs (more ++ ys))
    (hspaces : ∀ c ∈ xs ++ more, isSpace c = true) : xs = [] ∨ more = [] := by
  rcases List.eq_nil_or_concat xs with hxs | ⟨init, d, rfl⟩
  · exact Or.inl hxs
  · rcases more with _ | ⟨c, more⟩
    · exact Or.inr rfl
    · rcases h with hlast | hhead
      · have hd := hlast d (by simp)
        rw [hspaces d (by simp)] at hd
        cases hd
      · have hc := hhead c rfl
        rw [hspaces c (by simp)] at hc
        cases hc

theorem quotesClosed_append_iff (hxs : QuotesClosed xs) :
    QuotesClosed (xs ++ ys) ↔ QuotesClosed ys := by
  rw [quotesClosed_iff, quotesClosed_iff, Scan.run_append,
    Scan.quote_run_eq (quotesClosed_iff.mp hxs)]

theorem quotesClosed_of_isPlain (h : ∀ c ∈ cs, Scan.IsPlain c) : QuotesClosed cs :=
  (stays_of_isPlain (P := fun _ => True) trivial h).quotesClosed

theorem Spaces.isPlain (h : Spaces w) : ∀ c ∈ w, Scan.IsPlain c := fun c hc =>
  Scan.isPlain_of_isBlank (Text.isBlank_of_isSpace (h.2 c hc))

/-- A quote without its partner is open. -/
theorem not_quotesClosed_cons {q : Char} (hq : isQuote q = true) (hxs : q ∉ xs) :
    ¬ QuotesClosed (q :: xs) := by
  rw [quotesClosed_iff, Scan.run_cons, Scan.step_quote rfl hq, Scan.run_inside hxs]
  nofun

/-- A text that is cut outside quotes, and not inside a run of spaces, cuts the texts that differ
from it by spacing only. -/
theorem Respaced.cut (h : Respaced (xs ++ ys) ds) (hxs : QuotesClosed xs) (hseam : Seam xs ys) :
    ∃ xs' ys', xs' ++ ys' = ds ∧ Respaced xs xs' ∧ Respaced ys ys' := by
  generalize hcs : xs ++ ys = cs at h
  induction h generalizing xs with
  | nil =>
    obtain ⟨rfl, rfl⟩ := List.append_eq_nil_iff.mp hcs
    exact ⟨[], [], rfl, .nil, .nil⟩
  | @spaces w w' cs ds hw hw' h ih =>
    rcases List.append_eq_append_iff.mp hcs with ⟨more, rfl, rfl⟩ | ⟨more, rfl, hrest⟩
    · rcases hseam.eq_nil_of_spaces hw.2 with rfl | rfl
      · exact ⟨[], w' ++ ds, rfl, .nil, .spaces hw hw' h⟩
      · rw [List.append_nil] at hw
        exact ⟨w', ds, rfl, .of_spaces hw hw', h⟩
    · have hmore : QuotesClosed more :=
        (quotesClosed_append_iff (quotesClosed_of_isPlain hw.isPlain)).mp hxs
      obtain ⟨xs', ys', rfl, hxs', hys'⟩ := ih hmore hseam.of_append hrest.symm
      exact ⟨w' ++ xs', ys', List.append_assoc .., .spaces hw hw' hxs', hys'⟩
  | @char c cs ds hquote hspace h ih =>
    rcases List.append_eq_cons_iff.mp hcs with ⟨rfl, rfl⟩ | ⟨more, rfl, hrest⟩
    · exact ⟨[], c :: ds, rfl, .nil, .char hquote hspace h⟩
    · have hfront : QuotesClosed [c] := .cons hquote .nil
      rw [← List.singleton_append] at hxs hseam
      obtain ⟨xs', ys', rfl, hxs', hys'⟩ :=
        ih ((quotesClosed_append_iff hfront).mp hxs) hseam.of_append hrest.symm
      exact ⟨c :: xs', ys', rfl, .char hquote hspace hxs', hys'⟩
  | @quoted q inside cs ds hq hinside h ih =>
    rcases List.append_eq_cons_iff.mp hcs with ⟨rfl, rfl⟩ | ⟨tail, rfl, htail⟩
    · exact ⟨[], _, rfl, .nil, .quoted hq hinside h⟩
    · rcases List.append_eq_append_iff.mp htail.symm with ⟨more, rfl, -⟩ | ⟨more, rfl, hmore⟩
      · exact absurd hxs (not_quotesClosed_cons hq fun hmem =>
          hinside (List.mem_append_left _ hmem))
      · rcases List.cons_eq_append_iff.mp hmore with ⟨rfl, -⟩ | ⟨more, rfl, rfl⟩
        · rw [List.append_nil] at hxs
          exact absurd hxs (not_quotesClosed_cons hq hinside)
        · have hfront : QuotesClosed (q :: (inside ++ [q])) := .quoted hq hinside .nil
          have hparts : q :: (inside ++ q :: more) = q :: (inside ++ [q]) ++ more := by simp
          rw [hparts] at hxs hseam
          obtain ⟨xs', ys', rfl, hxs', hys'⟩ :=
            ih ((quotesClosed_append_iff hfront).mp hxs) hseam.of_append rfl
          exact ⟨q :: (inside ++ q :: xs'), ys', by simp, .quoted hq hinside hxs', hys'⟩
  | @unclosed q inside hq hinside =>
    rcases List.append_eq_cons_iff.mp hcs with ⟨rfl, rfl⟩ | ⟨tail, rfl, rfl⟩
    · exact ⟨[], _, rfl, .nil, .unclosed hq hinside⟩
    · exact absurd hxs (not_quotesClosed_cons hq fun hmem => hinside (List.mem_append_left _ hmem))

/-! ## Scans -/

/-- Outside quotes, a scan goes over a run of spaces and over a quoted text as if they were not
there, so it ends in the same way on both texts. -/
theorem Respaced.run_eq (h : Respaced cs ds) {s : Scan} (hs : s.quote = none) :
    s.run cs = s.run ds := by
  induction h generalizing s with
  | nil => rfl
  | spaces hw hw' _ ih =>
    rw [Scan.run_append, Scan.run_append, Scan.run_of_isPlain hs hw.isPlain,
      Scan.run_of_isPlain hs hw'.isPlain, ih hs]
  | char hquote _ _ ih => exact ih (Scan.quote_step hs hquote)
  | quoted hq hinside _ ih =>
    rw [List.append_cons, ← List.cons_append, Scan.run_append, Scan.run_quoted hs hq hinside,
      List.append_cons, ← List.cons_append, Scan.run_append, Scan.run_quoted hs hq hinside, ih hs]
  | unclosed => rfl

/-- Whatever a scan comes to within the one text, it comes to within the other. -/
theorem Respaced.exists_prefix (h : Respaced cs ds) {s : Scan} (hs : s.quote = none)
    {p : List Char} (hp : p <+: cs) : ∃ p', p' <+: ds ∧ s.run p' = s.run p := by
  induction h generalizing s p with
  | nil => exact ⟨p, hp, rfl⟩
  | @spaces w w' cs ds hw hw' _ ih =>
    rcases List.prefix_or_prefix_of_prefix hp (List.prefix_append w cs) with hpre | ⟨more, rfl⟩
    · refine ⟨[], List.nil_prefix, ?_⟩
      rw [Scan.run_of_isPlain hs fun c hc => hw.isPlain c (hpre.subset hc)]
      rfl
    · obtain ⟨p', hp', hrun⟩ := ih hs ((List.prefix_append_right_inj w).mp hp)
      refine ⟨w' ++ p', (List.prefix_append_right_inj w').mpr hp', ?_⟩
      rw [Scan.run_append, Scan.run_append, Scan.run_of_isPlain hs hw.isPlain,
        Scan.run_of_isPlain hs hw'.isPlain, hrun]
  | @char c cs ds hquote _ _ ih =>
    rcases List.prefix_cons_iff.mp hp with rfl | ⟨tail, rfl, htail⟩
    · exact ⟨[], List.nil_prefix, rfl⟩
    · obtain ⟨p', hp', hrun⟩ := ih (Scan.quote_step hs hquote) htail
      exact ⟨c :: p', (List.prefix_cons_inj c).mpr hp', hrun⟩
  | @quoted q inside cs ds hq hinside _ ih =>
    have hparts : ∀ rest, q :: (inside ++ q :: rest) = q :: (inside ++ [q]) ++ rest := by simp
    rw [hparts] at hp
    rw [hparts]
    rcases List.prefix_or_prefix_of_prefix hp (List.prefix_append _ cs) with hpre | ⟨more, rfl⟩
    · exact ⟨p, hpre.trans (List.prefix_append _ ds), rfl⟩
    · obtain ⟨p', hp', hrun⟩ := ih hs ((List.prefix_append_right_inj _).mp hp)
      refine ⟨q :: (inside ++ [q]) ++ p', (List.prefix_append_right_inj _).mpr hp', ?_⟩
      rw [Scan.run_append, Scan.run_append, Scan.run_quoted hs hq hinside, hrun]
  | unclosed => exact ⟨p, hp, rfl⟩

theorem Respaced.balanced (h : Respaced cs ds) (hcs : Balanced cs) : Balanced ds := by
  refine ⟨fun before after heq => ?_, ?_⟩
  · obtain ⟨p, ⟨rest, hp⟩, hrun⟩ := h.symm.exists_prefix (s := Scan.start) rfl ⟨after, heq⟩
    rw [← hrun]
    exact hcs.holds p rest hp
  · rw [← h.run_eq rfl, hcs.closed]

/-! ## The ends of a text -/

/-- The two characters are the same, or both are spaces. -/
def SameEnd (o o' : Option Char) : Prop :=
  o = o' ∨ (∃ c ∈ o, isSpace c = true) ∧ ∃ c ∈ o', isSpace c = true

theorem SameEnd.or {o o' p p' : Option Char} (h : SameEnd o o') (hp : SameEnd p p') :
    SameEnd (o.or p) (o'.or p') := by
  rcases h with rfl | ⟨⟨c, rfl, hc⟩, ⟨c', rfl, hc'⟩⟩
  · cases o with
    | none => exact hp
    | some c => exact Or.inl rfl
  · exact Or.inr ⟨⟨c, rfl, hc⟩, ⟨c', rfl, hc'⟩⟩

/-- A test that all spaces pass, or that none passes, has the same result on both. -/
theorem SameEnd.forall {o o' : Option Char} (h : SameEnd o o') {p : Char → Prop}
    (hp : (∀ c, isSpace c = true → p c) ∨ ∀ c, isSpace c = true → ¬ p c) (ho : ∀ c ∈ o, p c) :
    ∀ c ∈ o', p c := by
  rcases h with rfl | ⟨⟨c, hc, hspace⟩, ⟨c', hc', hspace'⟩⟩
  · exact ho
  · intro d hd
    cases Option.mem_unique hd hc'
    rcases hp with hall | hnone
    · exact hall c' hspace'
    · exact absurd (ho c hc) (hnone c hspace)

theorem Spaces.sameEnd {w w' : List Char} (hw : Spaces w) (hw' : Spaces w') :
    SameEnd w.head? w'.head? ∧ SameEnd w.getLast? w'.getLast? := by
  obtain ⟨hne, hall⟩ := hw
  obtain ⟨hne', hall'⟩ := hw'
  refine ⟨Or.inr ⟨⟨_, List.head?_eq_some_head hne, ?_⟩, ⟨_, List.head?_eq_some_head hne', ?_⟩⟩,
    Or.inr ⟨⟨_, List.getLast?_eq_some_getLast hne, ?_⟩,
      ⟨_, List.getLast?_eq_some_getLast hne', ?_⟩⟩⟩
  · exact hall _ (List.head_mem hne)
  · exact hall' _ (List.head_mem hne')
  · exact hall _ (List.getLast_mem hne)
  · exact hall' _ (List.getLast_mem hne')

theorem Respaced.head (h : Respaced cs ds) : SameEnd cs.head? ds.head? := by
  cases h with
  | nil => exact Or.inl rfl
  | spaces hw hw' h =>
    rw [List.head?_append_of_ne_nil _ hw.1, List.head?_append_of_ne_nil _ hw'.1]
    exact (hw.sameEnd hw').1
  | char => exact Or.inl rfl
  | quoted => exact Or.inl rfl
  | unclosed => exact Or.inl rfl

theorem Respaced.last (h : Respaced cs ds) : SameEnd cs.getLast? ds.getLast? := by
  induction h with
  | nil => exact Or.inl rfl
  | spaces hw hw' _ ih =>
    rw [List.getLast?_append, List.getLast?_append]
    exact ih.or (hw.sameEnd hw').2
  | @char c cs ds _ _ _ ih =>
    have hlast : ∀ rest, (c :: rest).getLast? = rest.getLast?.or (some c) := fun rest =>
      List.getLast?_append (l := [c])
    rw [hlast, hlast]
    exact ih.or (Or.inl rfl)
  | @quoted q inside cs ds _ _ _ ih =>
    have hlast : ∀ rest, (q :: (inside ++ q :: rest)).getLast? = rest.getLast?.or (some q) := by
      intro rest
      rw [List.append_cons, ← List.cons_append, List.getLast?_append, ← List.cons_append,
        List.getLast?_concat]
    rw [hlast, hlast]
    exact ih.or (Or.inl rfl)
  | unclosed => exact Or.inl rfl

theorem Respaced.eq_nil_iff (h : Respaced cs ds) : cs = [] ↔ ds = [] := by
  rw [← List.head?_eq_none_iff, ← List.head?_eq_none_iff]
  rcases h.head with heq | ⟨⟨c, hc, -⟩, ⟨c', hc', -⟩⟩
  · rw [heq]
  · rw [hc, hc']
    exact iff_of_false nofun nofun

/-! ## Trimming -/

theorem Respaced.blank (h : Respaced cs ds) (hcs : Blank cs) : Blank ds := by
  induction h with
  | nil => exact hcs
  | spaces _ hw' _ ih =>
    exact Blank.append (fun c hc => Text.isBlank_of_isSpace (hw'.2 c hc))
      (ih fun c hc => hcs c (List.mem_append_right _ hc))
  | @char c cs ds _ _ _ ih =>
    exact List.forall_mem_cons.mpr ⟨hcs c (List.mem_cons_self ..),
      ih fun d hd => hcs d (List.mem_cons_of_mem _ hd)⟩
  | @quoted q inside cs ds hq _ _ _ =>
    have hblank := hcs q (List.mem_cons_self ..)
    rw [isBlank_eq_false_of_isQuote hq] at hblank
    cases hblank
  | unclosed => exact hcs

theorem Respaced.tight (h : Respaced cs ds) (hcs : Tight cs) : Tight ds where
  ne_nil hnil := hcs.ne_nil (h.eq_nil_iff.mpr hnil)
  head := h.head.forall (Or.inr fun c hc => by simp [Text.isBlank_of_isSpace hc]) hcs.head
  last := h.last.forall (Or.inr fun c hc => by simp [Text.isBlank_of_isSpace hc]) hcs.last

/-- Trimming cuts off the same ends of both texts, up to their spacing. -/
theorem Respaced.trim (h : Respaced cs ds) (hcs : QuotesClosed cs) :
    Respaced (Text.trim cs) (Text.trim ds) := by
  by_cases hblank : Blank cs
  · rw [trim_eq_nil_of_blank hblank, trim_eq_nil_of_blank (h.blank hblank)]
    exact .nil
  · have htight := tight_trim (trim_ne_nil_of_not_blank hblank)
    obtain ⟨w, w', heq, hw, hw'⟩ := Text.exists_eq_append_trim cs
    generalize Text.trim cs = inner at htight heq ⊢
    subst heq
    rw [List.append_assoc] at h hcs
    have hwClosed : QuotesClosed w := (balanced_of_isBlank hw).quotesClosed
    have hinner : QuotesClosed inner := by
      have hrest := (quotesClosed_append_iff hwClosed).mp hcs
      rwa [quotesClosed_iff, Scan.run_append_of_isBlank inner hw', ← quotesClosed_iff] at hrest
    have hfirst : Seam w (inner ++ w') := by
      refine Or.inr fun c hc => ?_
      rw [List.head?_append_of_ne_nil _ htight.ne_nil] at hc
      exact isSpace_eq_false_of_isBlank (htight.head c hc)
    have hlast : Seam inner w' :=
      Or.inl fun c hc => isSpace_eq_false_of_isBlank (htight.last c hc)
    obtain ⟨v, rest, rfl, hv, hrest⟩ := h.cut hwClosed hfirst
    obtain ⟨inner', v', rfl, hinner', hv'⟩ := hrest.cut hinner hlast
    rw [← List.append_assoc, (hinner'.tight htight).trim_append (hv.blank hw) (hv'.blank hw')]
    exact hinner'

end Rulebook.Rule
