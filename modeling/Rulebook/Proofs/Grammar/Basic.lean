import Rulebook.Proofs.ConditionText
import Rulebook.Proofs.Keyword
import Rulebook.Tree.Basic

/-!
# The grammar of rules

Rules are parsed by a scan that peels groups off and cuts at keywords; no grammar is followed
anywhere.  This file says which texts are rules without a scan:

    Rule ::= W And W
    And  ::= Or   | Or W "AND" W And
    Or   ::= Atom | Atom W "OR" W Or
    Atom ::= LEAF | "(" W And W ")"

Here `W` is a run of Unicode white space, possibly empty, each keyword has a delimiter right before
it and right after it, and a `LEAF` is the text of a condition in which, outside quotes, no keyword
stands between delimiters or at an end.  `AND` and `OR` chains differ only in what they join, so the
two are one family of levels, `Level.chain`.

What later files use are the properties that each derivation passes on: a derived text is tight
(`Derives.tight`) and balanced (`Derives.balanced`), and keywords of the levels above it do not
count in it (`Derives.free`).  The last one is why the first place where a keyword counts is the
one that the derivation has used (`countsFirst_chain`).
-/

namespace Rulebook.Rule

open Text (isBlank isDelimiter trim trimStart trimEnd)

/-! ## The grammar -/

/-- White space of any length. -/
def Blank (cs : List Char) : Prop := ∀ c ∈ cs, isBlank c = true

theorem Blank.append {w w' : List Char} (hw : Blank w) (hw' : Blank w') : Blank (w ++ w') := by
  intro c hc
  rcases List.mem_append.mp hc with h | h
  · exact hw c h
  · exact hw' c h

/-- A word stands between two parts of a text: it is not in quotes, and each of its neighbours is a
delimiter or an end of the text. -/
structure Stands (word cs before after : List Char) : Prop where
  parts : before ++ word ++ after = cs
  unquoted : QuotesClosed before
  left : ∀ c ∈ before.getLast?, isDelimiter c = true
  right : ∀ c ∈ after.head?, isDelimiter c = true

/-- A text without white space at its ends that reads as a condition and in which no keyword
stands. -/
structure IsLeaf (cs : List Char) (c : Condition) : Prop where
  head : ∀ d ∈ cs.head?, isBlank d = false
  last : ∀ d ∈ cs.getLast?, isBlank d = false
  reads : Condition.read cs = .ok c
  noKeyword : ∀ (k : Connective) (before after : List Char),
    ¬ Stands k.keyword.toList cs before after

/-- The nonterminals: `chain .and` is `And`, `chain .or` is `Or`, `atom` is `Atom`. -/
inductive Level where
  | chain (k : Connective)
  | atom

/-- What the keyword of a connective joins. -/
def operandLevel : Connective → Level
  | .and => .chain .or
  | .or => .atom

/-- The derivations of the grammar, each with the tree that it stands for. -/
inductive Derives : Level → List Char → Tree → Prop where
  | leaf {cs : List Char} {c : Condition} (h : IsLeaf cs c) : Derives .atom cs (.leaf c)
  | group {w cs w' : List Char} {t : Tree} (hw : Blank w) (h : Derives (.chain .and) cs t)
      (hw' : Blank w') : Derives .atom ('(' :: (w ++ cs ++ w' ++ [')'])) t
  | operand {k : Connective} {cs : List Char} {t : Tree} (h : Derives (operandLevel k) cs t) :
      Derives (.chain k) cs t
  | chain {k : Connective} {cs w w' ds : List Char} {left right : Tree}
      (hleft : Derives (operandLevel k) cs left) (hw : Blank w)
      (hbefore : ∃ c ∈ (cs ++ w).getLast?, isDelimiter c = true)
      (hafter : ∃ c ∈ (w' ++ ds).head?, isDelimiter c = true) (hw' : Blank w')
      (hright : Derives (.chain k) ds right) :
      Derives (.chain k) (cs ++ w ++ k.keyword.toList ++ (w' ++ ds)) (.node k left right)

/-- A text is a rule with this tree. -/
def IsRule (cs : List Char) (t : Tree) : Prop :=
  ∃ w inner w', cs = w ++ inner ++ w' ∧ Blank w ∧ Blank w' ∧ Derives (.chain .and) inner t

/-! ## Tight texts -/

/-- A text that is not empty and has no white space at its ends. -/
structure Tight (cs : List Char) : Prop where
  ne_nil : cs ≠ []
  head : ∀ c ∈ cs.head?, isBlank c = false
  last : ∀ c ∈ cs.getLast?, isBlank c = false

/-- White space around a tight text is what trimming removes. -/
theorem Tight.trim_append {cs w w' : List Char} (h : Tight cs) (hw : Blank w) (hw' : Blank w') :
    trim (w ++ cs ++ w') = cs := by
  have hstart : trimStart (w ++ cs ++ w') = cs ++ w' := by
    rw [List.append_assoc, trimStart, List.dropWhile_append_of_pos hw, ← trimStart,
      Text.trimStart_eq_self_iff, List.head?_append_of_ne_nil _ h.ne_nil]
    exact h.head
  have hend : trimEnd (cs ++ w') = trimEnd cs := by
    rw [trimEnd, trimEnd, List.reverse_append,
      List.dropWhile_append_of_pos fun c hc => hw' c (List.mem_reverse.mp hc)]
  rw [trim, hstart, hend, Text.trimEnd_eq_self_iff.mpr h.last]

theorem Tight.trim_append_right {cs w : List Char} (h : Tight cs) (hw : Blank w) :
    trim (cs ++ w) = cs := by
  simpa using h.trim_append (w := []) (fun c hc => absurd hc (by simp)) hw

theorem Tight.trim_append_left {cs w : List Char} (h : Tight cs) (hw : Blank w) :
    trim (w ++ cs) = cs := by
  have htrim := h.trim_append hw (fun c (hc : c ∈ []) => absurd hc (by simp))
  rwa [List.append_nil] at htrim

theorem Tight.append {cs ds : List Char} (hcs : Tight cs) (hds : Tight ds) (middle : List Char) :
    Tight (cs ++ middle ++ ds) where
  ne_nil h := hds.ne_nil (List.append_eq_nil_iff.mp h).2
  head c hc := by
    rw [List.append_assoc, List.head?_append_of_ne_nil _ hcs.ne_nil] at hc
    exact hcs.head c hc
  last c hc := by
    rw [List.getLast?_append_of_ne_nil _ hds.ne_nil] at hc
    exact hds.last c hc

/-- A group is tight whatever it holds. -/
theorem tight_group (cs : List Char) : Tight ('(' :: (cs ++ [')'])) where
  ne_nil := List.cons_ne_nil _ _
  head c hc := by
    cases hc
    rfl
  last c hc := by
    rw [List.getLast?_cons, List.getLast?_concat] at hc
    cases hc
    rfl

theorem IsLeaf.ofTrimmed? {cs : List Char} {c : Condition} (h : IsLeaf cs c) :
    Condition.ofTrimmed? cs = some c := by
  have hreads := read_eq_ok_iff.mp h.reads
  rwa [Text.trim_eq_self_iff.mpr ⟨h.head, h.last⟩] at hreads

theorem IsLeaf.tight {cs : List Char} {c : Condition} (h : IsLeaf cs c) : Tight cs := by
  obtain ⟨first, rest, rfl, -⟩ := head?_ne_open_of_ofTrimmed? h.ofTrimmed?
  exact ⟨List.cons_ne_nil _ _, h.head, h.last⟩

variable {level : Level} {k : Connective} {cs : List Char} {t : Tree}

theorem Derives.tight (h : Derives level cs t) : Tight cs := by
  induction h with
  | leaf h => exact h.tight
  | group => exact tight_group _
  | operand _ ih => exact ih
  | @chain k cs w w' ds left right _ _ _ _ _ _ ihleft ihright =>
    have heq : cs ++ w ++ k.keyword.toList ++ (w' ++ ds) =
        cs ++ (w ++ k.keyword.toList ++ w') ++ ds := by
      simp only [List.append_assoc]
    rw [heq]
    exact ihleft.append ihright _

/-! ## Balance -/

theorem balanced_keyword (k : Connective) : Balanced k.keyword.toList :=
  stays_of_isPlain (Int.le_refl 0) fun _ hc => isPlain_of_mem_keyword hc

theorem Derives.balanced (h : Derives level cs t) : Balanced cs := by
  induction h with
  | leaf h => exact (flat_of_ofTrimmed? h.ofTrimmed?).balanced
  | group hw _ hw' ih =>
    exact Balanced.group (((balanced_of_isBlank hw).append ih).append (balanced_of_isBlank hw'))
  | operand _ ih => exact ih
  | chain _ hw _ _ hw' _ ihleft ihright =>
    exact ((ihleft.append (balanced_of_isBlank hw)).append (balanced_keyword _)).append
      ((balanced_of_isBlank hw').append ihright)

/-! ## Keywords that do not count -/

theorem Counts.stands {word before after : List Char} (h : Counts word cs before after) :
    Stands word cs before after :=
  ⟨h.parts, quotesClosed_iff.mpr (by rw [Scan.isGround_iff.mp h.ground]; rfl), h.left, h.right⟩

/-- Where no parenthesis is open, a word that stands counts. -/
theorem Stands.counts {word before after : List Char} (h : Stands word cs before after)
    (hflat : Flat cs) : Counts word cs before after where
  parts := h.parts
  ground := by
    have hquote := quotesClosed_iff.mp h.unquoted
    have hdepth := hflat.holds before (word ++ after) (by rw [← List.append_assoc, h.parts])
    simp [Scan.isGround, hquote, hdepth]
  left := h.left
  right := h.right

/-- A word does not count in a text that lacks one of its characters. -/
theorem free_of_notMem {word : List Char} {c : Char} (hc : c ∈ word) (hcs : c ∉ cs) :
    Free word cs := by
  intro before after h
  refine hcs ?_
  rw [← h.parts]
  exact List.mem_append_left _ (List.mem_append_right _ hc)

theorem Blank.free (h : Blank cs) (k : Connective) : Free k.keyword.toList cs := by
  obtain ⟨c, hc⟩ := List.exists_mem_of_ne_nil _ (keyword_ne_nil k)
  refine free_of_notMem hc fun hmem => ?_
  have hblank := h c hmem
  rw [(marks_of_mem_keyword k hc).1] at hblank
  cases hblank

/-- Inside a group no keyword counts. -/
theorem Balanced.free_group (h : Balanced cs) (k : Connective) :
    Free k.keyword.toList ('(' :: (cs ++ [')'])) := by
  have hplain : ∀ c ∈ k.keyword.toList, Scan.IsPlain c := fun _ hc => isPlain_of_mem_keyword hc
  obtain ⟨first, word, hword⟩ := List.exists_cons_of_ne_nil (keyword_ne_nil k)
  rw [hword] at hplain ⊢
  have hfirst := hplain first (List.mem_cons_self ..)
  rintro before after ⟨hparts, hground, -, -⟩
  rw [List.append_assoc, List.cons_append] at hparts
  rcases List.append_eq_cons_iff.mp hparts with ⟨-, hhead⟩ | ⟨inner, rfl, hinner⟩
  · exact hfirst.2.1 (List.cons.inj hhead).1
  · rcases List.append_eq_append_iff.mp hinner with ⟨more, -, hlast⟩ | ⟨more, hcs, -⟩
    · rcases List.cons_eq_append_iff.mp hlast with ⟨-, hhead⟩ | ⟨tail, -, hnil⟩
      · exact hfirst.2.2 (List.cons.inj hhead).1
      · exact absurd hnil.symm (by simp)
    · -- the place is inside the group, where the depth is positive
      have hdepth := Balanced.one_le_depth (hcs ▸ h)
      rw [Scan.isGround_iff.mp hground] at hdepth
      exact absurd hdepth (by decide)

theorem IsLeaf.free {c : Condition} (h : IsLeaf cs c) (k : Connective) :
    Free k.keyword.toList cs :=
  fun before after hcounts => h.noKeyword k before after hcounts.stands

/-- No character of a keyword stands next to a seam at which a delimiter or a blank stands. -/
theorem notMem_keyword (k : Connective) {c : Char}
    (h : isDelimiter c = true ∨ isBlank c = true) : c ∉ k.keyword.toList := by
  intro hmem
  obtain ⟨hblank, hdelimiter, -⟩ := marks_of_mem_keyword k hmem
  rcases h with h | h
  · rw [hdelimiter] at h
    cases h
  · rw [hblank] at h
    cases h

/-- The levels in whose texts a keyword does not count. -/
def Level.IsBelow : Level → Connective → Prop
  | .atom, _ => True
  | .chain .or, .and => True
  | .chain _, _ => False

theorem operandLevel_isBelow (k : Connective) : (operandLevel k).IsBelow k := by
  cases k <;> exact trivial

/-- The keyword of a chain that is below a connective is `OR`, and what the chain joins is below as
well. -/
theorem Level.IsBelow.of_chain {k k' : Connective} (h : (Level.chain k).IsBelow k') :
    k = .or ∧ k' = .and ∧ (operandLevel k).IsBelow k' := by
  cases k with
  | and => cases k' <;> cases h
  | or =>
    cases k' with
    | and => exact ⟨rfl, rfl, trivial⟩
    | or => cases h

/-! ## The first keyword of a chain -/

variable {w ds : List Char}

theorem Free.append_blank (h : Free k.keyword.toList cs) (hcs : Balanced cs) (hw : Blank w) :
    Free k.keyword.toList (cs ++ w) :=
  h.append (hw.free k) hcs.isGround
    (Or.inr fun c hc => notMem_keyword k (Or.inr (hw c (List.mem_of_mem_head? hc))))

theorem Free.blank_append (h : Free k.keyword.toList cs) (hw : Blank w) :
    Free k.keyword.toList (w ++ cs) :=
  (hw.free k).append h (balanced_of_isBlank hw).isGround
    (Or.inl fun c hc => notMem_keyword k (Or.inr (hw c (List.mem_of_mem_getLast? hc))))

/-- Next to a delimiter a text cannot be cut inside a keyword. -/
theorem notMem_keyword_of_delimiter {o : Option Char} (h : ∃ c ∈ o, isDelimiter c = true) :
    ∀ c ∈ o, c ∉ k.keyword.toList := by
  obtain ⟨d, hd, hdelimiter⟩ := h
  intro c hc
  cases Option.mem_unique hd hc
  exact notMem_keyword k (Or.inl hdelimiter)

/-- In a text of a level, the keywords above the level do not count. -/
theorem Derives.free (h : Derives level cs t) (hk : level.IsBelow k) :
    Free k.keyword.toList cs := by
  induction h with
  | leaf h => exact h.free k
  | group hw h hw' _ =>
    exact Balanced.free_group
      (((balanced_of_isBlank hw).append h.balanced).append (balanced_of_isBlank hw')) k
  | operand _ ih => exact ih hk.of_chain.2.2
  | @chain joint cs w w' ds _ _ hleft hw hbefore hafter hw' hright ihleft ihright =>
    obtain ⟨rfl, rfl, hbelow⟩ := hk.of_chain
    have hcs : Balanced (cs ++ w) := hleft.balanced.append (balanced_of_isBlank hw)
    have hcsFree := (ihleft hbelow).append_blank hleft.balanced hw
    have hdsFree := (ihright hk).blank_append hw'
    -- there is no `N` in `OR`
    have hkeyword : Free Connective.and.keyword.toList Connective.or.keyword.toList :=
      free_of_notMem (c := 'N') (by decide) (by decide)
    refine Free.append (Free.append hcsFree hkeyword hcs.isGround ?_) hdsFree
      (hcs.append (balanced_keyword _)).isGround ?_
    · exact Or.inl (notMem_keyword_of_delimiter hbefore)
    · exact Or.inr (notMem_keyword_of_delimiter hafter)

/-- A keyword that counts does so first exactly if it does not count in the text before it. -/
theorem Counts.countsFirst_iff {before after : List Char}
    (h : Counts k.keyword.toList cs before after) :
    CountsFirst k.keyword.toList cs before after ↔ Free k.keyword.toList before := by
  have hseam : ∀ c ∈ before.getLast?, c ∉ k.keyword.toList := fun c hc =>
    notMem_keyword k (Or.inl (h.left c hc))
  constructor
  · intro hfirst before' rest hcounts
    have hparts := hcounts.parts
    rcases eq_or_ne rest [] with rfl | hrest
    · obtain ⟨d, hd⟩ : ∃ d, d ∈ k.keyword.toList.getLast? :=
        ⟨_, List.getLast?_eq_some_getLast (keyword_ne_nil k)⟩
      have hlast : before.getLast? = k.keyword.toList.getLast? := by
        rw [← hparts, List.append_nil, List.getLast?_append_of_ne_nil _ (keyword_ne_nil k)]
      exact hseam d (hlast ▸ hd) (List.mem_of_mem_getLast? hd)
    · have hcounts' : Counts k.keyword.toList cs before' (rest ++ (k.keyword.toList ++ after)) := by
        refine ⟨?_, hcounts.ground, hcounts.left, fun c hc => ?_⟩
        · simp only [← h.parts, ← hparts, List.append_assoc]
        · rw [List.head?_append_of_ne_nil _ hrest] at hc
          exact hcounts.right c hc
      have hle := hfirst.first _ _ hcounts'
      have hlength := congrArg List.length hparts
      have hpos := List.length_pos_iff.mpr hrest
      simp only [List.length_append] at hlength
      omega
  · intro hfree
    refine ⟨h, fun before' after' h' => ?_⟩
    rw [← h.parts, List.append_assoc] at h'
    rcases h'.cases h.ground (Or.inl hseam) with ⟨more, hmore⟩ | ⟨more, rfl, -⟩
    · exact absurd hmore (hfree _ _)
    · exact (List.prefix_append _ more).length_le

/-- The keyword of a chain counts, and nowhere before does it count. -/
theorem countsFirst_chain (hleft : Derives (operandLevel k) cs t) (hw : Blank w)
    (hbefore : ∃ c ∈ (cs ++ w).getLast?, isDelimiter c = true)
    (hafter : ∃ c ∈ ds.head?, isDelimiter c = true) :
    CountsFirst k.keyword.toList (cs ++ w ++ k.keyword.toList ++ ds) (cs ++ w) ds := by
  have hcs : Balanced (cs ++ w) := hleft.balanced.append (balanced_of_isBlank hw)
  have hcounts : Counts k.keyword.toList (cs ++ w ++ k.keyword.toList ++ ds) (cs ++ w) ds := by
    refine ⟨rfl, hcs.isGround, fun c hc => ?_, fun c hc => ?_⟩
    · obtain ⟨d, hd, hdelimiter⟩ := hbefore
      cases Option.mem_unique hd hc
      exact hdelimiter
    · obtain ⟨d, hd, hdelimiter⟩ := hafter
      cases Option.mem_unique hd hc
      exact hdelimiter
  exact hcounts.countsFirst_iff.mpr
    ((hleft.free (operandLevel_isBelow k)).append_blank hleft.balanced hw)

end Rulebook.Rule
