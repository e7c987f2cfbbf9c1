import Rulebook.Proofs.ConditionText

/-!
# The grammar of conditions

The reader of conditions never looks back: it takes a name, drops blanks, takes a comparator, drops
blanks, and what is left has to be a literal.  Without a reader, a text is a condition if it can be
put together from parts (`Condition.Parts`) as this grammar says:

    Condition  ::= Name W Comparator W Literal
    Name       ::= first character of a name, then word characters
    Comparator ::= ">" | "<" | ">=" | "<=" | "=" | "!="
    Literal    ::= "'" inside "'" | '"' inside '"' | bare word

Here `W` is a run of Unicode white space, possibly empty.  The comparators overlap, the name may run
through all of Unicode, and blanks are never needed, so a text might be cut in several ways.  It is
not: what follows a part always starts with a character that the part cannot go on with.  Each
reader of a part therefore stops where the part ends (`takeName?_append`, `takeComparator?_append`,
`readLiteral?_eq_some_iff`), a text has at most one cut (`Condition.Parts.eq_of_text_eq`), and the
reader finds it (`Condition.Parts.ofTrimmed?_text`).  `Condition.ofString_grammar` says all of this
about the reader of strings.
-/

namespace Rulebook

open Text (isBlank isNameStart isQuote isWord trim)

/-! ## Characters -/

namespace Text

/-- White space as ranges. -/
def blankRanges : Ranges :=
  [(0x09, 0x0D), (0x20, 0x20), (0x85, 0x85), (0xA0, 0xA0), (0x1680, 0x1680), (0x2000, 0x200A),
   (0x2028, 0x2029), (0x202F, 0x202F), (0x205F, 0x205F), (0x3000, 0x3000)]

theorem contains_blankRanges {c : Char} (h : isBlank c = true) :
    blankRanges.contains c = true := by
  simp only [isBlank, Bool.or_eq_true, Bool.and_eq_true, decide_eq_true_eq, beq_iff_eq] at h
  simp only [blankRanges, Ranges.contains_cons, Ranges.contains_nil, Bool.or_eq_true,
    Bool.and_eq_true, decide_eq_true_eq, Bool.false_eq_true, or_false]
  omega

/-- No range of the one list meets a range of the other. -/
def Ranges.apart (left right : Ranges) : Bool :=
  left.all fun l => right.all fun r => l.2 < r.1 || r.2 < l.1

theorem Ranges.contains_eq_false_of_apart {left right : Ranges} {c : Char}
    (h : left.apart right = true) (hleft : left.contains c = true) :
    right.contains c = false := by
  obtain ⟨l, hl, hcl⟩ := List.any_eq_true.mp hleft
  refine List.any_eq_false.mpr fun r hr hcr => ?_
  have hlr := List.all_eq_true.mp (List.all_eq_true.mp h l hl) r hr
  simp only [Bool.and_eq_true, Bool.or_eq_true, decide_eq_true_eq] at hcl hcr hlr
  omega

/-- White space that is ASCII is no word character. -/
theorem isWord_eq_false_of_isBlank_ascii {c : Char} (hascii : c.toNat < 0x80)
    (h : isBlank c = true) : isWord c = false := by
  have hall : ∀ n < 0x80, isBlank (Char.ofNat n) = true → isWord (Char.ofNat n) = false := by
    decide
  simpa only [Char.ofNat_toNat] using hall c.toNat hascii (by rwa [Char.ofNat_toNat])

/-- White space is no word character. -/
theorem isWord_eq_false_of_isBlank {c : Char} (h : isBlank c = true) : isWord c = false := by
  by_cases hascii : c.toNat < 0x80
  · exact isWord_eq_false_of_isBlank_ascii hascii h
  · rw [isWord, if_neg hascii]
    -- The table of word characters is long, so the kernel runs through it.
    have hapart : blankRanges.apart wordRanges = true := by decide +kernel
    exact Ranges.contains_eq_false_of_apart hapart (contains_blankRanges h)

end Text

/-! ## Literals -/

/-- A literal begins neither with white space nor with the second character of a comparator. -/
theorem IsLiteral.head {cs : List Char} {l : Literal} (h : IsLiteral cs l) :
    ∀ d ∈ cs.head?, isBlank d = false ∧ d ≠ '=' := by
  have hbare : ∀ d, IsBareCharacter d → isBlank d = false ∧ d ≠ '=' :=
    fun d ⟨hblank, hmark⟩ => ⟨hblank, fun heq => hmark (by simp [heq])⟩
  intro d hd
  cases h with
  | quoted hquote =>
    cases hd
    rcases hquote with rfl | rfl <;> decide
  | number _ hall => exact hbare d (hall d (List.mem_of_mem_head? hd))
  | word _ hall => exact hbare d (hall d (List.mem_of_mem_head? hd))

theorem IsLiteral.value_ne {cs : List Char} {l : Literal} (h : IsLiteral cs l) :
    (∀ x, l = .number x → x.isNaN = false) ∧ l ≠ .text "" := by
  have htext : ∀ {ds : List Char}, ds ≠ [] → Literal.text (String.ofList ds) ≠ .text "" :=
    fun hne heq => hne (String.ofList_eq_empty_iff.mp (Literal.text.inj heq))
  cases h with
  | quoted _ hne => exact ⟨nofun, htext hne⟩
  | number _ _ hread =>
    refine ⟨fun x hx => ?_, nofun⟩
    cases hx
    exact Binary64.isNaN_of_read? hread
  | word hne => exact ⟨nofun, htext hne⟩

/-! ## Names and comparators -/

/-- A name is taken whole where no word character follows it. -/
theorem takeName?_append {first : Char} {more rest : List Char} (hfirst : isNameStart first = true)
    (hmore : ∀ d ∈ more, isWord d = true) (hrest : ∀ d ∈ rest.head?, isWord d = false) :
    takeName? (first :: more ++ rest) = some (first :: more, rest) := by
  obtain ⟨htake, hdrop⟩ := span_append hmore hrest
  rw [List.cons_append, takeName?, if_pos hfirst, htake, hdrop]

/-- A comparator is taken whole where no `=` follows it. -/
theorem takeComparator?_append {rest : List Char} (k : Comparator)
    (hrest : ∀ d ∈ rest.head?, d ≠ '=') :
    takeComparator? (k.symbol.toList ++ rest) = some (k, rest) := by
  cases rest with
  | nil => cases k <;> rfl
  | cons d rest =>
    have hd : d ≠ '=' := hrest d rfl
    cases k <;> simp [Comparator.symbol, takeComparator?, hd]

/-- A comparator begins neither with white space nor with a word character. -/
theorem Comparator.head_symbol (k : Comparator) (rest : List Char) :
    ∀ d ∈ (k.symbol.toList ++ rest).head?, isBlank d = false ∧ isWord d = false := by
  cases k <;> simp [Comparator.symbol] <;> decide

/-! ## Parts -/

namespace Condition.Parts

variable (p : Parts)

theorem span_afterComparator :
    p.afterComparator.takeWhile isBlank = p.gap' ∧
      p.afterComparator.dropWhile isBlank = p.token :=
  span_append p.gap'_isBlank fun d hd => (p.isLiteral.head d hd).1

theorem takeComparator?_afterGap :
    takeComparator? p.afterGap = some (p.comparator, p.afterComparator) := by
  refine takeComparator?_append _ fun d hd heq => ?_
  rw [afterComparator, List.head?_append, Option.mem_def, Option.or_eq_some_iff] at hd
  rcases hd with hgap | ⟨-, htoken⟩
  · have hblank := p.gap'_isBlank d (List.mem_of_mem_head? hgap)
    rw [heq] at hblank
    exact absurd hblank (by decide)
  · exact (p.isLiteral.head d htoken).2 heq

theorem span_afterName :
    p.afterName.takeWhile isBlank = p.gap ∧ p.afterName.dropWhile isBlank = p.afterGap :=
  span_append p.gap_isBlank fun d hd => (p.comparator.head_symbol _ d hd).1

theorem takeName?_text : takeName? p.text = some (p.first :: p.more, p.afterName) := by
  refine takeName?_append (isNameStart_iff.mpr p.first_spec) p.more_isWord fun d hd => ?_
  rw [afterName, List.head?_append, Option.mem_def, Option.or_eq_some_iff] at hd
  rcases hd with hgap | ⟨-, hsymbol⟩
  · exact Text.isWord_eq_false_of_isBlank (p.gap_isBlank d (List.mem_of_mem_head? hgap))
  · exact (p.comparator.head_symbol _ d hsymbol).2

/-- The reader finds the parts of a text. -/
theorem ofTrimmed?_text : Condition.ofTrimmed? p.text = some p.condition := by
  have hliteral := readLiteral?_eq_some_iff.mpr p.isLiteral
  simp only [Condition.ofTrimmed?, p.takeName?_text, Option.bind_eq_bind, Option.bind_some,
    p.span_afterName.2, p.takeComparator?_afterGap, p.span_afterComparator.2, hliteral,
    Option.pure_def, condition]

variable {p} {q : Parts}

/-- A text can be cut into parts in one way only. -/
theorem eq_of_text_eq (h : p.text = q.text) : p = q := by
  -- Each reader gives the same result on both texts, so the parts agree from left to right.
  have hname := p.takeName?_text
  rw [h, q.takeName?_text, Option.some_inj, Prod.mk.injEq, List.cons.injEq] at hname
  obtain ⟨⟨hfirst, hmore⟩, hafterName⟩ := hname
  obtain ⟨hgap, hafterGap⟩ := p.span_afterName
  rw [← hafterName, q.span_afterName.1] at hgap
  rw [← hafterName, q.span_afterName.2] at hafterGap
  have hcomparator := p.takeComparator?_afterGap
  rw [← hafterGap, q.takeComparator?_afterGap, Option.some_inj, Prod.mk.injEq] at hcomparator
  obtain ⟨hcomparator, hafterComparator⟩ := hcomparator
  obtain ⟨hgap', htoken⟩ := p.span_afterComparator
  rw [← hafterComparator, q.span_afterComparator.1] at hgap'
  rw [← hafterComparator, q.span_afterComparator.2] at htoken
  have hliteral := readLiteral?_eq_some_iff.mpr p.isLiteral
  rw [← htoken, readLiteral?_eq_some_iff.mpr q.isLiteral, Option.some_inj] at hliteral
  cases p
  cases q
  simp only at hfirst hmore hgap hcomparator hgap' htoken hliteral
  subst hfirst hmore hgap hcomparator hgap' htoken hliteral
  rfl

end Condition.Parts

/-! ## Reading by the grammar -/

namespace Condition

/-- The conditions that a string can be read as are those with the parts of the string. -/
theorem ofString_eq_ok_iff {s : String} {c : Condition} :
    Condition.ofString s = .ok c ↔ ∃ p : Parts, p.text = trim s.toList ∧ p.condition = c := by
  rw [Condition.ofString, read_eq_ok_iff]
  constructor
  · exact Parts.exists_of_ofTrimmed?
  · rintro ⟨p, htext, rfl⟩
    rw [← htext, p.ofTrimmed?_text]

/-- No condition has a NaN or an empty text as its literal. -/
theorem literal_ne_of_ofString {s : String} {c : Condition} (h : Condition.ofString s = .ok c) :
    (∀ x, c.literal = .number x → x.isNaN = false) ∧ c.literal ≠ .text "" := by
  obtain ⟨p, -, rfl⟩ := ofString_eq_ok_iff.mp h
  exact p.isLiteral.value_ne

/-- The reader accepts the texts that the grammar has, each with its only reading: the name, the
comparator and the literal are the parts of the trimmed text, which is kept whole.  Every other text
is refused as one that is no comparison.  The literal is no NaN and no empty text, and the text kept
with the condition reads as the same condition again. -/
theorem ofString_grammar (s : String) :
    ((∃ c, Condition.ofString s = .ok c) ↔ ∃ p : Parts, p.text = trim s.toList) ∧
      (∀ p : Parts, p.text = trim s.toList →
        (∀ q : Parts, q.text = trim s.toList → q = p) ∧
          Condition.ofString s = .ok ⟨String.ofList (p.first :: p.more), p.comparator, p.literal,
            String.ofList (trim s.toList)⟩) ∧
      ((¬∃ p : Parts, p.text = trim s.toList) →
        Condition.ofString s =
          .error (.condition (.noComparison (String.ofList (trim s.toList))))) ∧
      ∀ c, Condition.ofString s = .ok c →
        (∀ x, c.literal = .number x → x.isNaN = false) ∧ c.literal ≠ .text "" ∧
          c.raw = String.ofList (trim s.toList) ∧ Condition.ofString c.raw = .ok c := by
  have hparts : ∀ p : Parts, p.text = trim s.toList → Condition.ofString s = .ok p.condition :=
    fun p htext => ofString_eq_ok_iff.mpr ⟨p, htext, rfl⟩
  have haccepts : (∃ c, Condition.ofString s = .ok c) ↔
      ∃ p : Parts, p.text = trim s.toList := by
    constructor
    · rintro ⟨c, hc⟩
      obtain ⟨p, htext, -⟩ := ofString_eq_ok_iff.mp hc
      exact ⟨p, htext⟩
    · rintro ⟨p, htext⟩
      exact ⟨_, hparts p htext⟩
  refine ⟨haccepts, fun p htext => ⟨fun q hq => ?_, ?_⟩, fun hnone => ?_, fun c hc => ?_⟩
  · exact Parts.eq_of_text_eq (hq.trans htext.symm)
  · rw [hparts p htext, Parts.condition, htext]
  · cases hread : Condition.ofString s with
    | ok c => exact absurd (haccepts.mp ⟨c, hread⟩) hnone
    | error e => rw [eq_of_read_eq_error hread]
  · obtain ⟨hnumber, htext⟩ := literal_ne_of_ofString hc
    exact ⟨hnumber, htext, raw_of_read hc, ofString_raw hc⟩

/-- No space is needed around a comparator, an ideographic space may stand there, and a quoted
numeral stays a text. -/
theorem ofString_grammar_quoted :
    Condition.ofString
        (String.ofList [' ', 'a', '\u3000', '>', '=', '\x27', '1', '2', '\x27', '\n']) =
      .ok ⟨"a", .greaterEqual, .text "12",
        String.ofList ['a', '\u3000', '>', '=', '\x27', '1', '2', '\x27']⟩ :=
  ((ofString_grammar
      (String.ofList [' ', 'a', '\u3000', '>', '=', '\x27', '1', '2', '\x27', '\n'])).2.1
    ⟨'a', [], ['\u3000'], .greaterEqual, [], ['\x27', '1', '2', '\x27'], .text "12", by decide,
      by simp, by simp [isBlank], by simp,
      @IsLiteral.quoted '\x27' ['1', '2'] (.inl rfl) (by simp) (by decide)⟩
    (by rw [String.toList_ofList]; rfl)).2

end Condition

end Rulebook
