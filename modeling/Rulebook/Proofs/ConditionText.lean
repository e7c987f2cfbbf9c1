import Rulebook.Condition.Reader
import Rulebook.Proofs.Balance

/-!
# The text of a condition

What a text looks like if it reads as a condition: a name, a comparator and a literal, with blanks
around the comparator (`Condition.Parts`).  Each reader of a part is turned into a statement on the
part that it takes, so that later files see the pieces of the text and not the order in which they
are read (`Condition.Parts.exists_of_ofTrimmed?`).

Two consequences carry the rest.  All characters before the literal are plain and the literal is
plain or quoted as a whole, so a condition has no parentheses outside quotes
(`flat_of_ofTrimmed?`).  And the text kept with a condition reads as the same condition again
(`ofString_raw`).
-/

namespace Rulebook

open Text (isBlank isNameStart isQuote isWord trim)

/-! ## Plain characters -/

theorem isPlain_of_isNameStart {c : Char} (h : isNameStart c = true) : Scan.IsPlain c :=
  Scan.isPlain_of_test (by decide) h

theorem isPlain_of_isWord {c : Char} (h : isWord c = true) : Scan.IsPlain c :=
  Scan.isPlain_of_test (by decide) h

theorem isPlain_of_isBare {c : Char} (h : isBare c = true) : Scan.IsPlain c :=
  Scan.isPlain_of_test (by decide) h

theorem isPlain_of_mem_symbol {k : Comparator} {c : Char} (h : c ∈ k.symbol.toList) :
    Scan.IsPlain c := by
  refine Scan.isPlain_of_test (p := fun c => k.symbol.toList.contains c) ?_ (by simpa using h)
  cases k <;> decide

/-! ## The grammar -/

/-- A character of a bare word is no white space and none of the marks of a rule. -/
def IsBareCharacter (c : Char) : Prop :=
  isBlank c = false ∧ c ∉ ['\x27', '\x22', '(', ')', '<', '>', '=', '!']

theorem isNameStart_iff {c : Char} : isNameStart c = true ↔ c.isAlpha = true ∨ c = '_' := by
  simp [isNameStart]

theorem isBare_iff {c : Char} : isBare c = true ↔ IsBareCharacter c := by
  simp [isBare, isQuote, IsBareCharacter, and_assoc]

/-- The texts of literals, with their values.  What is quoted stays a text even if it reads as a
number; a bare word is the number it reads as, if it reads as one. -/
inductive IsLiteral : List Char → Literal → Prop
  | quoted {quote : Char} {inside : List Char} (hquote : quote = '\x27' ∨ quote = '\x22')
      (hne : inside ≠ []) (hinside : quote ∉ inside) :
      IsLiteral (quote :: (inside ++ [quote])) (.text (String.ofList inside))
  | number {cs : List Char} {x : Binary64} (hne : cs ≠ [])
      (hbare : ∀ c ∈ cs, IsBareCharacter c) (hread : Binary64.read? cs = some x) :
      IsLiteral cs (.number x)
  | word {cs : List Char} (hne : cs ≠ [])
      (hbare : ∀ c ∈ cs, IsBareCharacter c) (hread : Binary64.read? cs = none) :
      IsLiteral cs (.text (String.ofList cs))

/-- The parts of a text that is a condition, in their order. -/
structure Condition.Parts where
  /-- The first character of the name, an ASCII letter or an underscore. -/
  first : Char
  /-- The other characters of the name. -/
  more : List Char
  /-- The blanks before the comparator. -/
  gap : List Char
  comparator : Comparator
  /-- The blanks after the comparator. -/
  gap' : List Char
  /-- The literal as it is written. -/
  token : List Char
  literal : Literal
  first_spec : first.isAlpha = true ∨ first = '_'
  more_isWord : ∀ d ∈ more, isWord d = true
  gap_isBlank : ∀ d ∈ gap, isBlank d = true
  gap'_isBlank : ∀ d ∈ gap', isBlank d = true
  isLiteral : IsLiteral token literal

namespace Condition.Parts

/-- The text from the literal on, with the blanks before it. -/
def afterComparator (p : Parts) : List Char := p.gap' ++ p.token

/-- The text from the comparator on. -/
def afterGap (p : Parts) : List Char := p.comparator.symbol.toList ++ p.afterComparator

/-- The text after the name. -/
def afterName (p : Parts) : List Char := p.gap ++ p.afterGap

/-- The parts put together. -/
def text (p : Parts) : List Char := p.first :: p.more ++ p.afterName

/-- The condition with the given parts. -/
def condition (p : Parts) : Condition :=
  ⟨String.ofList (p.first :: p.more), p.comparator, p.literal, String.ofList p.text⟩

/-- The comparator with the blanks around it. -/
def middle (p : Parts) : List Char := p.gap ++ p.comparator.symbol.toList ++ p.gap'

theorem append_middle (p : Parts) : p.first :: p.more ++ p.middle ++ p.token = p.text := by
  simp only [text, afterName, afterGap, afterComparator, middle, List.append_assoc]

end Condition.Parts

/-! ## Literals -/

/-- A literal is quoted as a whole, or none of its characters is a mark. -/
theorem readLiteral?_eq_some {cs : List Char} {l : Literal} (h : readLiteral? cs = some l) :
    (∃ q inside, isQuote q = true ∧ q ∉ inside ∧ inside ≠ [] ∧ cs = q :: (inside ++ [q]) ∧
        l = .text (String.ofList inside)) ∨
      cs ≠ [] ∧ (∀ c ∈ cs, isBare c = true) ∧ l = .ofBare cs := by
  unfold readLiteral? at h
  split at h
  · cases h
  · next c rest =>
    split at h
    · next hquote =>
      simp only at h
      split at h
      · next hinside =>
        obtain ⟨hrest, hne⟩ := hinside
        cases h
        refine Or.inl ⟨c, _, hquote, fun hmem => ?_, hne, ?_, rfl⟩
        · have hkeep := List.all_eq_true.mp List.all_takeWhile c hmem
          simp at hkeep
        · rw [← hrest, List.takeWhile_append_dropWhile]
      · cases h
    · split at h
      · next hbare =>
        cases h
        exact Or.inr ⟨List.cons_ne_nil _ _, List.all_eq_true.mp hbare, rfl⟩
      · cases h

/-- A bare word is a literal, with the value that the reader gives it. -/
theorem isLiteral_ofBare {cs : List Char} (hne : cs ≠ []) (hbare : ∀ c ∈ cs, isBare c = true) :
    IsLiteral cs (Literal.ofBare cs) := by
  have hchars := fun c hc => isBare_iff.mp (hbare c hc)
  unfold Literal.ofBare
  split
  · next x hread => exact .number hne hchars hread
  · next hread => exact .word hne hchars hread

theorem readLiteral?_bare {cs : List Char} (hne : cs ≠ [])
    (hbare : ∀ c ∈ cs, IsBareCharacter c) : readLiteral? cs = some (Literal.ofBare cs) := by
  obtain ⟨c, rest, rfl⟩ := List.exists_cons_of_ne_nil hne
  have hall : ∀ d ∈ c :: rest, isBare d = true := fun d hd => isBare_iff.mpr (hbare d hd)
  have hquote : isQuote c = false := (isPlain_of_isBare (hall c (List.mem_cons_self ..))).1
  rw [readLiteral?, if_neg (by simp [hquote]), if_pos (List.all_eq_true.mpr hall)]

theorem readLiteral?_quoted {quote : Char} {inside : List Char} (hquote : isQuote quote = true)
    (hne : inside ≠ []) (hinside : quote ∉ inside) :
    readLiteral? (quote :: (inside ++ [quote])) = some (.text (String.ofList inside)) := by
  have hspan : (inside ++ [quote]).takeWhile (· != quote) = inside ∧
      (inside ++ [quote]).dropWhile (· != quote) = [quote] := by
    refine span_append (fun d hd => ?_) (by simp)
    exact bne_iff_ne.mpr fun heq => hinside (heq ▸ hd)
  rw [readLiteral?, if_pos hquote]
  simp only [hspan.1, hspan.2]
  rw [if_pos ⟨trivial, hne⟩]

/-- The reader of literals follows the grammar. -/
theorem readLiteral?_eq_some_iff {cs : List Char} {l : Literal} :
    readLiteral? cs = some l ↔ IsLiteral cs l := by
  constructor
  · intro h
    rcases readLiteral?_eq_some h with
      ⟨quote, inside, hquote, hinside, hne, rfl, rfl⟩ | ⟨hne, hbare, rfl⟩
    · exact .quoted (by simpa [isQuote] using hquote) hne hinside
    · exact isLiteral_ofBare hne hbare
  · intro h
    cases h with
    | quoted hquote hne hinside =>
      exact readLiteral?_quoted (by simpa [isQuote] using hquote) hne hinside
    | number hne hbare hread => rw [readLiteral?_bare hne hbare, Literal.ofBare, hread]
    | word hne hbare hread => rw [readLiteral?_bare hne hbare, Literal.ofBare, hread]

/-! ## Names and comparators -/

/-- A name is taken whole and starts as a name must. -/
theorem takeName?_eq_some {cs name rest : List Char} (h : takeName? cs = some (name, rest)) :
    name ++ rest = cs ∧ ∃ c more, name = c :: more ∧ isNameStart c = true ∧
      ∀ d ∈ more, isWord d = true := by
  unfold takeName? at h
  split at h
  · cases h
  · next c tail =>
    split at h
    · next hc =>
      cases h
      refine ⟨?_, c, _, rfl, hc, fun d hd => List.all_eq_true.mp List.all_takeWhile d hd⟩
      rw [List.cons_append, List.takeWhile_append_dropWhile]
    · cases h

theorem takeComparator?_eq_some {cs rest : List Char} {k : Comparator}
    (h : takeComparator? cs = some (k, rest)) : k.symbol.toList ++ rest = cs := by
  unfold takeComparator? at h
  split at h <;> cases h <;> rfl

/-- A text that reads as a condition consists of the parts of this condition. -/
theorem Condition.Parts.exists_of_ofTrimmed? {cs : List Char} {c : Condition}
    (h : Condition.ofTrimmed? cs = some c) : ∃ p : Parts, p.text = cs ∧ p.condition = c := by
  simp only [Condition.ofTrimmed?, Option.bind_eq_bind, Option.bind_eq_some_iff,
    Option.pure_def, Option.some.injEq] at h
  obtain ⟨⟨name, afterName⟩, hname, ⟨k, afterComparator⟩, hk, literal, hliteral, rfl⟩ := h
  obtain ⟨rfl, first, more, rfl, hfirst, hmore⟩ := takeName?_eq_some hname
  have hgap := List.takeWhile_append_dropWhile (p := isBlank) (l := afterName)
  have hgap' := List.takeWhile_append_dropWhile (p := isBlank) (l := afterComparator)
  have hcomparator := takeComparator?_eq_some hk
  let p : Parts :=
    { first, more, comparator := k, literal
      gap := afterName.takeWhile isBlank
      gap' := afterComparator.takeWhile isBlank
      token := afterComparator.dropWhile isBlank
      first_spec := isNameStart_iff.mp hfirst
      more_isWord := hmore
      gap_isBlank := fun d hd => List.all_eq_true.mp List.all_takeWhile d hd
      gap'_isBlank := fun d hd => List.all_eq_true.mp List.all_takeWhile d hd
      isLiteral := readLiteral?_eq_some_iff.mp hliteral }
  have htext : p.text = first :: more ++ afterName := by
    simp only [text, Parts.afterName, afterGap, Parts.afterComparator, p]
    rw [hgap', hcomparator, hgap]
  refine ⟨p, htext, ?_⟩
  rw [condition, htext]

/-! ## Scanning a condition -/

theorem flat_of_readLiteral? {cs : List Char} {l : Literal} (h : readLiteral? cs = some l) :
    Flat cs := by
  rcases readLiteral?_eq_some h with ⟨q, inside, hq, hinside, -, rfl, -⟩ | ⟨-, hbare, -⟩
  · exact stays_quoted (P := (· = 0)) rfl hq hinside
  · exact stays_of_isPlain (P := (· = 0)) rfl fun c hc => isPlain_of_isBare (hbare c hc)

namespace Condition.Parts

variable (p : Parts)

theorem isPlain_of_mem_name : ∀ d ∈ p.first :: p.more, Scan.IsPlain d := by
  intro d hd
  rcases List.mem_cons.mp hd with rfl | hd
  · exact isPlain_of_isNameStart (isNameStart_iff.mpr p.first_spec)
  · exact isPlain_of_isWord (p.more_isWord d hd)

theorem isPlain_of_mem_middle : ∀ d ∈ p.middle, Scan.IsPlain d := by
  simp only [middle, List.mem_append]
  rintro d ((hd | hd) | hd)
  · exact Scan.isPlain_of_isBlank (p.gap_isBlank d hd)
  · exact isPlain_of_mem_symbol hd
  · exact Scan.isPlain_of_isBlank (p.gap'_isBlank d hd)

theorem flat_text : Flat p.text := by
  have hname := stays_of_isPlain (P := (· = 0)) rfl p.isPlain_of_mem_name
  have hmiddle := stays_of_isPlain (P := (· = 0)) rfl p.isPlain_of_mem_middle
  have htoken := flat_of_readLiteral? (readLiteral?_eq_some_iff.mpr p.isLiteral)
  rw [← p.append_middle]
  exact (hname.append hmiddle).append htoken

end Condition.Parts

/-- A condition has no parentheses outside quotes, and its quotes are closed. -/
theorem flat_of_ofTrimmed? {cs : List Char} {c : Condition}
    (h : Condition.ofTrimmed? cs = some c) : Flat cs := by
  obtain ⟨p, rfl, -⟩ := Condition.Parts.exists_of_ofTrimmed? h
  exact p.flat_text

/-- A condition starts with a character that opens nothing. -/
theorem head?_ne_open_of_ofTrimmed? {cs : List Char} {c : Condition}
    (h : Condition.ofTrimmed? cs = some c) : ∃ first rest, cs = first :: rest ∧ first ≠ '(' := by
  obtain ⟨p, rfl, -⟩ := Condition.Parts.exists_of_ofTrimmed? h
  exact ⟨p.first, _, rfl, (p.isPlain_of_mem_name _ (List.mem_cons_self ..)).2.1⟩

/-! ## Reading again -/

theorem read_eq_ok_iff {cs : List Char} {c : Condition} :
    Condition.read cs = .ok c ↔ Condition.ofTrimmed? (trim cs) = some c := by
  unfold Condition.read
  split
  · next condition hcondition => simp [hcondition]
  · next hnone => simp [hnone]

/-- The only error quotes the text without the blanks at its ends. -/
theorem eq_of_read_eq_error {cs : List Char} {e : RuleError} (h : Condition.read cs = .error e) :
    e = .condition (.noComparison (String.ofList (trim cs))) := by
  unfold Condition.read at h
  split at h
  · cases h
  · cases h
    rfl

/-- The text kept with a condition is the text that was read, without blanks at its ends. -/
theorem raw_of_read {cs : List Char} {c : Condition} (h : Condition.read cs = .ok c) :
    c.raw = String.ofList (trim cs) := by
  obtain ⟨p, htext, rfl⟩ := Condition.Parts.exists_of_ofTrimmed? (read_eq_ok_iff.mp h)
  rw [← htext, Condition.Parts.condition]

/-- The text kept with a condition reads as the same condition. -/
theorem ofString_raw {s : String} {c : Condition} (h : Condition.ofString s = .ok c) :
    Condition.ofString c.raw = .ok c := by
  have hread := read_eq_ok_iff.mp h
  rw [Condition.ofString, read_eq_ok_iff, raw_of_read h, String.toList_ofList, Text.trim_trim]
  exact hread

end Rulebook
