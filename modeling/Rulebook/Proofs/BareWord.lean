import Rulebook.Evaluate
import Rulebook.Json.RoundTrip
import Rulebook.Proofs.ConditionGrammar

/-!
# Equality with a bare word

A bare word in a condition is a number if it reads as one and a text otherwise, and it meets a field
that holds a number or a text.  The text of a field may read as a number too, with blanks around it.
So equality is decided in three ways: between numbers, between texts, or between the text of a field
and the printed form of a number.  `Scalar.IsMeantBy` says what this comes to without following the
three ways: a text is meant by a word if it is the word, or if both read as numbers that compare
equal; a number is meant by a word that reads as an equal number, and a NaN by the word `NaN`.

The way that looks wrong is the last of the three, since a text may look like a printed number
without being read as one.  It never happens.  A printed number reads as a number
(`Binary64.isSome_read?_displayChars`) and has no blanks to trim, so a text that equals it would
have been compared as a number.  For the same reason a number never equals the text of a word that
does not read as a number.  The exception is the NaN, which is printed but not read.

* `Condition.ofString_bare`: a name, a comparator and a bare word with single spaces between them.
* `Literal.equals_ofBare_iff`: a bare word equals the values that it means.
* `Condition.bare_equality`: `=` and `!=` with a bare word, on all records.
-/

namespace Rulebook

open Text (isBlank isNameStart isWord trim)

/-! ## Characters -/

/-- A test that only ASCII characters pass implies another one if it does so on ASCII. -/
theorem isTrue_of_ascii {p q : Char → Bool} (hp : ∀ c, p c = true → c.toNat < 0x80)
    (hall : ∀ n < 0x80, p (Char.ofNat n) = true → q (Char.ofNat n) = true) {c : Char}
    (h : p c = true) : q c = true := by
  simpa only [Char.ofNat_toNat] using hall c.toNat (hp c h) (by rwa [Char.ofNat_toNat])

theorem toNat_lt_of_isNumberChar {c : Char} (h : Json.isNumberChar c = true) : c.toNat < 0x80 := by
  simp only [Json.isNumberChar, Char.isDigit, Bool.or_eq_true, Bool.and_eq_true, decide_eq_true_eq,
    beq_iff_eq, ge_iff_le, UInt32.le_iff_toNat_le] at h
  rcases h with ((((⟨-, h⟩ | rfl) | rfl) | rfl) | rfl) | rfl
  · exact Nat.lt_of_le_of_lt h (by decide)
  all_goals decide

theorem isBare_of_isNumberChar {c : Char} (h : Json.isNumberChar c = true) : isBare c = true :=
  isTrue_of_ascii (fun _ => toNat_lt_of_isNumberChar) (by decide) h

theorem toNat_lt_of_isNameStart {c : Char} (h : isNameStart c = true) : c.toNat < 0x80 := by
  rcases isNameStart_iff.mp h with h | rfl
  · have hcase : c.isUpper = true ∨ c.isLower = true := (Bool.or_eq_true _ _).mp h
    have hlast : c.val ≤ 'Z'.val ∨ c.val ≤ 'z'.val :=
      hcase.imp (fun hupper => (of_decide_eq_true hupper).2)
        (fun hlower => of_decide_eq_true ((Bool.and_eq_true _ _).mp hlower).2)
    rcases hlast with hlast | hlast
    · exact Nat.lt_of_le_of_lt (UInt32.le_iff_toNat_le.mp hlast) (by decide)
    · exact Nat.lt_of_le_of_lt (UInt32.le_iff_toNat_le.mp hlast) (by decide)
  · decide

theorem isBlank_eq_false_of_isNameStart {c : Char} (h : isNameStart c = true) :
    isBlank c = false := by
  have hblank : (!isBlank c) = true :=
    isTrue_of_ascii (q := fun c => !isBlank c) (fun _ => toNat_lt_of_isNameStart) (by decide) h
  simpa using hblank

theorem isBlank_eq_false_of_isBare {c : Char} (h : isBare c = true) : isBlank c = false :=
  (isBare_iff.mp h).1

/-! ## Printed numbers -/

/-- A text of bare characters has nothing to trim. -/
theorem trim_eq_self_of_isBare {cs : List Char} (h : ∀ c ∈ cs, isBare c = true) : trim cs = cs :=
  Text.trim_eq_self_iff.mpr
    ⟨fun c hc => isBlank_eq_false_of_isBare (h c (List.mem_of_mem_head? hc)),
      fun c hc => isBlank_eq_false_of_isBare (h c (List.mem_of_mem_getLast? hc))⟩

namespace Binary64

variable {x y : Binary64}

theorem isBare_of_mem_displayChars (h : x.isNaN = false) {c : Char} (hc : c ∈ x.displayChars) :
    isBare c = true := by
  rw [displayChars, h, if_neg Bool.false_ne_true] at hc
  split at hc
  · have hnumeric := (isNumeric_figures .away x).toNumeral x.writtenSign
    exact isBare_of_isNumberChar (Json.isNumberChar_of_mem_text hnumeric hc)
  · rcases List.mem_append.mp hc with hc | hc
    · exact isBare_of_isNumberChar (Json.isNumberChar_of_mem_sign hc)
    · have hinf : "inf".toList.all isBare = true := by decide
      exact List.all_eq_true.mp hinf c hc

/-- A printed number reads as a number, also where blanks would be trimmed first. -/
theorem isSome_read?_trim_display (h : x.isNaN = false) :
    (read? (trim x.display.toList)).isSome = true := by
  rw [display, String.toList_ofList,
    trim_eq_self_of_isBare fun _ => isBare_of_mem_displayChars h]
  exact isSome_read?_displayChars h

/-- What is printed is never a text that does not read as a number, unless it is a NaN. -/
theorem display_ne {s : String} (h : x.isNaN = false) (hs : read? (trim s.toList) = none) :
    x.display ≠ s := by
  rintro rfl
  have hsome := isSome_read?_trim_display h
  rw [hs] at hsome
  cases hsome

theorem display_of_isNaN (h : x.isNaN = true) : x.display = "NaN" := by
  rw [display, displayChars, if_pos h]
  rfl

theorem eq_comm : x.eq y = y.eq x := by
  rw [eq, eq, comparable, comparable, Bool.and_comm (!x.isNaN), Bool.beq_comm]

theorem eq_self (h : x.isNaN = false) : x.eq x = true := by
  simp [eq, comparable, h]

end Binary64

/-! ## Names and words -/

/-- A name as conditions have it: an ASCII letter or an underscore, and then word characters. -/
def IsName (name : String) : Prop :=
  ∃ first more, name.toList = first :: more ∧ (first.isAlpha = true ∨ first = '_') ∧
    ∀ d ∈ more, isWord d = true

/-- A bare word as conditions have it. -/
def IsBareWord (word : String) : Prop :=
  word.toList ≠ [] ∧ ∀ c ∈ word.toList, IsBareCharacter c

variable {name word : String}

theorem isBareWord_of_isBare (hne : word.toList ≠ []) (h : ∀ c ∈ word.toList, isBare c = true) :
    IsBareWord word :=
  ⟨hne, fun c hc => isBare_iff.mp (h c hc)⟩

theorem IsBareWord.isBare (h : IsBareWord word) : ∀ c ∈ word.toList, isBare c = true :=
  fun c hc => isBare_iff.mpr (h.2 c hc)

theorem IsBareWord.trim_eq (h : IsBareWord word) : trim word.toList = word.toList :=
  trim_eq_self_of_isBare h.isBare

/-- A name, a comparator and a bare word make a condition. -/
theorem Condition.ofString_bare (hname : IsName name) (hword : IsBareWord word) (k : Comparator) :
    let text := name ++ " " ++ k.symbol ++ " " ++ word
    Condition.ofString text = .ok ⟨name, k, .ofBare word.toList, text⟩ := by
  intro text
  obtain ⟨first, more, htoList, hfirst, hmore⟩ := hname
  let p : Parts :=
    { first, more, comparator := k
      gap := [' ']
      gap' := [' ']
      token := word.toList
      literal := .ofBare word.toList
      first_spec := hfirst
      more_isWord := hmore
      gap_isBlank := List.forall_mem_singleton.mpr rfl
      gap'_isBlank := List.forall_mem_singleton.mpr rfl
      isLiteral := isLiteral_ofBare hword.1 hword.isBare }
  have htext : p.text = text.toList := by
    simp [text, p, Parts.text, Parts.afterName, Parts.afterGap, Parts.afterComparator, htoList]
  have htrim : trim text.toList = text.toList := by
    refine Text.trim_eq_self_iff.mpr ⟨fun c hc => ?_, fun c hc => ?_⟩
    · rw [← htext] at hc
      cases hc
      exact isBlank_eq_false_of_isNameStart (isNameStart_iff.mpr hfirst)
    · rw [String.toList_append, List.getLast?_append, Option.mem_def, Option.or_eq_some_iff,
        List.getLast?_eq_none_iff] at hc
      rcases hc with hc | ⟨hnil, -⟩
      · exact (hword.2 c (List.mem_of_mem_getLast? hc)).1
      · exact absurd hnil hword.1
  have hname : String.ofList (first :: more) = name := by rw [← htoList, String.ofList_toList]
  refine ofString_eq_ok_iff.mpr ⟨p, htext.trans htrim.symm, ?_⟩
  rw [Parts.condition, htext, String.ofList_toList]
  exact congrArg (Condition.mk · k (.ofBare word.toList) text) hname

/-! ## What a word means -/

/-- A word means a text if it is the text, or if both read as numbers that compare equal, the text
without the blanks at its ends.  It means a number if it reads as an equal number; and the word
`NaN` means every NaN, although nothing reads as one. -/
def Scalar.IsMeantBy (word : String) : Scalar → Prop
  | .text t => t = word ∨ ∃ x y, Binary64.read? word.toList = some x ∧
      Binary64.read? (trim t.toList) = some y ∧ x.eq y = true
  | .number x => (∃ y, Binary64.read? word.toList = some y ∧ y.eq x = true) ∨
      x.isNaN = true ∧ word = "NaN"

/-- Whether a value equals a literal, as numbers if they are two numbers and else as texts. -/
def Literal.equals (l : Literal) (value : Scalar) : Bool :=
  match l.numbers? value with
  | some (actual, expected) => actual.eq expected
  | none => value.asText == l.asText

/-- A condition that needs no order never fails on a value: it tells whether the value equals the
literal, or whether it does not. -/
theorem Condition.checkValue_of_isOrdering_eq_false {c : Condition}
    (h : c.comparator.isOrdering = false) (value : Scalar) :
    c.checkValue value = .ok
      (if c.comparator = .notEqual then !c.literal.equals value else c.literal.equals value) := by
  rw [checkValue, Literal.equals]
  rcases c.literal.numbers? value with _ | ⟨actual, expected⟩
  · show c.checkText value = _
    rw [checkText, h]
    rfl
  · show Except.ok (c.comparator.holds actual expected) = _
    cases hk : c.comparator with
    | equal => rfl
    | notEqual => rfl
    | _ =>
      rw [hk] at h
      cases h

/-- A word that does not read as a number equals the texts that are the word, and the NaNs if it is
their printed form.  Any other number prints as a text that reads as a number, which the word does
not. -/
theorem Literal.equals_text_iff (h : IsBareWord word) (hread : Binary64.read? word.toList = none)
    (value : Scalar) : (Literal.text word).equals value = true ↔ value.IsMeantBy word := by
  cases value with
  | text t => simp [equals, numbers?, Scalar.asText, Literal.asText, Scalar.IsMeantBy, hread]
  | number x =>
    rcases hx : x.isNaN with _ | _
    · have hne : x.display ≠ word := Binary64.display_ne hx (by rw [h.trim_eq, hread])
      simp [equals, numbers?, Scalar.asText, Literal.asText, Scalar.IsMeantBy, hread, hx, hne]
    · have hswap : "NaN" = word ↔ word = "NaN" := eq_comm
      simpa [equals, numbers?, Scalar.asText, Literal.asText, Scalar.IsMeantBy, hread, hx,
        Binary64.display_of_isNaN hx] using hswap

/-- A word that reads as a number equals what counts as an equal number.  It equals no other text,
since its printed form would have been read as a number. -/
theorem Literal.equals_number_iff {n : Binary64} (h : IsBareWord word)
    (hread : Binary64.read? word.toList = some n) (value : Scalar) :
    (Literal.number n).equals value = true ↔ value.IsMeantBy word := by
  have htrim : Binary64.read? (trim word.toList) = some n := by rw [h.trim_eq, hread]
  cases value with
  | number x =>
    have hword : word ≠ "NaN" := by
      rintro rfl
      cases hread
    simp [equals, numbers?, Scalar.number?, Scalar.IsMeantBy, hread, hword, Binary64.eq_comm]
  | text t =>
    rcases ht : Binary64.read? (trim t.toList) with _ | y
    · have hprinted : t ≠ n.display :=
        (Binary64.display_ne (Binary64.isNaN_of_read? hread) ht).symm
      have hword : t ≠ word := by
        rintro rfl
        cases ht.symm.trans htrim
      simp [equals, numbers?, Scalar.number?, Scalar.asText, Literal.asText, Scalar.IsMeantBy, ht,
        hprinted, hword]
    · have hsame : t = word → n.eq y = true := by
        rintro rfl
        cases ht.symm.trans htrim
        exact Binary64.eq_self (Binary64.isNaN_of_read? hread)
      simpa [equals, numbers?, Scalar.number?, Scalar.IsMeantBy, ht, hread,
        Binary64.eq_comm (x := y)] using hsame

/-- A bare word equals what it means. -/
theorem Literal.equals_ofBare_iff (h : IsBareWord word) (value : Scalar) :
    (Literal.ofBare word.toList).equals value = true ↔ value.IsMeantBy word := by
  rcases hread : Binary64.read? word.toList with _ | n
  · rw [Literal.ofBare, hread, String.ofList_toList]
    exact equals_text_iff h hread value
  · rw [Literal.ofBare, hread]
    exact equals_number_iff h hread value

/-- What `=` and `!=` with a bare word say of a field.  Both texts are conditions.  Where a record
has the field, neither fails: `=` holds exactly if the word means the value, and `!=` exactly if `=`
does not.  Where a record lacks the field, both fail for that.  A word that reads as a number equals
no text that does not. -/
theorem Condition.bare_equality (hname : IsName name) (hword : IsBareWord word) :
    ∃ c c', Condition.ofString (name ++ " = " ++ word) = .ok c ∧
      Condition.ofString (name ++ " != " ++ word) = .ok c' ∧
      (∀ record value, record.get? name = some value →
        (c.check record = .ok true ↔ value.IsMeantBy word) ∧
          ∃ b, c.check record = .ok b ∧ c'.check record = .ok (!b)) ∧
      (∀ record, record.get? name = none →
        c.check record = .error (.unknownField name) ∧
          c'.check record = .error (.unknownField name)) ∧
      ∀ record t x, record.get? name = some (.text t) → Binary64.read? word.toList = some x →
        Binary64.read? (trim t.toList) = none → c.check record = .ok false := by
  let literal := Literal.ofBare word.toList
  let c : Condition := ⟨name, .equal, literal, name ++ " = " ++ word⟩
  let c' : Condition := ⟨name, .notEqual, literal, name ++ " != " ++ word⟩
  have hc : Condition.ofString (name ++ " = " ++ word) = .ok c := by
    have hspaces : name ++ " " ++ "=" ++ " " ++ word = name ++ " = " ++ word := by
      simp [String.append_assoc]
    have h := ofString_bare hname hword .equal
    rwa [Comparator.symbol, hspaces] at h
  have hc' : Condition.ofString (name ++ " != " ++ word) = .ok c' := by
    have hspaces : name ++ " " ++ "!=" ++ " " ++ word = name ++ " != " ++ word := by
      simp [String.append_assoc]
    have h := ofString_bare hname hword .notEqual
    rwa [Comparator.symbol, hspaces] at h
  have hverdict : ∀ record value, record.get? name = some value →
      c.check record = .ok (literal.equals value) ∧
        c'.check record = .ok (!literal.equals value) := fun record value hvalue =>
    ⟨(check_of_get? hvalue).trans (checkValue_of_isOrdering_eq_false rfl value),
      (check_of_get? hvalue).trans (checkValue_of_isOrdering_eq_false rfl value)⟩
  refine ⟨c, c', hc, hc', fun record value hvalue => ?_, fun record hmissing => ?_,
    fun record t x ht hx hnone => ?_⟩
  · obtain ⟨hequal, hnotEqual⟩ := hverdict record value hvalue
    refine ⟨?_, _, hequal, hnotEqual⟩
    rw [hequal, Except.ok.injEq]
    exact Literal.equals_ofBare_iff hword value
  · exact ⟨check_of_get?_eq_none hmissing, check_of_get?_eq_none hmissing⟩
  · have hmeans : ¬(Scalar.text t).IsMeantBy word := by
      rintro (rfl | ⟨-, y, -, hy, -⟩)
      · rw [hword.trim_eq, hx] at hnone
        cases hnone
      · cases hnone.symm.trans hy
    have hfalse : literal.equals (.text t) = false :=
      Bool.eq_false_iff.mpr fun h => hmeans ((Literal.equals_ofBare_iff hword _).mp h)
    rw [(hverdict record _ ht).1, hfalse]

/-- Another spelling of ten means the text of ten with blanks around it, and not a text that only
begins with ten. -/
theorem Condition.bare_equality_spelling :
    ∃ c, Condition.ofString ("a" ++ " = " ++ "1e1") = .ok c ∧
      c.check (Record.ofList [("a", .text " 10.0\n")]) = .ok true ∧
      c.check (Record.ofList [("a", .text "10x")]) = .ok false := by
  have hname : IsName "a" := ⟨'a', [], rfl, .inl rfl, nofun⟩
  have hword : IsBareWord "1e1" := isBareWord_of_isBare (by decide) (List.all_eq_true.mp rfl)
  obtain ⟨c, _, hc, -, hfield, -, hnumber⟩ := bare_equality hname hword
  refine ⟨c, hc, (hfield _ (.text " 10.0\n") (by decide +kernel)).1.mpr (.inr ?_), ?_⟩
  · exact ⟨.ofInt 10, .ofInt 10, by decide +kernel, by decide +kernel, by decide +kernel⟩
  · exact hnumber _ "10x" (.ofInt 10) (by decide +kernel) (by decide +kernel) (by decide +kernel)

end Rulebook
