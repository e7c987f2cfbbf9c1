import Rulebook.Json.Reader
import Rulebook.Json.Writer

/-!
# JSON texts read back

What the writer writes, the reader reads.  The two sides never meet in one definition: the writer
goes from a value to tokens and from tokens to characters, the reader goes back the same way, and
each way back is the inverse of one way there.  Tokens are read back one by one, because each of
them shows where it ends.  Only a number does not, so a number must not be followed by another
one, and in a value it never is.

* `takeUnits?_escape_append`: an escaped character is one code point.
* `lexFrom?_textOf`: the tokens of a text are those it was written with.
* `read?_writeChars`, `readWritten?_writeChars`: both readers undo the writer.
-/

namespace Rulebook.Json

open Decimal (Numeral)

/-! ## Strings -/

theorem hexUnit?_control : ∀ n < 0x20,
    hexUnit? '0' '0' (Nat.digitChar (n / 16)) (Nat.digitChar (n % 16)) = some n := by
  decide

/-- An escaped character is read as its code point. -/
theorem takeUnits?_escape_append (units : List Nat) (c : Char) (rest : List Char) :
    takeUnits? units (escape c ++ rest) = takeUnits? (c.toNat :: units) rest := by
  unfold escape
  split
  case h_8 hquote hslash _ _ _ _ _ =>
    split
    · next hcontrol =>
      simp only [List.cons_append, List.nil_append, takeUnits?, hexUnit?_control _ hcontrol]
    · next hcontrol =>
      rw [List.singleton_append, takeUnits?]
      · rw [if_neg hcontrol]
      · exact hquote
      · exact fun _ _ _ _ _ h => absurd h hslash
      · exact fun _ _ h => absurd h hslash
  all_goals simp [takeUnits?, letterUnit?]

/-- A quoted text is read as its code points. -/
theorem takeUnits?_flatMap_escape (cs : List Char) (units : List Nat) (rest : List Char) :
    takeUnits? units (cs.flatMap escape ++ '\x22' :: rest) =
      some (units.reverse ++ cs.map Char.toNat, rest) := by
  induction cs generalizing units with
  | nil => simp [takeUnits?]
  | cons c cs ih =>
    rw [List.flatMap_cons, List.append_assoc, takeUnits?_escape_append, ih]
    simp

/-- No character is a surrogate. -/
theorem isSurrogate_toNat (c : Char) :
    isHighSurrogate c.toNat = false ∧ isLowSurrogate c.toNat = false := by
  have hvalid : c.toNat < 0xD800 ∨ 0xDFFF < c.toNat := by
    rcases c.valid with h | h
    · exact Or.inl h
    · exact Or.inr h.1
  simp only [isHighSurrogate, isLowSurrogate, Bool.and_eq_false_iff, decide_eq_false_iff_not]
  omega

theorem joinUnits?_map_toNat : ∀ cs : List Char, joinUnits? (cs.map Char.toNat) = some cs
  | [] => rfl
  | [c] => by simp [joinUnits?, isSurrogate_toNat c, Char.ofNat_toNat]
  | c :: d :: cs => by
    have ih := joinUnits?_map_toNat (d :: cs)
    rw [List.map_cons] at ih
    simp [joinUnits?, isSurrogate_toNat c, ih, Char.ofNat_toNat]

theorem takeString?_flatMap_escape (s : String) (rest : List Char) :
    takeString? (s.toList.flatMap escape ++ '\x22' :: rest) = some (some s, rest) := by
  simp [takeString?, takeUnits?_flatMap_escape, joinUnits?_map_toNat]

/-! ## Numbers -/

theorem isNumberChar_of_isDigit {c : Char} (h : c.isDigit = true) : isNumberChar c = true := by
  simp [isNumberChar, h]

theorem isNumberChar_of_mem_sign {s : Option Decimal.Sign} {c : Char}
    (h : c ∈ Decimal.Sign.text s) : isNumberChar c = true := by
  rcases s with _ | _ | _
  · cases h
  · rw [List.mem_singleton.mp h]; rfl
  · rw [List.mem_singleton.mp h]; rfl

theorem isNumberChar_of_mem_text {n : Numeral} (hn : n.IsNumeric) {c : Char} (h : c ∈ n.text) :
    isNumberChar c = true := by
  rcases List.mem_append.mp h with h | h
  · exact isNumberChar_of_mem_sign h
  rcases List.mem_append.mp h with h | h
  · exact isNumberChar_of_isDigit (hn.whole c h)
  rcases List.mem_append.mp h with h | h
  · rcases hf : n.fraction with _ | digits
    · rw [hf] at h; cases h
    · rw [hf] at h
      rcases List.mem_cons.mp h with rfl | h
      · rfl
      · exact isNumberChar_of_isDigit (hn.fraction digits hf c h)
  · rcases he : n.exponent with _ | e
    · rw [he] at h; cases h
    · rw [he] at h
      rcases List.mem_cons.mp h with rfl | h
      · rfl
      rcases List.mem_append.mp h with h | h
      · exact isNumberChar_of_mem_sign h
      · exact isNumberChar_of_isDigit (hn.exponent e he c h)

/-- A text that does not go on a number. -/
def EndsNumber (rest : List Char) : Prop := ∀ c ∈ rest.head?, isNumberChar c = false

theorem text_ne_nil {n : Numeral} (hj : n.IsJson) : n.text ≠ [] := by
  intro h
  exact hj.2.1 (List.append_eq_nil_iff.mp (List.append_eq_nil_iff.mp h).2).1

/-- A number is read back where nothing goes on it. -/
theorem takeNumber?_text_append {n : Numeral} (hn : n.IsNumeric) (hj : n.IsJson)
    {rest : List Char} (hrest : EndsNumber rest) :
    takeNumber? (n.text ++ rest) = some (n, rest) := by
  obtain ⟨htake, hdrop⟩ := span_append (fun _ => isNumberChar_of_mem_text hn) hrest
  unfold takeNumber?
  rw [htake, hdrop]
  split
  · next hnil => exact absurd hnil (text_ne_nil hj)
  · next c more hcons =>
    rw [← hcons, Numeral.read?_text hn]
    simp [hj]

theorem takeToken?_of_isNumberChar {c : Char} (h : isNumberChar c = true) (rest : List Char) :
    takeToken? (c :: rest) =
      (takeNumber? (c :: rest)).map fun (n, rest) => (.number n, rest) := by
  unfold takeToken?
  split
  case h_11 => rfl
  all_goals
    next heq =>
      cases heq
      cases h

/-! ## Tokens -/

/-- A token as it is written: its string has a text. -/
def Token.written : Token String → Token (Option String)
  | .openArray => .openArray
  | .closeArray => .closeArray
  | .openObject => .openObject
  | .closeObject => .closeObject
  | .comma => .comma
  | .colon => .colon
  | .null => .null
  | .bool b => .bool b
  | .number n => .number n
  | .string s => .string (some s)

/-- A token that is read back from its text whatever follows, or in front of what ends a number. -/
def Token.Follows (t : Token String) (rest : List Char) : Prop :=
  ∀ n, t = .number n → n.IsNumeric ∧ n.IsJson ∧ EndsNumber rest

/-- A token is read back from its text. -/
theorem takeToken?_text_append {t : Token String} {rest : List Char} (h : t.Follows rest) :
    takeToken? (t.text ++ rest) = some (t.written, rest) := by
  cases t with
  | string s =>
    rw [Token.text, stringText, List.cons_append, List.append_assoc]
    simp only [takeToken?, List.singleton_append, takeString?_flatMap_escape, Option.map_some]
    rfl
  | number n =>
    obtain ⟨hn, hj, hrest⟩ := h n rfl
    have htake := takeNumber?_text_append hn hj hrest
    rw [Token.text]
    cases htext : n.text with
    | nil => exact absurd htext (text_ne_nil hj)
    | cons c more =>
      rw [htext, List.cons_append] at htake
      have hc : isNumberChar c = true := isNumberChar_of_mem_text hn (by simp [htext])
      rw [List.cons_append, takeToken?_of_isNumberChar hc, htake]
      rfl
  | bool b => cases b <;> rfl
  | _ => rfl

theorem isNumberChar_of_isWhitespace {c : Char} (h : isWhitespace c = true) :
    isNumberChar c = false := by
  simp only [isWhitespace, Bool.or_eq_true, beq_iff_eq] at h
  rcases h with ((rfl | rfl) | rfl) | rfl <;> rfl

/-- No token is empty, and none starts with white space. -/
theorem exists_text_eq_cons {t : Token String} {rest : List Char} (h : t.Follows rest) :
    ∃ c more, t.text = c :: more ∧ isWhitespace c = false := by
  cases t with
  | number n =>
    obtain ⟨hn, hj, _⟩ := h n rfl
    obtain ⟨c, more, htext⟩ := List.exists_cons_of_ne_nil (text_ne_nil hj)
    refine ⟨c, more, htext, ?_⟩
    have hc : isNumberChar c = true := isNumberChar_of_mem_text hn (by simp [htext])
    rcases hw : isWhitespace c with _ | _
    · rfl
    · rw [isNumberChar_of_isWhitespace hw] at hc
      cases hc
  | bool b => cases b <;> exact ⟨_, _, rfl, rfl⟩
  | _ => exact ⟨_, _, rfl, rfl⟩

theorem lexFrom?_text_append {t : Token String} {rest : List Char} (h : t.Follows rest)
    (found : List (Token (Option String))) :
    lexFrom? found (t.text ++ rest) = lexFrom? (t.written :: found) rest := by
  obtain ⟨c, more, htext, hc⟩ := exists_text_eq_cons h
  have htake := takeToken?_text_append h
  rw [htext, List.cons_append] at htake ⊢
  rw [lexFrom?]
  simp only [hc, Bool.false_eq_true, if_false]
  split
  · next t' rest' heq =>
    rw [htake] at heq
    cases heq
    rfl
  · next heq =>
    rw [htake] at heq
    cases heq

/-! ## Lists of tokens -/

/-- The numbers of a value are written as JSON asks. -/
def HasNumerals (tokens : List (Token String)) : Prop :=
  ∀ n, .number n ∈ tokens → n.IsNumeric ∧ n.IsJson

/-- The text of tokens. -/
def textOf (tokens : List (Token String)) : List Char := tokens.flatMap Token.text

@[simp] theorem textOf_nil : textOf [] = [] := rfl

@[simp] theorem textOf_cons (t : Token String) (ts : List (Token String)) :
    textOf (t :: ts) = t.text ++ textOf ts := rfl

/-- Whether a token is a number. -/
def Token.isNumber : Token String → Bool
  | .number _ => true
  | _ => false

/-- A list of tokens that does not start with a number. -/
def StartsApart (tokens : List (Token String)) : Prop := ∀ t ∈ tokens.head?, t.isNumber = false

/-- Tokens among which no number is followed by a number. -/
def Apart : List (Token String) → Prop
  | [] => True
  | t :: ts => (t.isNumber = true → StartsApart ts) ∧ Apart ts

theorem startsApart_nil : StartsApart [] := by
  intro t ht
  cases ht

theorem startsApart_cons {t : Token String} (ht : t.isNumber = false) (ts : List (Token String)) :
    StartsApart (t :: ts) := by
  intro u hu
  cases hu
  exact ht

theorem apart_singleton (t : Token String) : Apart [t] := ⟨fun _ => startsApart_nil, trivial⟩

theorem apart_cons {t : Token String} (ht : t.isNumber = false) {ts : List (Token String)}
    (hts : Apart ts) : Apart (t :: ts) := by
  refine ⟨fun hn => ?_, hts⟩
  rw [ht] at hn
  cases hn

/-- Two lists are apart as one if the second does not start with a number. -/
theorem apart_append {ts us : List (Token String)} (hts : Apart ts) (hus : Apart us)
    (h : StartsApart us) : Apart (ts ++ us) := by
  induction ts with
  | nil => exact hus
  | cons t ts ih =>
    refine ⟨fun ht => ?_, ih hts.2⟩
    cases ts with
    | nil => exact h
    | cons next _ => exact startsApart_cons (hts.1 ht next rfl) _

theorem endsNumber_text_append {t : Token String} (h : t.isNumber = false) (rest : List Char) :
    EndsNumber (t.text ++ rest) := by
  intro c hc
  cases t with
  | number n => cases h
  | bool b => cases b <;> cases hc <;> rfl
  | _ => cases hc; rfl

theorem endsNumber_textOf {tokens : List (Token String)} (h : StartsApart tokens) :
    EndsNumber (textOf tokens) := by
  cases tokens with
  | nil =>
    intro c hc
    cases hc
  | cons t ts => exact endsNumber_text_append (h t rfl) _

/-- The text of tokens that are apart consists of these tokens. -/
theorem lexFrom?_textOf {tokens : List (Token String)} (hn : HasNumerals tokens)
    (ha : Apart tokens) (found : List (Token (Option String))) :
    lexFrom? found (textOf tokens) = some (found.reverse ++ tokens.map Token.written) := by
  induction tokens generalizing found with
  | nil => simp [lexFrom?]
  | cons t ts ih =>
    have hfollows : t.Follows (textOf ts) := by
      rintro n rfl
      obtain ⟨hnum, hjson⟩ := hn n (List.mem_cons_self ..)
      exact ⟨hnum, hjson, endsNumber_textOf (ha.1 rfl)⟩
    rw [textOf_cons, lexFrom?_text_append hfollows,
      ih (fun n h => hn n (List.mem_cons_of_mem _ h)) ha.2]
    simp

theorem startsApart_moreItemTokens : ∀ items : List (Json String),
    StartsApart (moreItemTokens items)
  | [] => startsApart_cons rfl _
  | _ :: _ => startsApart_cons rfl _

theorem startsApart_moreMemberTokens : ∀ members : List (String × Json String),
    StartsApart (moreMemberTokens members)
  | [] => startsApart_cons rfl _
  | _ :: _ => startsApart_cons rfl _

mutual

/-- In a value every number is followed by a mark. -/
theorem apart_tokens : ∀ v : Json String, Apart v.tokens
  | .null => apart_singleton _
  | .bool _ => apart_singleton _
  | .number _ => apart_singleton _
  | .string _ => apart_singleton _
  | .array items => apart_cons rfl (apart_itemTokens items)
  | .object members => apart_cons rfl (apart_memberTokens members)

theorem apart_itemTokens : ∀ items : List (Json String), Apart (itemTokens items)
  | [] => apart_singleton _
  | item :: rest =>
    apart_append (apart_tokens item) (apart_moreItemTokens rest) (startsApart_moreItemTokens rest)

theorem apart_moreItemTokens : ∀ items : List (Json String), Apart (moreItemTokens items)
  | [] => apart_singleton _
  | item :: rest =>
    apart_cons rfl (apart_append (apart_tokens item) (apart_moreItemTokens rest)
      (startsApart_moreItemTokens rest))

theorem apart_memberTokens : ∀ members : List (String × Json String),
    Apart (memberTokens members)
  | [] => apart_singleton _
  | (_, v) :: rest =>
    apart_cons rfl (apart_cons rfl (apart_append (apart_tokens v) (apart_moreMemberTokens rest)
      (startsApart_moreMemberTokens rest)))

theorem apart_moreMemberTokens : ∀ members : List (String × Json String),
    Apart (moreMemberTokens members)
  | [] => apart_singleton _
  | (_, v) :: rest =>
    apart_cons rfl (apart_cons rfl (apart_cons rfl (apart_append (apart_tokens v)
      (apart_moreMemberTokens rest) (startsApart_moreMemberTokens rest))))

end

/-! ## Values -/

/-- The text of a value consists of the tokens of the value. -/
theorem lex?_writeChars {v : Json String} (h : HasNumerals v.tokens) :
    lex? v.writeChars = some (v.tokens.map Token.written) :=
  lexFrom?_textOf h (apart_tokens v) []

theorem strict?_written {t : Token String}
    (h : ∀ n, t = .number n → (numberOf n).isFinite = true) :
    t.written.strict? = some t := by
  cases t with
  | number n => simp [Token.written, Token.strict?, h n rfl]
  | _ => rfl

theorem mapM_strict?_written {ts : List (Token String)}
    (h : ∀ n, .number n ∈ ts → (numberOf n).isFinite = true) :
    (ts.map Token.written).mapM Token.strict? = some ts := by
  induction ts with
  | nil => rfl
  | cons t ts ih =>
    have ht : t.written.strict? = some t := strict?_written fun n hn => h n (by simp [hn])
    rw [List.map_cons, List.mapM_cons, ht, ih fun n hn => h n (List.mem_cons_of_mem _ hn)]
    rfl

/-- The text of a value reads as that value, if numbers and nesting are within bounds. -/
theorem read?_writeChars {v : Json String} (hn : HasNumerals v.tokens)
    (hr : ∀ n, .number n ∈ v.tokens → (numberOf n).isFinite = true)
    (hd : nesting v.tokens ≤ maxNesting) : read? v.writeChars = some v := by
  simp [read?, lex?_writeChars hn, mapM_strict?_written hr, hd]

/-! ## Values as written -/

mutual

/-- The value as it is written: each string has a text. -/
def written : Json String → Json (Option String)
  | null => null
  | bool b => bool b
  | number n => number n
  | string s => string (some s)
  | array items => array (writtenItems items)
  | object members => object (writtenMembers members)

/-- The items of an array as they are written. -/
def writtenItems : List (Json String) → List (Json (Option String))
  | [] => []
  | item :: rest => item.written :: writtenItems rest

/-- The members of an object as they are written. -/
def writtenMembers : List (String × Json String) → List (Option String × Json (Option String))
  | [] => []
  | (key, value) :: rest => (some key, value.written) :: writtenMembers rest

end

mutual

theorem tokens_written : ∀ v : Json String, v.written.tokens = v.tokens.map Token.written
  | .null => rfl
  | .bool _ => rfl
  | .number _ => rfl
  | .string _ => rfl
  | .array items => by
    rw [written, tokens, tokens, itemTokens_written items]
    rfl
  | .object members => by
    rw [written, tokens, tokens, memberTokens_written members]
    rfl

theorem itemTokens_written : ∀ items : List (Json String),
    itemTokens (writtenItems items) = (itemTokens items).map Token.written
  | [] => rfl
  | item :: rest => by
    rw [writtenItems, itemTokens, itemTokens, List.map_append, tokens_written item,
      moreItemTokens_written rest]

theorem moreItemTokens_written : ∀ items : List (Json String),
    moreItemTokens (writtenItems items) = (moreItemTokens items).map Token.written
  | [] => rfl
  | item :: rest => by
    rw [writtenItems, moreItemTokens, moreItemTokens, List.map_cons, List.map_append,
      tokens_written item, moreItemTokens_written rest]
    rfl

theorem memberTokens_written : ∀ members : List (String × Json String),
    memberTokens (writtenMembers members) = (memberTokens members).map Token.written
  | [] => rfl
  | (_, value) :: rest => by
    rw [writtenMembers, memberTokens, memberTokens, List.map_cons, List.map_cons, List.map_append,
      tokens_written value, moreMemberTokens_written rest]
    rfl

theorem moreMemberTokens_written : ∀ members : List (String × Json String),
    moreMemberTokens (writtenMembers members) = (moreMemberTokens members).map Token.written
  | [] => rfl
  | (_, value) :: rest => by
    rw [writtenMembers, moreMemberTokens, moreMemberTokens, List.map_cons, List.map_cons,
      List.map_cons, List.map_append, tokens_written value, moreMemberTokens_written rest]
    rfl

end

/-- The text of a value reads by the grammar alone as the value as it is written. -/
theorem readWritten?_writeChars {v : Json String} (h : HasNumerals v.tokens) :
    readWritten? v.writeChars = some v.written := by
  simp [readWritten?, lex?_writeChars h, ← tokens_written]

end Rulebook.Json
