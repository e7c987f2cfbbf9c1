import Rulebook.Json.Basic

/-!
# JSON tokens from text

The tokens of the JSON grammar, with nothing left out and nothing added: white space is four
characters, numbers follow the strict grammar, control characters must be escaped.  A string is read
into code units first, since an escape can name half of a surrogate pair; the units are joined to
characters afterwards, and a half without its other half leaves the string without a text.

* `takeString?`: the text of a string literal, if it has one.
* `takeToken?`: the first token of a text.
* `lex?`: all tokens of a text.
-/

namespace Rulebook.Json

open Decimal (Numeral)

/-! ## Strings -/

/-- The first code unit of a surrogate pair. -/
def isHighSurrogate (unit : Nat) : Bool := 0xD800 ≤ unit && unit < 0xDC00

/-- The second code unit of a surrogate pair. -/
def isLowSurrogate (unit : Nat) : Bool := 0xDC00 ≤ unit && unit < 0xE000

/-- The character of a surrogate pair. -/
def pairChar (high low : Nat) : Char :=
  Char.ofNat (0x10000 + (high - 0xD800) * 0x400 + (low - 0xDC00))

/-- The characters that code units stand for.  Every surrogate must be half of a pair. -/
def joinUnits? : List Nat → Option (List Char)
  | [] => some []
  | high :: low :: rest =>
    if isHighSurrogate high then
      if isLowSurrogate low then (joinUnits? rest).map (pairChar high low :: ·) else none
    else if isLowSurrogate high then none
    else (joinUnits? (low :: rest)).map (Char.ofNat high :: ·)
  | [unit] =>
    if isHighSurrogate unit || isLowSurrogate unit then none else some [Char.ofNat unit]

/-- The value of a hexadecimal digit. -/
def hexDigit? (c : Char) : Option Nat :=
  if c.isDigit then some (c.toNat - 0x30)
  else if 'a' ≤ c && c ≤ 'f' then some (c.toNat - 0x61 + 10)
  else if 'A' ≤ c && c ≤ 'F' then some (c.toNat - 0x41 + 10)
  else none

/-- The code unit of four hexadecimal digits. -/
def hexUnit? (a b c d : Char) : Option Nat := do
  let a ← hexDigit? a
  let b ← hexDigit? b
  let c ← hexDigit? c
  let d ← hexDigit? d
  return ((a * 16 + b) * 16 + c) * 16 + d

/-- The code unit of an escape by one letter. -/
def letterUnit? : Char → Option Nat
  | '\x22' => some 0x22
  | '\x5c' => some 0x5C
  | '/' => some 0x2F
  | 'b' => some 0x08
  | 'f' => some 0x0C
  | 'n' => some 0x0A
  | 'r' => some 0x0D
  | 't' => some 0x09
  | _ => none

/-- The code units up to the closing quote, and the text after it.  The units already read, last
one first, come along. -/
def takeUnits? (units : List Nat) : List Char → Option (List Nat × List Char)
  | [] => none
  | '\x22' :: rest => some (units.reverse, rest)
  | '\x5c' :: 'u' :: a :: b :: c :: d :: rest =>
    match hexUnit? a b c d with
    | some unit => takeUnits? (unit :: units) rest
    | none => none
  | '\x5c' :: c :: rest =>
    match letterUnit? c with
    | some unit => takeUnits? (unit :: units) rest
    | none => none
  | c :: rest => if c.toNat < 0x20 then none else takeUnits? (c.toNat :: units) rest

/-- The text of a string whose opening quote has been read, if it has one, and what follows its
closing quote. -/
def takeString? (cs : List Char) : Option (Option String × List Char) :=
  (takeUnits? [] cs).map fun (units, rest) => ((joinUnits? units).map String.ofList, rest)

/-! ## Tokens -/

/-- The characters of which numbers consist. -/
def isNumberChar (c : Char) : Bool :=
  c.isDigit || c == '-' || c == '+' || c == '.' || c == 'e' || c == 'E'

/-- The number at the start of a text, and what follows it. -/
def takeNumber? (cs : List Char) : Option (Numeral × List Char) :=
  match cs.takeWhile isNumberChar with
  | [] => none
  | c :: more =>
    match Numeral.read? (c :: more) with
    | some n => if n.IsJson then some (n, cs.dropWhile isNumberChar) else none
    | none => none

/-- The white space of JSON. -/
def isWhitespace (c : Char) : Bool := c == ' ' || c == '\t' || c == '\n' || c == '\r'

/-- The first token of a text, and what follows it. -/
def takeToken? : List Char → Option (Token (Option String) × List Char)
  | '[' :: rest => some (.openArray, rest)
  | ']' :: rest => some (.closeArray, rest)
  | '\x7b' :: rest => some (.openObject, rest)
  | '\x7d' :: rest => some (.closeObject, rest)
  | ',' :: rest => some (.comma, rest)
  | ':' :: rest => some (.colon, rest)
  | 'n' :: 'u' :: 'l' :: 'l' :: rest => some (.null, rest)
  | 't' :: 'r' :: 'u' :: 'e' :: rest => some (.bool true, rest)
  | 'f' :: 'a' :: 'l' :: 's' :: 'e' :: rest => some (.bool false, rest)
  | '\x22' :: rest => (takeString? rest).map fun (s, rest) => (.string s, rest)
  | cs => (takeNumber? cs).map fun (n, rest) => (.number n, rest)

/-! ## Progress -/

/-- Reading the rest of a string never gives text back. -/
theorem length_lt_of_takeUnits? {units read : List Nat} {cs rest : List Char}
    (h : takeUnits? units cs = some (read, rest)) : rest.length < cs.length := by
  fun_induction takeUnits? units cs with
  | case1 => cases h
  | case2 => cases h; exact Nat.lt_succ_self _
  | case3 units a b c d tail unit _ ih => have := ih h; simp only [List.length_cons]; omega
  | case4 => cases h
  | case5 units c tail _ unit _ ih => have := ih h; simp only [List.length_cons]; omega
  | case6 => cases h
  | case7 => cases h
  | case8 units c tail _ _ _ _ ih => have := ih h; simp only [List.length_cons]; omega

/-- A number has at least one character. -/
theorem length_lt_of_takeNumber? {n : Numeral} {cs rest : List Char}
    (h : takeNumber? cs = some (n, rest)) : rest.length < cs.length := by
  unfold takeNumber? at h
  split at h
  · cases h
  · next c more hspan =>
    have hsplit : (c :: more) ++ cs.dropWhile isNumberChar = cs := by
      rw [← hspan, List.takeWhile_append_dropWhile]
    have hlength := congrArg List.length hsplit
    simp only [List.length_append, List.length_cons] at hlength
    split at h
    · split at h
      · cases h; omega
      · cases h
    · cases h

/-- A token has at least one character. -/
theorem length_lt_of_takeToken? {t : Token (Option String)} {cs rest : List Char}
    (h : takeToken? cs = some (t, rest)) : rest.length < cs.length := by
  unfold takeToken? at h
  split at h
  case h_10 tail =>
    obtain ⟨⟨s, r⟩, hs, hr⟩ := Option.map_eq_some_iff.mp h
    obtain ⟨⟨u, r'⟩, hu, hr'⟩ := Option.map_eq_some_iff.mp hs
    cases hr; cases hr'
    exact Nat.lt_succ_of_lt (length_lt_of_takeUnits? hu)
  case h_11 =>
    obtain ⟨⟨n, r⟩, hn, hr⟩ := Option.map_eq_some_iff.mp h
    cases hr
    exact length_lt_of_takeNumber? hn
  all_goals
    cases h
    simp only [List.length_cons]
    omega

/-! ## The whole text -/

/-- The tokens of a text, after those already found, which are given last one first. -/
def lexFrom? (found : List (Token (Option String))) :
    List Char → Option (List (Token (Option String)))
  | [] => some found.reverse
  | c :: rest =>
    if isWhitespace c then
      lexFrom? found rest
    else
      match _h : takeToken? (c :: rest) with
      | some (token, rest') => lexFrom? (token :: found) rest'
      | none => none
termination_by cs => cs.length
decreasing_by
  · exact Nat.lt_succ_self _
  · exact length_lt_of_takeToken? _h

/-- The tokens of a text. -/
def lex? (cs : List Char) : Option (List (Token (Option String))) := lexFrom? [] cs

end Rulebook.Json
