import Rulebook.Condition.Basic
import Rulebook.Error
import Rulebook.Text.Mark
import Rulebook.Text.Word

/-!
# Reading conditions

A condition is a field name, a comparator and a literal, with blanks allowed around the comparator.
The reading is deterministic: no word character is blank, no blank starts a comparator, and no
literal starts with a blank or with the second character of a comparator, so each part ends where
its characters end and nothing has to be tried twice.

* `readLiteral?`: a quoted text, or a bare word that is a number if it reads as one.
* `Condition.ofTrimmed?`: the parts of a condition.
* `Condition.read`: the condition that a text is, or the error that quotes the text.
* `Connective.read`, `Comparator.read`: single keywords and symbols.
-/

namespace Rulebook

open Text (isBlank isNameStart isQuote isWord trim)

/-! ## Literals -/

/-- A character of a bare literal: no blank, quote, parenthesis or part of a comparator. -/
def isBare (c : Char) : Bool :=
  !(isBlank c || isQuote c || c == '(' || c == ')' || c == '<' || c == '>' || c == '=' || c == '!')

/-- A bare literal is the number it reads as, and otherwise its text. -/
def Literal.ofBare (cs : List Char) : Literal :=
  match Binary64.read? cs with
  | some x => .number x
  | none => .text (String.ofList cs)

/-- The literal that a text is.  Between quotes stands at least one character, none of them the
same quote; what is quoted stays a text even if it reads as a number. -/
def readLiteral? : List Char → Option Literal
  | [] => none
  | c :: rest =>
    if isQuote c then
      let inside := rest.takeWhile (· != c)
      if rest.dropWhile (· != c) = [c] ∧ inside ≠ [] then some (.text (String.ofList inside))
      else none
    else if (c :: rest).all isBare then some (Literal.ofBare (c :: rest))
    else none

/-! ## Comparators -/

/-- The comparator at the start of a text, the longer ones first, and what follows it. -/
def takeComparator? : List Char → Option (Comparator × List Char)
  | '>' :: '=' :: rest => some (.greaterEqual, rest)
  | '<' :: '=' :: rest => some (.lessEqual, rest)
  | '!' :: '=' :: rest => some (.notEqual, rest)
  | '>' :: rest => some (.greater, rest)
  | '<' :: rest => some (.less, rest)
  | '=' :: rest => some (.equal, rest)
  | _ => none

/-! ## Conditions -/

/-- The field name at the start of a text, and what follows it. -/
def takeName? : List Char → Option (List Char × List Char)
  | [] => none
  | c :: rest =>
    if isNameStart c then some (c :: rest.takeWhile isWord, rest.dropWhile isWord) else none

/-- The condition that a text without blanks at its ends is. -/
def Condition.ofTrimmed? (cs : List Char) : Option Condition := do
  let (name, afterName) ← takeName? cs
  let (comparator, afterComparator) ← takeComparator? (afterName.dropWhile isBlank)
  let literal ← readLiteral? (afterComparator.dropWhile isBlank)
  return ⟨String.ofList name, comparator, literal, String.ofList cs⟩

/-- The condition that a text is.  Blanks at the ends are dropped first, also from the text that an
error quotes. -/
def Condition.read (cs : List Char) : Except RuleError Condition :=
  match Condition.ofTrimmed? (trim cs) with
  | some condition => .ok condition
  | none => .error (.condition (.noComparison (String.ofList (trim cs))))

/-- The condition that a string is. -/
def Condition.ofString (s : String) : Except RuleError Condition := Condition.read s.toList

/-! ## Single words -/

/-- The connective that a string is. -/
def Connective.read (s : String) : Except RuleError Connective :=
  match Connective.ofKeyword? s with
  | some connective => .ok connective
  | none => .error (.unknownOperator s)

/-- The comparator that a string is. -/
def Comparator.read (s : String) : Except RuleError Comparator :=
  match Comparator.ofSymbol? s with
  | some comparator => .ok comparator
  | none => .error (.condition (.unknownComparator s))

end Rulebook
