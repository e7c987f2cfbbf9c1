import Rulebook.Decimal.Numeral

/-!
# JSON values

A JSON text is read in two steps, into tokens and then into a value.  Tokens and values are
parametrised by what their strings hold: a text as written may contain an escape that stands for no
character, so its strings are `Option String`, and only a reader that looks at a string asks for
the characters.  Numbers are kept as they are written, since some places take only bare digits.
Members of an object keep their order, and repeated keys are kept too.

* `Json`, `Json.Token`: values and tokens.
* `Json.tokens`: the tokens that a value is written with.
* `Json.withLastMembers`: a value in which the last one of each repeated key is left.
-/

namespace Rulebook

open Decimal (Numeral)

/-- A JSON value with strings in `σ`. -/
inductive Json (σ : Type) where
  | null
  | bool (b : Bool)
  | number (n : Numeral)
  | string (s : σ)
  | array (items : List (Json σ))
  | object (members : List (σ × Json σ))
  deriving Repr

namespace Json

variable {σ : Type}

/-- A JSON token with strings in `σ`. -/
inductive Token (σ : Type) where
  | openArray
  | closeArray
  | openObject
  | closeObject
  | comma
  | colon
  | null
  | bool (b : Bool)
  | number (n : Numeral)
  | string (s : σ)
  deriving DecidableEq, Repr

/-! ## The tokens of a value -/

mutual

/-- The tokens that a value is written with. -/
def tokens : Json σ → List (Token σ)
  | null => [.null]
  | bool b => [.bool b]
  | number n => [.number n]
  | string s => [.string s]
  | array items => .openArray :: itemTokens items
  | object members => .openObject :: memberTokens members

/-- The tokens of the items of an array, up to its end. -/
def itemTokens : List (Json σ) → List (Token σ)
  | [] => [.closeArray]
  | item :: rest => item.tokens ++ moreItemTokens rest

/-- The tokens after an item of an array, up to its end. -/
def moreItemTokens : List (Json σ) → List (Token σ)
  | [] => [.closeArray]
  | item :: rest => .comma :: (item.tokens ++ moreItemTokens rest)

/-- The tokens of the members of an object, up to its end. -/
def memberTokens : List (σ × Json σ) → List (Token σ)
  | [] => [.closeObject]
  | (key, value) :: rest => .string key :: .colon :: (value.tokens ++ moreMemberTokens rest)

/-- The tokens after a member of an object, up to its end. -/
def moreMemberTokens : List (σ × Json σ) → List (Token σ)
  | [] => [.closeObject]
  | (key, value) :: rest =>
    .comma :: .string key :: .colon :: (value.tokens ++ moreMemberTokens rest)

end

/-! ## Repeated keys -/

/-- The members of an object without those whose key comes again later. -/
def lastMembers [DecidableEq σ] : List (σ × Json σ) → List (σ × Json σ)
  | [] => []
  | (key, value) :: rest =>
    if rest.any (·.1 = key) then lastMembers rest else (key, value) :: lastMembers rest

mutual

/-- The value with only the last member of each key left, here and in all its parts. -/
def withLastMembers [DecidableEq σ] : Json σ → Json σ
  | null => null
  | bool b => bool b
  | number n => number n
  | string s => string s
  | array items => array (itemsWithLastMembers items)
  | object members => object (lastMembers (membersWithLastMembers members))

/-- The items of an array, each with only the last member of each key left. -/
def itemsWithLastMembers [DecidableEq σ] : List (Json σ) → List (Json σ)
  | [] => []
  | item :: rest => item.withLastMembers :: itemsWithLastMembers rest

/-- The members of an object, each value with only the last member of each key left. -/
def membersWithLastMembers [DecidableEq σ] : List (σ × Json σ) → List (σ × Json σ)
  | [] => []
  | (key, value) :: rest => (key, value.withLastMembers) :: membersWithLastMembers rest

end

/-- The values that an object gives for a key, in the order of the object. -/
def valuesOf [DecidableEq σ] (members : List (σ × Json σ)) (key : σ) : List (Json σ) :=
  (members.filter (·.1 = key)).map Prod.snd

end Json

end Rulebook
