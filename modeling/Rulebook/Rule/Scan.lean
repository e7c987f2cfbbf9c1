import Rulebook.Error
import Rulebook.Text.Mark

/-!
# Scanning a rule

Whatever looks for structure in a rule has to know, at each character, how many parentheses are
open there and whether the character is quoted.  `Scan` is that knowledge, and `Scan.step` carries
it over one character.  The depth is an integer, since a text on its own may close more than it
opened.

A text is balanced when no prefix closes more than it opens, everything opened is closed, and no
quote is left open.  `balanceFault?` names the first of these that fails, in this order.
-/

namespace Rulebook

open Text (isQuote)

/-- What is open at a place in a rule. -/
structure Scan where
  /-- The parentheses opened before, less those closed. -/
  depth : Int
  /-- The quote that is open, if one is. -/
  quote : Option Char
  deriving DecidableEq, Repr

namespace Scan

/-- Nothing is open. -/
def start : Scan := ⟨0, none⟩

/-- The scan after one more character.  Inside quotes only the same quote counts. -/
def step (s : Scan) (c : Char) : Scan :=
  match s.quote with
  | some q => if c = q then ⟨s.depth, none⟩ else s
  | none =>
    if isQuote c then ⟨s.depth, some c⟩
    else if c = '(' then ⟨s.depth + 1, none⟩
    else if c = ')' then ⟨s.depth - 1, none⟩
    else s

/-- Whether a place lies outside all parentheses and quotes. -/
def isGround (s : Scan) : Bool := s.quote.isNone && s.depth == 0

@[simp] theorem isGround_start : start.isGround = true := rfl

/-- The scan after a text. -/
def run (s : Scan) (cs : List Char) : Scan := cs.foldl step s

@[simp] theorem run_nil (s : Scan) : s.run [] = s := rfl

@[simp] theorem run_cons (s : Scan) (c : Char) (cs : List Char) :
    s.run (c :: cs) = (s.step c).run cs := rfl

theorem run_append (s : Scan) (cs ds : List Char) : s.run (cs ++ ds) = (s.run cs).run ds :=
  List.foldl_append

end Scan

/-! ## Balance -/

/-- The fault at the end of a text in which no prefix closes more than it opens. -/
def Scan.endFault? (s : Scan) : Option BalanceFault :=
  if s.quote.isSome then some .openQuote
  else if s.depth ≠ 0 then some (.unclosed s.depth.toNat)
  else none

/-- The balance fault of a text that goes on at a scan, `offset` bytes from the start. -/
def balanceFaultFrom? (s : Scan) (offset : Nat) : List Char → Option BalanceFault
  | [] => s.endFault?
  | c :: rest =>
    if (s.step c).depth < 0 then some (.unmatchedClose offset)
    else balanceFaultFrom? (s.step c) (offset + c.utf8Size) rest

/-- What keeps a text from being balanced, if anything does. -/
def balanceFault? (cs : List Char) : Option BalanceFault := balanceFaultFrom? .start 0 cs

/-- Whether parentheses and quotes of a text balance. -/
def isBalanced (cs : List Char) : Bool := (balanceFault? cs).isNone

@[simp] theorem isBalanced_nil : isBalanced [] = true := rfl

end Rulebook
