/-!
# Ranges of code points

A character property is a short list of closed ranges of code points.  Membership is a plain scan
of the list, so a proof about a property is a finite check of its ranges.
-/

namespace Rulebook.Text

/-- Closed ranges of code points, each written as its first and its last member. -/
abbrev Ranges := List (Nat × Nat)

/-- Whether one of the ranges holds the character. -/
def Ranges.contains (ranges : Ranges) (c : Char) : Bool :=
  ranges.any fun range => range.1 ≤ c.toNat && c.toNat ≤ range.2

@[simp] theorem Ranges.contains_nil (c : Char) : Ranges.contains [] c = false := rfl

@[simp] theorem Ranges.contains_cons (first last : Nat) (ranges : Ranges) (c : Char) :
    Ranges.contains ((first, last) :: ranges) c =
      ((first ≤ c.toNat && c.toNat ≤ last) || Ranges.contains ranges c) := rfl

end Rulebook.Text
