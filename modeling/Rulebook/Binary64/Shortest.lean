import Rulebook.Binary64.Basic
import Rulebook.Decimal.Positional

/-!
# The fewest digits that read back

Every real number of a certain interval rounds to a given finite number.  Of the decimals in that
interval the ones with the fewest significant digits are wanted, and of those the one nearest to
the number.  The search goes through the decimal grids from the coarsest one that has a digit of
the number to the one with seventeen digits, and tries the two grid points next to the number: if
any point of a grid lies in the interval, one of these two does.

Two printers share this search and differ in one case, a number halfway between two grid points
that both read back.  `Tie` is that choice.
-/

namespace Rulebook.Binary64

/-- What becomes of a number halfway between two candidates. -/
inductive Tie where
  /-- The candidate further from zero. -/
  | away
  /-- The candidate whose last digit is even. -/
  | even
  deriving DecidableEq, Repr

/-- The place of the first digit of `num / den`: the greatest `p` with `10 ^ p ≤ num / den`. -/
def firstPlace (num den : Nat) : Int :=
  if den ≤ num then
    (Nat.toDigits 10 (num / den)).length - 1
  else
    -((Nat.toDigits 10 ((den - 1) / num)).length : Int)

/-- The point of the grid `10 ^ place` that stands for a positive magnitude, if one does.  All
lengths are in halves of a unit, multiplied by the power of ten that makes them integers; the ends
of the interval belong to it when the magnitude is even. -/
def gridPoint? (tie : Tie) (magnitude : Nat) (place : Int) : Option Nat :=
  let shrink := Nat.pow 10 (-place).toNat
  let step := Nat.pow 10 place.toNat <<< 1075
  let number := 2 * units magnitude * shrink
  let low := (units (magnitude - 1) + units magnitude) * shrink
  let high := (units magnitude + units (magnitude + 1)) * shrink
  let readsBack (c : Nat) : Bool :=
    if magnitude % 2 = 0 then low ≤ c * step && c * step ≤ high
    else low < c * step && c * step < high
  let c := number / step
  match readsBack c, readsBack (c + 1) with
  | false, false => none
  | true, false => some c
  | false, true => some (c + 1)
  | true, true =>
    let below := number - c * step
    let above := (c + 1) * step - number
    if below < above then some c
    else if above < below then some (c + 1)
    else match tie with
      | .away => some (c + 1)
      | .even => some (c + c % 2)

/-- The shortest figures that read back as a positive finite magnitude.  Seventeen digits always
do; the exact expansion stands in where the search is given something else. -/
def shortest (tie : Tie) (magnitude : Nat) : Decimal.Figures :=
  let first := firstPlace (units magnitude) (1 <<< 1074)
  let found := (List.range 17).findSome? fun (more : Nat) =>
    (gridPoint? tie magnitude (first - more)).map fun c => Decimal.Figures.ofNat c (first - more)
  found.getD (.ofNat (units magnitude * Nat.pow 5 1074) (-1074))

/-- The shortest figures of a finite number's magnitude. -/
def figures (tie : Tie) (x : Binary64) : Decimal.Figures :=
  if x.magnitude = 0 then .zero else shortest tie x.magnitude

/-- The sign as it is written: negative numbers, and the negative zero, have a minus. -/
def writtenSign (x : Binary64) : Option Decimal.Sign :=
  if x.isNegative then some .minus else none

/-! ## Figures are digits -/

theorem isNumeric_shortest (tie : Tie) (m : Nat) : (shortest tie m).IsNumeric := by
  unfold shortest
  simp only []
  generalize hfound : List.findSome? _ (List.range 17) = found
  cases found with
  | none => exact Decimal.Figures.isNumeric_ofNat _ _
  | some f =>
    obtain ⟨more, _, hmore⟩ := List.exists_of_findSome?_eq_some hfound
    obtain ⟨c, _, rfl⟩ := Option.map_eq_some_iff.mp hmore
    exact Decimal.Figures.isNumeric_ofNat _ _

theorem isNumeric_figures (tie : Tie) (x : Binary64) : (x.figures tie).IsNumeric := by
  unfold figures
  split
  · exact Decimal.Figures.isNumeric_zero
  · exact isNumeric_shortest _ _

end Rulebook.Binary64
