import Rulebook.Decimal.Numeral.Lemmas

/-!
# Digits and their place

A number that is to be written comes as its significant digits and the place of the decimal point.
Here the digits are laid out around that point.

* `Figures`: significant digits, and the point counted from the first of them.
* `Figures.ofNat`: the figures of `coefficient · 10 ^ exponent`, without zeros at the end.
* `Figures.plain`: all digits around the point, however far away it is.
* `Figures.scientific`: one digit before the point, and a power of ten.
* `Figures.isPlain_toNumeral`: what is written out in full is a plain numeral.
-/

namespace Rulebook.Decimal

/-- Significant digits, of which the first `point` stand before the decimal point. -/
structure Figures where
  digits : List Char
  point : Int
  deriving DecidableEq, Repr

namespace Figures

/-- The figures of zero. -/
def zero : Figures := ⟨['0'], 1⟩

/-- The figures of `coefficient · 10 ^ exponent`; zeros at the end carry no information. -/
def ofNat (coefficient : Nat) (exponent : Int) : Figures :=
  let digits := Nat.toDigits 10 coefficient
  ⟨(digits.reverse.dropWhile (· == '0')).reverse, digits.length + exponent⟩

/-- The digits before and after the point, with zeros where the digits do not reach it.  At least
one digit stands before the point. -/
def plain (f : Figures) : List Char × List Char :=
  if f.point ≤ 0 then
    (['0'], List.replicate (-f.point).toNat '0' ++ f.digits)
  else
    let before := f.point.toNat
    (f.digits.take before ++ List.replicate (before - f.digits.length) '0', f.digits.drop before)

/-- The first digit, the others, and the power of ten that makes up for the moved point. -/
def scientific (f : Figures) : List Char × List Char × Int :=
  (f.digits.take 1, f.digits.drop 1, f.point - 1)

/-- The figures written out in full, with a point only where digits follow it. -/
def toNumeral (sign : Option Sign) (f : Figures) : Numeral :=
  let (whole, fraction) := f.plain
  ⟨sign, whole, if fraction.isEmpty then none else some fraction, none⟩

/-! ## Figures make numerals -/

/-- Whether the digits are digits. -/
def IsNumeric (f : Figures) : Prop := ∀ c ∈ f.digits, c.isDigit = true

theorem isNumeric_zero : zero.IsNumeric := by simp [IsNumeric, zero]

theorem isNumeric_ofNat (coefficient : Nat) (exponent : Int) :
    (ofNat coefficient exponent).IsNumeric := by
  intro c hc
  simp only [ofNat, List.mem_reverse] at hc
  have hmem := (List.dropWhile_sublist _).subset hc
  rw [List.mem_reverse] at hmem
  exact Nat.isDigit_of_mem_toDigits (by decide) (by decide) hmem

theorem isDigit_of_mem_replicate {n : Nat} {c : Char} (h : c ∈ List.replicate n '0') :
    c.isDigit = true := by
  rw [List.eq_of_mem_replicate h]
  rfl

theorem IsNumeric.plain {f : Figures} (h : f.IsNumeric) :
    (∀ c ∈ f.plain.1, c.isDigit = true) ∧ ∀ c ∈ f.plain.2, c.isDigit = true := by
  unfold Figures.plain
  split
  · refine ⟨by simp, fun c hc => ?_⟩
    rcases List.mem_append.mp hc with hc | hc
    · exact isDigit_of_mem_replicate hc
    · exact h c hc
  · refine ⟨fun c hc => ?_, fun c hc => h c (List.mem_of_mem_drop hc)⟩
    rcases List.mem_append.mp hc with hc | hc
    · exact h c (List.mem_of_mem_take hc)
    · exact isDigit_of_mem_replicate hc

/-- At least one digit stands before the point. -/
theorem plain_fst_ne_nil (f : Figures) : f.plain.1 ≠ [] := by
  unfold Figures.plain
  split
  · exact List.cons_ne_nil _ _
  · next h =>
    intro hnil
    have hlength := congrArg List.length hnil
    simp only [List.length_append, List.length_take, List.length_replicate,
      List.length_nil] at hlength
    omega

theorem IsNumeric.toNumeral {f : Figures} (h : f.IsNumeric) (sign : Option Sign) :
    (f.toNumeral sign).IsNumeric := by
  refine ⟨h.plain.1, fun digits hdigits => ?_, nofun⟩
  simp only [Figures.toNumeral] at hdigits
  split at hdigits
  · cases hdigits
  · cases hdigits
    exact h.plain.2

theorem isPlain_toNumeral (f : Figures) (sign : Option Sign) : (f.toNumeral sign).IsPlain :=
  ⟨Or.inl f.plain_fst_ne_nil, nofun⟩

end Figures

end Rulebook.Decimal
