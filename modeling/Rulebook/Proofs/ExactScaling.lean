import Rulebook.Json.Number

/-!
# Where scaling is exact

A JSON numeral is valued by rounding its coefficient and a power of ten and then rounding their
product or quotient (`Binary64.scaled`).  The nearest number to the decimal takes one rounding
(`Binary64.ofDecimal`).  The two differ in general, and they agree where the first roundings change
nothing.  They change nothing to a number that has a magnitude of its own (`nearest_units`), and
these are the numbers of 53 binary digits in any place (`exists_units_eq`).  A power of ten is a
power of five, which has to fit in 53 binary digits, in another place; so ten may be raised to the
power of 22.  What is then left is a quotient of two natural numbers in lowest or other terms, and
rounding does not see the terms (`nearest_mul_mul`).

Whole numbers written without a power of ten are multiplied by one.  They are rounded twice, and the
second time changes nothing.

* `Decimal.Numeral.IsShort`: numerals of these two kinds.
* `Json.numberOf_eq_ofDecimal`: JSON values them at the nearest number.
-/

namespace Rulebook

namespace Binary64

/-! ## Rounding a quotient -/

/-- A whole number is not changed. -/
theorem roundHalfEven_mul (q : Nat) {d : Nat} (hd : 0 < d) : roundHalfEven (q * d) d = q := by
  unfold roundHalfEven
  simp only [Nat.mul_mod_left, Nat.mul_zero, if_pos hd]
  exact Nat.mul_div_cancel q hd

/-- The terms of the quotient do not matter. -/
theorem roundHalfEven_mul_mul (num den : Nat) {k : Nat} (hk : 0 < k) :
    roundHalfEven (num * k) (den * k) = roundHalfEven num den := by
  unfold roundHalfEven
  simp only [Nat.mul_div_mul_right _ _ hk, Nat.mul_mod_mul_right, ← Nat.mul_assoc,
    Nat.mul_lt_mul_right hk]

theorem nearest_mul_mul (num den : Nat) {k : Nat} (hk : 0 < k) :
    nearest (num * k) (den * k) = nearest num den := by
  have hshift : ∀ a s : Nat, (a * k) <<< s = a <<< s * k := fun a s => by
    rw [Nat.shiftLeft_eq, Nat.shiftLeft_eq, Nat.mul_right_comm]
  unfold nearest
  simp only [hshift, Nat.mul_div_mul_right _ _ hk, roundHalfEven_mul_mul _ _ hk]

theorem nearest_zero {den : Nat} (h : 0 < den) : nearest 0 den = 0 := by
  have hround := roundHalfEven_mul 0 h
  rw [Nat.zero_mul] at hround
  unfold nearest
  simp only [Nat.zero_shiftLeft, Nat.zero_div, Nat.log2_zero, Nat.zero_sub, Nat.zero_mul,
    Nat.shiftLeft_zero, hround]
  rfl

/-! ## Numbers that have a magnitude -/

/-- Up to the second scale a magnitude is its number of units. -/
theorem units_of_lt {m : Nat} (h : m < 2 * scaleSize) : units m = m := by
  have hscale : m / scaleSize - 1 = 0 := by
    have hdiv : m / scaleSize < 2 := Nat.div_lt_of_lt_mul (by rwa [Nat.mul_comm] at h)
    omega
  show (m - (m / scaleSize - 1) * scaleSize) <<< (m / scaleSize - 1) = m
  rw [hscale, Nat.zero_mul, Nat.sub_zero, Nat.shiftLeft_zero]

/-- In each scale the 53 binary digits of a magnitude are shifted by the number of the scale. -/
theorem units_add {q : Nat} (s : Nat) (hle : scaleSize ≤ q) (hlt : q < 2 * scaleSize) :
    units (s * scaleSize + q) = q <<< s := by
  have hscale : (s * scaleSize + q) / scaleSize - 1 = s := by
    unfold scaleSize at *
    omega
  show (s * scaleSize + q - ((s * scaleSize + q) / scaleSize - 1) * scaleSize) <<<
    ((s * scaleSize + q) / scaleSize - 1) = q <<< s
  rw [hscale, Nat.add_sub_cancel_left]

/-! ## Units -/

theorem shiftLeft_eq_mul (n k : Nat) : n <<< k = n * 1 <<< k := by
  rw [Nat.shiftLeft_eq, Nat.shiftLeft_eq, Nat.one_mul]

theorem one_shiftLeft_pos (k : Nat) : 0 < 1 <<< k := by
  rw [Nat.shiftLeft_eq, Nat.one_mul]
  exact Nat.two_pow_pos k

/-- The number one in units of `2 ^ -1074`. -/
def unitsOfOne : Nat := 1 <<< 1074

theorem unitsOfOne_pos : 0 < unitsOfOne := one_shiftLeft_pos 1074

theorem shiftLeft_1074 (n : Nat) : n <<< 1074 = n * unitsOfOne := shiftLeft_eq_mul n 1074

theorem one_shiftLeft_2148 : 1 <<< 2148 = 1 * unitsOfOne * unitsOfOne := by
  rw [← shiftLeft_1074, ← shiftLeft_1074, ← Nat.shiftLeft_add]

/-- Rounding a number of units. -/
theorem nearest_unitsOfOne (n : Nat) : nearest n unitsOfOne =
    min infinityMagnitude
      ((n.log2 - 52) * scaleSize + roundHalfEven n (1 <<< (n.log2 - 52))) := by
  have hnearest : ∀ num den, nearest num den = min infinityMagnitude
      (((num <<< 1074 / den).log2 - 52) * scaleSize +
        roundHalfEven (num <<< 1074) (den <<< ((num <<< 1074 / den).log2 - 52))) :=
    fun _ _ => rfl
  have hshift : ∀ s, unitsOfOne <<< s = 1 <<< s * unitsOfOne := fun s => by
    rw [shiftLeft_eq_mul, Nat.mul_comm]
  rw [hnearest, shiftLeft_1074, Nat.mul_div_cancel _ unitsOfOne_pos, hshift,
    roundHalfEven_mul_mul _ _ unitsOfOne_pos]

/-- A number that has a magnitude is rounded to this magnitude. -/
theorem nearest_units {m : Nat} (h : m ≤ infinityMagnitude) : nearest (units m) unitsOfOne = m := by
  rw [nearest_unitsOfOne]
  by_cases hsmall : m < 2 * scaleSize
  · have hlog : m.log2 - 52 = 0 := by
      rcases Nat.eq_zero_or_pos m with rfl | hpos
      · rfl
      · have hlt : m.log2 < 53 := (Nat.log2_lt (Nat.ne_of_gt hpos)).mpr hsmall
        omega
    have hround := roundHalfEven_mul m Nat.one_pos
    rw [Nat.mul_one] at hround
    rw [units_of_lt hsmall, hlog, Nat.zero_mul, Nat.zero_add, Nat.shiftLeft_zero, hround]
    exact Nat.min_eq_right h
  · obtain ⟨s, q, rfl, hle, hlt⟩ :
        ∃ s q, m = s * scaleSize + q ∧ scaleSize ≤ q ∧ q < 2 * scaleSize := by
      refine ⟨m / scaleSize - 1, m - (m / scaleSize - 1) * scaleSize, ?_⟩
      unfold scaleSize at *
      omega
    have hlog : (q <<< s).log2 = 52 + s := by
      have hpos : 0 < 2 ^ s := Nat.two_pow_pos s
      have hq : 0 < q := Nat.lt_of_lt_of_le (by decide) hle
      rw [Nat.shiftLeft_eq]
      refine (Nat.log2_eq_iff (Nat.ne_of_gt (Nat.mul_pos hq hpos))).mpr ⟨?_, ?_⟩
      · rw [Nat.pow_add]
        exact Nat.mul_le_mul_right _ hle
      · rw [Nat.add_right_comm, Nat.pow_add]
        exact Nat.mul_lt_mul_of_pos_right hlt hpos
    rw [units_add s hle hlt, hlog, Nat.add_sub_cancel_left, shiftLeft_eq_mul,
      roundHalfEven_mul _ (one_shiftLeft_pos s)]
    exact Nat.min_eq_right h

/-- A number of 53 binary digits in any place has a magnitude. -/
theorem exists_units_eq {k : Nat} (hk : k ≤ 2044) {a : Nat} (ha : a ≤ 2 * scaleSize) :
    ∃ m ≤ infinityMagnitude, units m = a <<< k := by
  have htop : ∀ j ≤ 2044, ∃ m ≤ infinityMagnitude, units m = (2 * scaleSize) <<< j := fun j hj => by
    refine ⟨(j + 1) * scaleSize + scaleSize, ?_, ?_⟩
    · unfold scaleSize infinityMagnitude
      omega
    · rw [units_add (j + 1) (Nat.le_refl _) (by decide), Nat.shiftLeft_succ_inside]
  induction k generalizing a with
  | zero =>
    rcases Nat.lt_or_eq_of_le ha with hlt | rfl
    · refine ⟨a, ?_, units_of_lt hlt⟩
      unfold scaleSize at hlt
      unfold infinityMagnitude
      omega
    · exact htop 0 hk
  | succ k ih =>
    rcases Nat.lt_or_eq_of_le ha with hlt | rfl
    · by_cases hsmall : a < scaleSize
      · -- The digits have room for one more, so they can be moved by one place.
        rw [Nat.shiftLeft_succ_inside]
        exact ih (by omega) (by omega)
      · refine ⟨(k + 1) * scaleSize + a, ?_, units_add (k + 1) (Nat.not_lt.mp hsmall) hlt⟩
        unfold scaleSize at *
        unfold infinityMagnitude
        omega
    · exact htop (k + 1) hk

/-- Such a number is not changed when it is rounded. -/
theorem units_nearest {a k : Nat} (ha : a ≤ 2 * scaleSize) (hk : k ≤ 970) :
    units (nearest (a <<< k) 1) = a <<< k * unitsOfOne := by
  obtain ⟨m, hm, hunits⟩ := exists_units_eq (k := k + 1074) (by omega) ha
  rw [Nat.shiftLeft_add, shiftLeft_1074] at hunits
  have hnearest : nearest (a <<< k) 1 = m := by
    rw [← nearest_mul_mul _ _ unitsOfOne_pos, ← hunits, Nat.one_mul, nearest_units hm]
  rw [hnearest, hunits]

/-- Powers of ten up to the 22nd are not changed when they are rounded. -/
theorem units_powerOfTen {e : Nat} (h : e ≤ 22) :
    units (powerOfTen e) = Nat.pow 10 e * unitsOfOne := by
  have hten : Nat.pow 10 e = Nat.pow 5 e <<< e := by
    rw [Nat.shiftLeft_eq]
    exact Nat.mul_pow 5 2 e
  have hfive : Nat.pow 5 e ≤ 2 * scaleSize :=
    Nat.le_trans (Nat.pow_le_pow_right (by decide) h) (by decide)
  rw [powerOfTen, hten, units_nearest hfive (by omega)]

/-! ## Products and quotients -/

variable {x y a b : Nat}

/-- A product of numbers that were not changed is rounded once. -/
theorem product_eq_nearest (hx : units x = a * unitsOfOne) (hy : units y = b * unitsOfOne) :
    product x y = nearest (a * b) 1 := by
  have hunits : units x * units y = a * b * unitsOfOne * unitsOfOne := by
    rw [hx, hy, Nat.mul_mul_mul_comm, Nat.mul_assoc (a * b)]
  rw [product, hunits, one_shiftLeft_2148, nearest_mul_mul _ _ unitsOfOne_pos,
    nearest_mul_mul _ _ unitsOfOne_pos]

theorem quotient_eq_nearest (hx : units x = a * unitsOfOne) (hy : units y = b * unitsOfOne) :
    quotient x y = nearest a b := by
  rw [quotient, hx, hy, nearest_mul_mul _ _ unitsOfOne_pos]

/-- One is a factor that changes nothing. -/
theorem product_one {m : Nat} (h : m ≤ infinityMagnitude) : product m (powerOfTen 0) = m := by
  have hone : units (powerOfTen 0) = unitsOfOne :=
    (units_powerOfTen (Nat.zero_le 22)).trans (Nat.one_mul _)
  rw [product, hone, one_shiftLeft_2148, Nat.one_mul, nearest_mul_mul _ _ unitsOfOne_pos,
    nearest_units h]

/-! ## Decimals -/

/-- A decimal of moderate size is rounded as a quotient of natural numbers. -/
theorem nearestDecimal_ofNat {c e : Nat} (h : c.log2 + 3 * e < 1024) :
    nearestDecimal c (.ofNat e) = nearest (c * Nat.pow 10 e) 1 := by
  rw [nearestDecimal]
  split
  · next hzero => rw [hzero, Nat.zero_mul, nearest_zero Nat.one_pos]
  · rw [if_neg (Nat.not_le.mpr h)]

theorem nearestDecimal_negSucc {c e : Nat} (h : 3 * (e + 1) < 1076) :
    nearestDecimal c (.negSucc e) = nearest c (Nat.pow 10 (e + 1)) := by
  rw [nearestDecimal]
  split
  · next hzero =>
    have hpos : 0 < Nat.pow 10 (e + 1) := Nat.pow_pos (by decide)
    rw [hzero, nearest_zero hpos]
  · rw [if_neg (by omega)]

theorem log2_lt_of_le_maxWord {c : Nat} (h : c ≤ Decimal.maxWord) : c.log2 < 64 := by
  rcases Nat.eq_zero_or_pos c with rfl | hpos
  · decide
  · exact (Nat.log2_lt (Nat.ne_of_gt hpos)).mpr (Nat.lt_of_le_of_lt h (by decide))

theorem scaledMagnitude_ofNat (c : Nat) {e : Nat} (h : e ≤ maxPower) :
    scaledMagnitude c (.ofNat e) = product (nearest c 1) (powerOfTen e) := by
  rw [scaledMagnitude, if_pos h]

theorem scaledMagnitude_negSucc (c : Nat) {e : Nat} (h : e + 1 ≤ maxPower) :
    scaledMagnitude c (.negSucc e) = quotient (nearest c 1) (powerOfTen (e + 1)) := by
  rw [scaledMagnitude]
  exact if_pos h

/-- Coefficients of 53 binary digits and exponents of ten up to 22 are scaled exactly. -/
theorem scaledMagnitude_eq_nearestDecimal {c : Nat} {e : Int} (hc : c ≤ 2 * scaleSize)
    (he : e.natAbs ≤ 22) : scaledMagnitude c e = nearestDecimal c e := by
  have hlog : c.log2 < 64 := log2_lt_of_le_maxWord (Nat.le_trans hc (by decide))
  have hcoefficient : units (nearest c 1) = c * unitsOfOne := by
    have hunits := units_nearest hc (Nat.zero_le 970)
    rwa [Nat.shiftLeft_zero] at hunits
  cases e with
  | ofNat e =>
    have he : e ≤ 22 := he
    rw [nearestDecimal_ofNat (by omega), scaledMagnitude_ofNat c (Nat.le_trans he (by decide)),
      product_eq_nearest hcoefficient (units_powerOfTen he)]
  | negSucc e =>
    have he : e + 1 ≤ 22 := he
    rw [nearestDecimal_negSucc (by omega), scaledMagnitude_negSucc c (Nat.le_trans he (by decide)),
      quotient_eq_nearest hcoefficient (units_powerOfTen he)]

/-- So are whole numbers without a power of ten. -/
theorem scaledMagnitude_zero {c : Nat} (hc : c ≤ Decimal.maxWord) :
    scaledMagnitude c (.ofNat 0) = nearestDecimal c (.ofNat 0) := by
  have hlog : c.log2 < 64 := log2_lt_of_le_maxWord hc
  have hone : c * Nat.pow 10 0 = c := Nat.mul_one c
  rw [nearestDecimal_ofNat (by omega), scaledMagnitude_ofNat c (Nat.zero_le _),
    product_one (nearest_le _ _), hone]

end Binary64

/-! ## Numerals -/

/-- The digits of the numeral, read as one number, have at most 53 binary digits and are scaled by a
power of ten up to the 22nd; or they fit in a word and are not scaled. -/
def Decimal.Numeral.IsShort (n : Numeral) : Prop :=
  (n.value.coefficient ≤ 2 * Binary64.scaleSize ∧ n.value.exponent.natAbs ≤ 22) ∨
    (n.value.coefficient ≤ maxWord ∧ n.value.exponent = 0)

instance (n : Decimal.Numeral) : Decidable n.IsShort := inferInstanceAs (Decidable (_ ∨ _))

/-- JSON values a short numeral at the number nearest to it. -/
theorem Json.numberOf_eq_ofDecimal {n : Decimal.Numeral} (h : n.IsShort) :
    numberOf n = .ofDecimal n.value := by
  have hfits : n.value.coefficient ≤ Decimal.maxWord := by
    rcases h with ⟨h, -⟩ | ⟨h, -⟩
    · exact Nat.le_trans h (by decide)
    · exact h
  have hmagnitude : Binary64.scaledMagnitude n.value.coefficient n.value.exponent =
      Binary64.nearestDecimal n.value.coefficient n.value.exponent := by
    rcases h with ⟨hc, he⟩ | ⟨hc, he⟩
    · exact Binary64.scaledMagnitude_eq_nearestDecimal hc he
    · rw [he]
      exact Binary64.scaledMagnitude_zero hc
  rw [numberOf, Decimal.Numeral.leading_eq_value hfits, Binary64.scaled, Binary64.ofDecimal,
    hmagnitude]

end Rulebook
