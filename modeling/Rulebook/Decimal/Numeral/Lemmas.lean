import Rulebook.Decimal.Numeral

/-!
# Numerals read back from their texts

A numeral is read from left to right, and each part of it ends where its characters end.  So a part
is read back from a text as soon as the character after it cannot belong to it, and the parts of a
numeral follow each other in just that way.

* `Numeral.IsNumeric`: digits stand where digits should.
* `Numeral.read?_text`: the text of such a numeral reads as that numeral.
* `Numeral.isNumeric_of_read?`: every numeral that was read is of this kind.
* `Numeral.isJson_ofNat`, `Numeral.natural?_ofNat`: the numerals of natural numbers.
-/

namespace Rulebook

/-- A run of characters that pass a test ends where a character fails it. -/
theorem span_append {p : Char → Bool} {run rest : List Char} (hrun : ∀ c ∈ run, p c = true)
    (hrest : ∀ c ∈ rest.head?, p c = false) :
    (run ++ rest).takeWhile p = run ∧ (run ++ rest).dropWhile p = rest := by
  rw [List.takeWhile_append_of_pos hrun, List.dropWhile_append_of_pos hrun]
  cases rest with
  | nil => simp
  | cons c rest => simp [hrest c rfl]

namespace Decimal

/-- A sign is read back where no other sign follows. -/
theorem takeSign_text_append (s : Option Sign) {rest : List Char}
    (h : ∀ c ∈ rest.head?, c ≠ '+' ∧ c ≠ '-') : takeSign (Sign.text s ++ rest) = (s, rest) := by
  rcases s with _ | _ | _
  · rw [Sign.text, List.nil_append]
    unfold takeSign
    split
    · exact absurd rfl (h _ rfl).1
    · exact absurd rfl (h _ rfl).2
    · rfl
  · rfl
  · rfl

/-- Digits are read back where no other digit follows. -/
theorem takeDigits_append {digits rest : List Char} (hdigits : ∀ c ∈ digits, c.isDigit = true)
    (hrest : ∀ c ∈ rest.head?, c.isDigit = false) :
    takeDigits (digits ++ rest) = (digits, rest) := by
  obtain ⟨htake, hdrop⟩ := span_append hdigits hrest
  rw [takeDigits, htake, hdrop]

/-- What is taken as digits are digits. -/
theorem isDigit_of_mem_takeDigits {cs : List Char} {c : Char} (h : c ∈ (takeDigits cs).1) :
    c.isDigit = true :=
  List.all_eq_true.mp List.all_takeWhile c h

namespace Numeral

/-- The groups of digits in a numeral hold nothing but digits, as in every numeral that was read. -/
structure IsNumeric (n : Numeral) : Prop where
  whole : ∀ c ∈ n.whole, c.isDigit = true
  fraction : ∀ digits ∈ n.fraction, ∀ c ∈ digits, c.isDigit = true
  exponent : ∀ e ∈ n.exponent, ∀ c ∈ e.digits, c.isDigit = true

theorem head?_exponentText {e : Option Exponent} {c : Char} (h : c ∈ (exponentText e).head?) :
    c = 'e' := by
  cases e with
  | none => cases h
  | some e => cases h; rfl

theorem head?_fractionText_append {f : Option (List Char)} {e : Option Exponent} {c : Char}
    (h : c ∈ (fractionText f ++ exponentText e).head?) : c = '.' ∨ c = 'e' := by
  cases f with
  | none => exact Or.inr (head?_exponentText h)
  | some digits => cases h; exact Or.inl rfl

theorem takeExponent_text {e : Option Exponent}
    (h : ∀ e' ∈ e, ∀ c ∈ e'.digits, c.isDigit = true) :
    takeExponent (exponentText e) = (e, []) := by
  cases e with
  | none => rfl
  | some e =>
    have hdigits : takeDigits e.digits = (e.digits, []) := by
      have h' : takeDigits (e.digits ++ []) = (e.digits, []) := takeDigits_append (h e rfl) nofun
      rwa [List.append_nil] at h'
    have hsign : takeSign (Sign.text e.sign ++ e.digits) = (e.sign, e.digits) := by
      refine takeSign_text_append e.sign fun c hc => ?_
      have hd := h e rfl c (List.mem_of_mem_head? hc)
      refine ⟨?_, ?_⟩ <;> rintro rfl <;> cases hd
    simp only [exponentText, takeExponent, takePower, hsign, hdigits]

theorem takeFraction_text_append {f : Option (List Char)} {e : Option Exponent}
    (h : ∀ digits ∈ f, ∀ c ∈ digits, c.isDigit = true) :
    takeFraction (fractionText f ++ exponentText e) = (f, exponentText e) := by
  cases f with
  | none =>
    cases e with
    | none => rfl
    | some e => rfl
  | some digits =>
    have hrest : ∀ c ∈ (exponentText e).head?, c.isDigit = false := by
      intro c hc
      rw [head?_exponentText hc]
      rfl
    simp only [fractionText, List.cons_append, takeFraction, takeDigits_append (h digits rfl) hrest]

/-- The text of a numeral reads as that numeral. -/
theorem read?_text {n : Numeral} (h : n.IsNumeric) : read? n.text = some n := by
  have hwhole : takeDigits (n.whole ++ (fractionText n.fraction ++ exponentText n.exponent)) =
      (n.whole, fractionText n.fraction ++ exponentText n.exponent) := by
    refine takeDigits_append h.whole fun c hc => ?_
    rcases head?_fractionText_append hc with rfl | rfl <;> rfl
  have hsign : takeSign n.text =
      (n.sign, n.whole ++ (fractionText n.fraction ++ exponentText n.exponent)) := by
    refine takeSign_text_append n.sign fun c hc => ?_
    rw [List.head?_append, Option.mem_def, Option.or_eq_some_iff] at hc
    rcases hc with hc | ⟨_, hc⟩
    · have hd := h.whole c (List.mem_of_mem_head? hc)
      refine ⟨?_, ?_⟩ <;> rintro rfl <;> cases hd
    · rcases head?_fractionText_append hc with rfl | rfl <;> decide
  simp only [read?, hsign, hwhole, takeFraction_text_append h.fraction,
    takeExponent_text h.exponent, List.isEmpty_nil, if_true]

/-- Every numeral that was read has digits where digits should be. -/
theorem isNumeric_of_read? {cs : List Char} {n : Numeral} (h : read? cs = some n) :
    n.IsNumeric := by
  simp only [read?] at h
  split at h
  · cases h
    refine ⟨fun c => isDigit_of_mem_takeDigits, fun digits hdigits => ?_, fun e he => ?_⟩
    · unfold takeFraction at hdigits
      split at hdigits
      · cases hdigits
        exact fun c => isDigit_of_mem_takeDigits
      · cases hdigits
    · unfold takeExponent at he
      split at he
      · cases he
        exact fun c => isDigit_of_mem_takeDigits
      · cases he
        exact fun c => isDigit_of_mem_takeDigits
      · cases he
  · cases h

/-! ## Natural numbers -/

@[simp] theorem isNumeric_ofNat (n : Nat) : (ofNat n).IsNumeric :=
  ⟨fun _ => Nat.isDigit_of_mem_toDigits (by decide) (by decide), nofun, nofun⟩

@[simp] theorem digitsValue_toDigits (n : Nat) : digitsValue (Nat.toDigits 10 n) = n :=
  Nat.ofDigitChars_ten_toDigits

/-- A natural number is read back if 64 bits hold it. -/
theorem natural?_ofNat {n : Nat} (h : n ≤ maxWord) : (ofNat n).natural? = some n := by
  simp [natural?, ofNat, h]

theorem ofNat_injective {m n : Nat} (h : ofNat m = ofNat n) : m = n := by
  have hdigits := congrArg (fun numeral => digitsValue numeral.whole) h
  simpa only [ofNat, digitsValue_toDigits] using hdigits

/-- The digits of a number start with a zero only if the number is zero. -/
theorem eq_zero_of_head?_toDigits {n : Nat} (h : (Nat.toDigits 10 n).head? = some '0') : n = 0 := by
  induction n using Nat.strongRecOn with
  | ind n ih =>
    rcases Nat.lt_or_ge n 10 with hlt | hle
    · rw [Nat.toDigits_of_lt_base hlt] at h
      have hdigit : digitsValue [n.digitChar] = n := by
        rw [← Nat.toDigits_of_lt_base hlt, digitsValue_toDigits]
      rw [← hdigit, Option.some.inj h]
      rfl
    · rw [Nat.toDigits_of_base_le (by decide) hle, List.head?_append, Option.or_eq_some_iff,
        List.head?_eq_none_iff] at h
      rcases h with h | ⟨hnil, -⟩
      · have hzero := ih (n / 10) (Nat.div_lt_self (by omega) (by decide)) h
        omega
      · exact absurd hnil Nat.toDigits_ne_nil

@[simp] theorem isJson_ofNat (n : Nat) : (ofNat n).IsJson := by
  refine ⟨nofun, Nat.toDigits_ne_nil, fun h => ?_, nofun, nofun⟩
  rw [eq_zero_of_head?_toDigits h]
  rfl

end Numeral
end Decimal

end Rulebook
