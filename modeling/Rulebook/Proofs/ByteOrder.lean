import Mathlib.Data.String.Basic

/-!
# The order of strings is the order of their bytes

Strings are compared character by character, by code point, and the names of rules are sorted by
their bytes.  In UTF-8 there is no difference.  A character is a lead byte, which grows with the
number of bytes that follow it, and then the digits of its code point to the base 64, the highest
first.  So the encodings of two characters differ at some byte that both have, and the lesser
character has the lesser byte there, whatever follows the two.

* `utf8EncodeChar_eq`: the lead byte and the digits of a character.
* `utf8EncodeChar_append_lt`: two characters, with anything after them.
* `utf8_lt_utf8_iff`: whole strings.
-/

namespace Rulebook.Text

/-! ## Digits -/

/-- The last `k` digits of a number to the base 64, marked as the later bytes of a character. -/
def laterBytes : Nat → Nat → List UInt8
  | 0, _ => []
  | k + 1, n => laterBytes k (n / 64) ++ [UInt8.ofNat (n % 64 + 128)]

theorem byte_cons_lt_iff {a b : Nat} (ha : a < 256) (hb : b < 256) {xs ys : List UInt8} :
    UInt8.ofNat a :: xs < UInt8.ofNat b :: ys ↔ a < b ∨ a = b ∧ xs < ys := by
  rw [List.cons_lt_cons_iff, UInt8.lt_iff_toNat_lt, ← UInt8.toNat_inj, UInt8.toNat_ofNat',
    UInt8.toNat_ofNat', Nat.mod_eq_of_lt ha, Nat.mod_eq_of_lt hb]

/-- Of two numbers that agree above their last `k` digits, the lesser has the lesser digits. -/
theorem laterBytes_append_lt {k m n : Nat} (hdiv : m / 64 ^ k = n / 64 ^ k) (h : m < n)
    (xs ys : List UInt8) : laterBytes k m ++ xs < laterBytes k n ++ ys := by
  induction k generalizing m n xs ys with
  | zero =>
    rw [Nat.pow_zero, Nat.div_one, Nat.div_one] at hdiv
    omega
  | succ k ih =>
    rw [laterBytes, laterBytes, List.append_assoc, List.append_assoc]
    rcases Nat.lt_or_ge (m / 64) (n / 64) with hlt | hge
    · rw [Nat.pow_succ', ← Nat.div_div_eq_div_mul, ← Nat.div_div_eq_div_mul] at hdiv
      exact ih hdiv hlt _ _
    · have heq : m / 64 = n / 64 := by omega
      rw [heq]
      refine List.append_left_lt ((byte_cons_lt_iff ?_ ?_).mpr (Or.inl ?_))
      · omega
      · omega
      · omega

/-! ## Characters -/

/-- The number of bytes after the lead byte of a character. -/
def laterCount (n : Nat) : Nat :=
  if n ≤ 0x7F then 0 else if n ≤ 0x7FF then 1 else if n ≤ 0xFFFF then 2 else 3

/-- What the lead byte of a character is raised by if so many bytes follow it. -/
def leadMark : Nat → Nat
  | 0 => 0
  | 1 => 192
  | 2 => 224
  | _ => 240

/-- The lead byte of a character. -/
def leadByte (n : Nat) : Nat := n / 64 ^ laterCount n + leadMark (laterCount n)

/-- The code points by the number of bytes after the lead byte. -/
theorem laterCount_cases (n : Nat) :
    laterCount n = 0 ∧ n < 128 ∨ laterCount n = 1 ∧ 128 ≤ n ∧ n < 2048 ∨
      laterCount n = 2 ∧ 2048 ≤ n ∧ n < 65536 ∨ laterCount n = 3 ∧ 65536 ≤ n := by
  unfold laterCount
  split
  · omega
  · split
    · omega
    · split <;> omega

/-- The lead bytes by the number of bytes after them. -/
theorem leadByte_cases (n : Nat) :
    laterCount n = 0 ∧ n < 128 ∧ leadByte n = n ∨
      laterCount n = 1 ∧ (128 ≤ n ∧ n < 2048) ∧ leadByte n = n / 64 + 192 ∨
      laterCount n = 2 ∧ (2048 ≤ n ∧ n < 65536) ∧ leadByte n = n / 4096 + 224 ∨
      laterCount n = 3 ∧ 65536 ≤ n ∧ leadByte n = n / 262144 + 240 := by
  rcases laterCount_cases n with ⟨hcount, hn⟩ | ⟨hcount, hn⟩ | ⟨hcount, hn⟩ | ⟨hcount, hn⟩
  · simp [leadByte, hcount, leadMark, hn]
  · simp [leadByte, hcount, leadMark, hn]
  · simp [leadByte, hcount, leadMark, hn]
  · simp [leadByte, hcount, leadMark, hn]

theorem toNat_val_lt (c : Char) : c.val.toNat < 0x110000 := by
  have hvalid := c.valid
  simp only [UInt32.isValidChar, Nat.isValidChar] at hvalid
  omega

/-- A character is its lead byte and the digits of its code point. -/
theorem utf8EncodeChar_eq (c : Char) :
    String.utf8EncodeChar c =
      UInt8.ofNat (leadByte c.val.toNat) :: laterBytes (laterCount c.val.toNat) c.val.toNat := by
  have hmax := toNat_val_lt c
  simp only [String.utf8EncodeChar]
  generalize c.val.toNat = n at *
  rcases leadByte_cases n with
    ⟨hcount, hn, hlead⟩ | ⟨hcount, hn, hlead⟩ | ⟨hcount, hn, hlead⟩ | ⟨hcount, hn, hlead⟩
  · rw [if_pos (by omega), hcount, hlead]
    rfl
  · have hmod : n / 64 % 32 = n / 64 := by omega
    rw [if_neg (by omega), if_pos (by omega), hcount, hlead, hmod]
    rfl
  · have hmod : n / 4096 % 16 = n / 4096 := by omega
    rw [if_neg (by omega), if_neg (by omega), if_pos (by omega), hcount, hlead, hmod]
    rfl
  · have hmod : n / 262144 % 8 = n / 262144 := by omega
    rw [if_neg (by omega), if_neg (by omega), if_neg (by omega), hcount, hlead, hmod]
    simp [laterBytes, Nat.div_div_eq_div_mul]

/-- The lead bytes of two characters are in order, and if they are the same, so are the digits that
do not follow them. -/
theorem leadByte_lt_or {m n : Nat} (h : m < n) (hmax : n < 0x110000) :
    leadByte m < leadByte n ∨ leadByte m = leadByte n ∧ laterCount m = laterCount n ∧
      m / 64 ^ laterCount n = n / 64 ^ laterCount n := by
  have hm := leadByte_cases m
  rcases leadByte_cases n with
    ⟨hcount, hn, hlead⟩ | ⟨hcount, hn, hlead⟩ | ⟨hcount, hn, hlead⟩ | ⟨hcount, hn, hlead⟩
  · omega
  · rw [hcount]
    omega
  · rw [hcount]
    omega
  · rw [hcount]
    omega

/-- The encoding of the lesser of two characters is the lesser one, and no matter what follows. -/
theorem utf8EncodeChar_append_lt {c d : Char} (h : c < d) (xs ys : List UInt8) :
    String.utf8EncodeChar c ++ xs < String.utf8EncodeChar d ++ ys := by
  have hval : c.val.toNat < d.val.toNat := UInt32.lt_iff_toNat_lt.mp (Char.lt_def.mp h)
  have hmax := toNat_val_lt d
  have hlead (n : Nat) (hn : n < 0x110000) : leadByte n < 256 := by
    have hcases := leadByte_cases n
    omega
  rw [utf8EncodeChar_eq, utf8EncodeChar_eq, List.cons_append, List.cons_append,
    byte_cons_lt_iff (hlead _ (toNat_val_lt c)) (hlead _ hmax)]
  rcases leadByte_lt_or hval hmax with hlt | ⟨heq, hcount, hdiv⟩
  · exact Or.inl hlt
  · rw [hcount]
    exact Or.inr ⟨heq, laterBytes_append_lt hdiv hval xs ys⟩

/-! ## Strings -/

/-- The bytes of a string in UTF-8. -/
def utf8 (s : String) : List UInt8 := s.toUTF8.data.toList

theorem utf8_eq_flatMap (s : String) : utf8 s = s.toList.flatMap String.utf8EncodeChar := by
  rw [utf8, String.toUTF8, ← String.utf8Encode_toList, List.utf8Encode, List.data_toByteArray]

theorem utf8_append (s t : String) : utf8 (s ++ t) = utf8 s ++ utf8 t := by
  simp only [utf8_eq_flatMap, String.toList_append, List.flatMap_append]

theorem flatMap_utf8EncodeChar_lt {cs ds : List Char} (h : cs < ds) :
    cs.flatMap String.utf8EncodeChar < ds.flatMap String.utf8EncodeChar := by
  induction h with
  | nil =>
    rw [List.flatMap_nil, List.flatMap_cons, utf8EncodeChar_eq]
    exact List.nil_lt_cons _ _
  | rel h =>
    rw [List.flatMap_cons, List.flatMap_cons]
    exact utf8EncodeChar_append_lt h _ _
  | cons _ ih =>
    rw [List.flatMap_cons, List.flatMap_cons]
    exact List.append_left_lt ih

/-- One string comes before another exactly if its bytes do. -/
theorem utf8_lt_utf8_iff {s t : String} : utf8 s < utf8 t ↔ s < t := by
  have hlt {s t : String} (h : s < t) : utf8 s < utf8 t := by
    rw [utf8_eq_flatMap, utf8_eq_flatMap]
    exact flatMap_utf8EncodeChar_lt (String.lt_iff_toList_lt.mp h)
  refine ⟨fun h => ?_, hlt⟩
  rcases lt_trichotomy s t with hst | rfl | hts
  · exact hst
  · exact absurd h (List.lt_irrefl _)
  · exact absurd (hlt hts) (List.lt_asymm h)

end Rulebook.Text
