import Rulebook.Proofs.ByteOrder
import Rulebook.Proofs.Keyword

/-!
# Scanning bytes

A rule comes as bytes of UTF-8, and a scan may as well walk them one by one, without decoding a
character.  It then passes through the middle of characters, where no character is that it could
look at.  Nothing happens there: every character that a scan asks for is ASCII, an ASCII character
is the one byte with its number, and all bytes of another character are 128 or more
(`le_of_mem_utf8EncodeChar`).  So the scan of the bytes stands still until the character is over,
and at each boundary between two characters it is the scan of the characters before
(`Scan.run_bytes`).

* `Text.bytes`: a text in UTF-8.
* `ByteScan`: what is open at a place between two bytes.
* `Bytes.isQuote_toUInt8`, `Bytes.isDelimiter_of_mem`, `Text.bytes_isPrefixOf`: what is asked of
  bytes has the answer that it has for characters.
* `Scan.run_bytes`: the scan at a boundary.
-/

namespace Rulebook

namespace Text

/-- The bytes of a text in UTF-8. -/
def bytes (cs : List Char) : List UInt8 := cs.flatMap String.utf8EncodeChar

variable {c d : Char} {word : List Char}

@[simp] theorem bytes_nil : bytes [] = [] := rfl

theorem bytes_cons (c : Char) (cs : List Char) :
    bytes (c :: cs) = String.utf8EncodeChar c ++ bytes cs := List.flatMap_cons

theorem length_bytes_cons (c : Char) (cs : List Char) :
    (bytes (c :: cs)).length = c.utf8Size + (bytes cs).length := by
  rw [bytes_cons, List.length_append, String.length_utf8EncodeChar]

theorem bytes_append (cs ds : List Char) : bytes (cs ++ ds) = bytes cs ++ bytes ds :=
  List.flatMap_append

theorem bytes_toList (s : String) : bytes s.toList = utf8 s := (utf8_eq_flatMap s).symm

theorem length_bytes (cs : List Char) :
    (bytes cs).length = (String.ofList cs).utf8ByteSize := by
  have h := bytes_toList (String.ofList cs)
  rw [String.toList_ofList] at h
  rw [h]
  rfl

/-! ## Characters of one byte, and the others -/

/-- A character of one byte. -/
abbrev IsAscii (c : Char) : Prop := c.toNat < 128

/-- A text can be tested for being ASCII, one character after the other. -/
theorem isAscii_of_all (h : word.all (fun c => decide (IsAscii c)) = true) :
    ∀ c ∈ word, IsAscii c :=
  fun c hc => of_decide_eq_true (List.all_eq_true.mp h c hc)

theorem utf8Size_of_isAscii (h : IsAscii c) : c.utf8Size = 1 :=
  Char.utf8Size_eq_one_iff.mpr (UInt32.le_iff_toNat_le.mpr (Nat.le_of_lt_succ h))

theorem utf8EncodeChar_of_isAscii (h : IsAscii c) : String.utf8EncodeChar c = [c.toUInt8] :=
  String.utf8EncodeChar_eq_singleton (utf8Size_of_isAscii h)

theorem bytes_cons_of_isAscii (h : IsAscii c) (cs : List Char) :
    bytes (c :: cs) = c.toUInt8 :: bytes cs := by
  rw [bytes_cons, utf8EncodeChar_of_isAscii h, List.singleton_append]

theorem toNat_toUInt8 (h : IsAscii c) : c.toUInt8.toNat = c.toNat := by
  have hmod : c.toUInt8.toNat = c.toNat % 256 := rfl
  rw [hmod, Nat.mod_eq_of_lt (by omega)]

theorem toUInt8_inj (hc : IsAscii c) (hd : IsAscii d) : c.toUInt8 = d.toUInt8 ↔ c = d := by
  rw [← UInt8.toNat_inj, toNat_toUInt8 hc, toNat_toUInt8 hd, Char.toNat_inj]

theorem le_of_mem_laterBytes {k n : Nat} {b : UInt8} (h : b ∈ laterBytes k n) : 128 ≤ b := by
  induction k generalizing n with
  | zero => cases h
  | succ k ih =>
    rcases List.mem_append.mp h with hinit | hlast
    · exact ih hinit
    · rw [List.mem_singleton.mp hlast, UInt8.le_iff_toNat_le, UInt8.toNat_ofNat',
        Nat.mod_eq_of_lt (by omega)]
      exact Nat.le_add_left _ _

/-- No byte of a character that is not ASCII is the byte of one that is. -/
theorem le_of_mem_utf8EncodeChar (hc : ¬ IsAscii c) {b : UInt8}
    (h : b ∈ String.utf8EncodeChar c) : 128 ≤ b := by
  have hnat : 128 ≤ c.val.toNat := Nat.le_of_not_lt hc
  have hmax := toNat_val_lt c
  rw [utf8EncodeChar_eq] at h
  rcases List.mem_cons.mp h with rfl | hlater
  · have hlead := leadByte_cases c.val.toNat
    rw [UInt8.le_iff_toNat_le, UInt8.toNat_ofNat', Nat.mod_eq_of_lt (by omega)]
    show 128 ≤ _
    omega
  · exact le_of_mem_laterBytes hlater

theorem ne_toUInt8_of_le {b : UInt8} (hb : 128 ≤ b) (hc : IsAscii c) : b ≠ c.toUInt8 := by
  rintro rfl
  rw [UInt8.le_iff_toNat_le, toNat_toUInt8 hc] at hb
  exact absurd hc (Nat.not_lt.mpr hb)

/-- Two texts of which one starts with the other have bytes of which this is so too, and for an
ASCII text nothing else makes it so. -/
theorem bytes_isPrefixOf (hword : ∀ c ∈ word, IsAscii c) (cs : List Char) :
    (bytes word).isPrefixOf (bytes cs) = word.isPrefixOf cs := by
  induction word generalizing cs with
  | nil => rfl
  | cons d word ih =>
    obtain ⟨hd, hrest⟩ := List.forall_mem_cons.mp hword
    rw [bytes_cons_of_isAscii hd]
    cases cs with
    | nil => rfl
    | cons c cs =>
      by_cases hc : IsAscii c
      · have hsame : (d.toUInt8 == c.toUInt8) = (d == c) := by
          rw [Bool.eq_iff_iff, beq_iff_eq, beq_iff_eq, toUInt8_inj hd hc]
        rw [bytes_cons_of_isAscii hc, List.isPrefixOf_cons_cons, List.isPrefixOf_cons_cons, hsame,
          ih hrest]
      · have hne : (d == c) = false := beq_false_of_ne fun heq => hc (heq ▸ hd)
        obtain ⟨b, later, hbytes⟩ :=
          List.exists_cons_of_ne_nil (String.utf8EncodeChar_ne_nil (c := c))
        have hb : 128 ≤ b := le_of_mem_utf8EncodeChar hc (by rw [hbytes]; exact List.mem_cons_self)
        have hneByte : (d.toUInt8 == b) = false := beq_false_of_ne (ne_toUInt8_of_le hb hd).symm
        rw [bytes_cons, hbytes, List.cons_append, List.isPrefixOf_cons_cons,
          List.isPrefixOf_cons_cons, hne, hneByte, Bool.false_and, Bool.false_and]

end Text

namespace Bytes

open Text (IsAscii)

/-! ## Bytes that are asked for -/

/-- The bytes of the quotes. -/
def isQuote (b : UInt8) : Bool := b == '\x27'.toUInt8 || b == '\x22'.toUInt8

/-- The bytes of the delimiters. -/
def isDelimiter (b : UInt8) : Bool :=
  [' ', '\t', '\n', '\x0C', '\r', '(', ')'].any fun c => b == c.toUInt8

variable {c : Char} {b : UInt8}

/-- What holds of all code points below 128 holds of all ASCII characters. -/
theorem forall_isAscii {P : Char → Prop} (h : ∀ n < 128, P (Char.ofNat n)) (hc : IsAscii c) :
    P c := by
  have hn := h c.toNat hc
  rwa [Char.ofNat_toNat] at hn

theorem isQuote_toUInt8 (hc : IsAscii c) : isQuote c.toUInt8 = Text.isQuote c :=
  forall_isAscii (P := fun c => isQuote c.toUInt8 = Text.isQuote c) (by decide) hc

theorem isAscii_of_isQuote (h : Text.isQuote c = true) : IsAscii c := by
  simp only [Text.isQuote, Bool.or_eq_true, beq_iff_eq] at h
  rcases h with rfl | rfl <;> decide

theorem isAscii_of_isDelimiter (h : Text.isDelimiter c = true) : IsAscii c := by
  simp only [Text.isDelimiter, Text.isSpace, Bool.or_eq_true, beq_iff_eq] at h
  rcases h with (((((rfl | rfl) | rfl) | rfl) | rfl) | rfl) | rfl <;> decide

/-- Any byte of a character tells whether the character is a delimiter. -/
theorem isDelimiter_of_mem (h : b ∈ String.utf8EncodeChar c) :
    isDelimiter b = Text.isDelimiter c := by
  by_cases hc : IsAscii c
  · rw [Text.utf8EncodeChar_of_isAscii hc, List.mem_singleton] at h
    rw [h]
    exact forall_isAscii (P := fun c => isDelimiter c.toUInt8 = Text.isDelimiter c) (by decide) hc
  · have hb := Text.le_of_mem_utf8EncodeChar hc h
    have hbyte : isDelimiter b = false := by
      refine List.any_eq_false.mpr fun d hd => ?_
      have hascii : IsAscii d := Text.isAscii_of_all (by decide) d hd
      simpa using Text.ne_toUInt8_of_le hb hascii
    have hchar : Text.isDelimiter c = false :=
      Bool.eq_false_iff.mpr fun hdelimiter => hc (isAscii_of_isDelimiter hdelimiter)
    rw [hbyte, hchar]

end Bytes

/-! ## Scanning -/

/-- What is open at a place between two bytes of a rule. -/
structure ByteScan where
  /-- The parentheses opened before, less those closed. -/
  depth : Int
  /-- The byte of the quote that is open, if one is. -/
  quote : Option UInt8
  deriving DecidableEq, Repr

namespace ByteScan

/-- Nothing is open. -/
def start : ByteScan := ⟨0, none⟩

/-- Whether the next byte is outside quoted text, and the scan after it. -/
def step (s : ByteScan) (b : UInt8) : Bool × ByteScan :=
  match s.quote with
  | some q => (false, if b = q then ⟨s.depth, none⟩ else s)
  | none =>
    if Bytes.isQuote b then (false, ⟨s.depth, some b⟩)
    else if b = '('.toUInt8 then (true, ⟨s.depth + 1, none⟩)
    else if b = ')'.toUInt8 then (true, ⟨s.depth - 1, none⟩)
    else (true, s)

/-- The scan after so many bytes. -/
def run (s : ByteScan) (bs : List UInt8) : ByteScan := bs.foldl (fun s b => (s.step b).2) s

@[simp] theorem run_nil (s : ByteScan) : s.run [] = s := rfl

@[simp] theorem run_cons (s : ByteScan) (b : UInt8) (bs : List UInt8) :
    s.run (b :: bs) = (s.step b).2.run bs := rfl

theorem run_append (s : ByteScan) (as bs : List UInt8) : s.run (as ++ bs) = (s.run as).run bs :=
  List.foldl_append

end ByteScan

namespace Scan

open Text (IsAscii bytes)

/-- The scan with the byte of its quote. -/
def inBytes (s : Scan) : ByteScan := ⟨s.depth, s.quote.map Char.toUInt8⟩

@[simp] theorem depth_inBytes (s : Scan) : s.inBytes.depth = s.depth := rfl

variable {s : Scan} {c : Char} {b : UInt8}

/-- The byte of an ASCII character is scanned like the character. -/
theorem step_toUInt8 (hs : ∀ q ∈ s.quote, Text.isQuote q = true) (hc : IsAscii c) :
    s.inBytes.step c.toUInt8 = (s.quote.isNone && !Text.isQuote c, (s.step c).inBytes) := by
  obtain ⟨depth, _ | q⟩ := s
  · have hopen : IsAscii '(' := by decide
    have hclose : IsAscii ')' := by decide
    simp only [inBytes, ByteScan.step, step, Option.map_none, Bytes.isQuote_toUInt8 hc,
      Text.toUInt8_inj hc hopen, Text.toUInt8_inj hc hclose, Option.isNone_none, Bool.true_and]
    rcases hquote : Text.isQuote c with _ | _
    · simp only [Bool.false_eq_true, if_false, Bool.not_false]
      split
      · rfl
      · split <;> rfl
    · rfl
  · have hq := Bytes.isAscii_of_isQuote (hs q rfl)
    simp only [inBytes, ByteScan.step, step, Option.map_some, Text.toUInt8_inj hc hq,
      Option.isNone_some, Bool.false_and]
    split <;> rfl

/-- A byte that is not ASCII opens and closes nothing. -/
theorem step_of_le (hs : ∀ q ∈ s.quote, Text.isQuote q = true) (hb : 128 ≤ b) :
    s.inBytes.step b = (s.quote.isNone, s.inBytes) := by
  have hne : ∀ {d : Char}, IsAscii d → b ≠ d.toUInt8 := fun hd => Text.ne_toUInt8_of_le hb hd
  obtain ⟨depth, _ | q⟩ := s
  · have hquote : Bytes.isQuote b = false := by
      have hsingle := hne (d := '\x27') (by decide)
      have hdouble := hne (d := '\x22') (by decide)
      simp [Bytes.isQuote, hsingle, hdouble]
    simp [inBytes, ByteScan.step, hquote, hne (d := '(') (by decide), hne (d := ')') (by decide)]
  · simp [inBytes, ByteScan.step, hne (Bytes.isAscii_of_isQuote (hs q rfl))]

/-- A character that is not ASCII opens and closes nothing. -/
theorem step_of_not_isAscii (hs : ∀ q ∈ s.quote, Text.isQuote q = true) (hc : ¬ IsAscii c) :
    s.step c = s := by
  obtain ⟨depth, _ | q⟩ := s
  · refine step_of_isPlain rfl ⟨?_, ?_, ?_⟩
    · exact Bool.eq_false_iff.mpr fun hquote => hc (Bytes.isAscii_of_isQuote hquote)
    · rintro rfl
      exact hc (by decide)
    · rintro rfl
      exact hc (by decide)
  · refine if_neg ?_
    rintro rfl
    exact hc (Bytes.isAscii_of_isQuote (hs c rfl))

/-- All bytes of a character are scanned like the character. -/
theorem run_utf8EncodeChar (hs : ∀ q ∈ s.quote, Text.isQuote q = true) (c : Char) :
    s.inBytes.run (String.utf8EncodeChar c) = (s.step c).inBytes := by
  by_cases hc : IsAscii c
  · rw [Text.utf8EncodeChar_of_isAscii hc, ByteScan.run_cons, step_toUInt8 hs hc]
    rfl
  · have hall : ∀ bs : List UInt8, (∀ b ∈ bs, 128 ≤ b) → s.inBytes.run bs = s.inBytes := by
      intro bs hbs
      induction bs with
      | nil => rfl
      | cons b bs ih =>
        obtain ⟨hb, hrest⟩ := List.forall_mem_cons.mp hbs
        rw [ByteScan.run_cons, step_of_le hs hb]
        exact ih hrest
    rw [hall _ fun b hb => Text.le_of_mem_utf8EncodeChar hc hb, step_of_not_isAscii hs hc]

/-- At each boundary between two characters, the scan of the bytes before it is the scan of the
characters before it. -/
theorem run_bytes (hs : ∀ q ∈ s.quote, Text.isQuote q = true) (cs : List Char) :
    s.inBytes.run (bytes cs) = (s.run cs).inBytes := by
  induction cs generalizing s with
  | nil => rfl
  | cons c cs ih =>
    rw [Text.bytes_cons, ByteScan.run_append, run_utf8EncodeChar hs, run_cons]
    exact ih fun q => isQuote_of_mem_quote_step hs

end Scan

end Rulebook
