import Rulebook.Proofs.Bytes.Groups

/-!
# The split of a rule from its bytes

The search for a keyword asks for the byte before a place and for the one behind the keyword, and
both may be in the middle of the characters that the neighbours are.  Any byte of a character tells
whether it is a delimiter, so the answers are those for the neighbours themselves
(`keywordAt_bytes`).  And no keyword is found in the middle of a character, since a keyword starts
with an ASCII character (`keywordAt_of_le`).

Through characters there is one search for each keyword, and through bytes both are looked for in
one walk, which keeps the first `OR` for the case that there is no `AND`.  What the walk finds from
a place on is therefore what the two searches find from there, with the kept `OR` before that of the
second one (`findSplitFrom_bytes`).

* `keywordOnGround_bytes`: the keyword at one place.
* `findSplit_bytes`: the split.
-/

namespace Rulebook

namespace Bytes

open Text (IsAscii bytes utf8)

variable {s : Scan} {cs rest passed : List Char} {zs bs : List UInt8} {b : UInt8}
  {half n i : Nat} {k : Connective} {firstOr : Option Split}

/-! ## Neighbours -/

theorem byteAt_append (xs : List UInt8) (b : UInt8) (ys : List UInt8) :
    byteAt (xs ++ b :: ys) xs.length = .ok b := by
  rw [byteAt, List.getElem?_append_right (Nat.le_refl _), Nat.sub_self]
  rfl

theorem isBoundaryBefore_append (xs ys : List UInt8) :
    isBoundaryBefore (xs ++ ys) xs.length = .ok (xs.getLast?.all isDelimiter) := by
  rcases List.eq_nil_or_concat xs with rfl | ⟨init, b, rfl⟩
  · rfl
  · rw [List.concat_eq_append, isBoundaryBefore, if_neg (by simp), List.getLast?_concat,
      List.length_append, List.length_singleton, Nat.add_sub_cancel, List.append_assoc,
      List.singleton_append, byteAt_append]
    rfl

theorem isBoundaryAt_append (xs ys : List UInt8) :
    isBoundaryAt (xs ++ ys) xs.length = .ok (ys.head?.all isDelimiter) := by
  cases ys with
  | nil => rw [List.append_nil, isBoundaryAt, if_pos rfl]; rfl
  | cons b ys =>
    rw [isBoundaryAt, if_neg (by simp), byteAt_append]
    rfl

theorem startsWithKeyword_append (k : Connective) (xs ys : List UInt8) :
    startsWithKeyword k (xs ++ ys) xs.length =
      .ok ((utf8 k.keyword).isPrefixOf ys &&
        (ys.drop (utf8 k.keyword).length).head?.all isDelimiter) := by
  have hfrom : bytesFrom (xs ++ ys) xs.length = .ok ys := by
    rw [bytesFrom, if_pos (by simp), List.drop_left]
  rw [startsWithKeyword, hfrom]
  show (if (utf8 k.keyword).isPrefixOf ys then _ else _) = _
  split
  · next hstarts =>
    obtain ⟨zs, rfl⟩ := List.isPrefixOf_iff_prefix.mp hstarts
    have hat := isBoundaryAt_append (xs ++ utf8 k.keyword) zs
    rw [List.length_append, List.append_assoc] at hat
    rw [hat, hstarts, List.drop_left, Bool.true_and]
  · next hstarts =>
    rw [Bool.not_eq_true] at hstarts
    rw [hstarts, Bool.false_and]
    rfl

theorem keywordAt_append (xs ys : List UInt8) :
    keywordAt (xs ++ ys) xs.length = .ok
      (if xs.getLast?.all isDelimiter then
        if (utf8 Connective.and.keyword).isPrefixOf ys &&
            (ys.drop (utf8 Connective.and.keyword).length).head?.all isDelimiter then some .and
        else if (utf8 Connective.or.keyword).isPrefixOf ys &&
            (ys.drop (utf8 Connective.or.keyword).length).head?.all isDelimiter then some .or
        else none
      else none) := by
  rw [keywordAt, isBoundaryBefore_append, startsWithKeyword_append, startsWithKeyword_append]
  simp only [bind, Except.bind, pure, Except.pure]
  split
  · split
    · rfl
    · split <;> rfl
  · rfl

/-! ## Words -/

theorem isAscii_of_mem_keyword (k : Connective) : ∀ c ∈ k.keyword.toList, IsAscii c :=
  Text.isAscii_of_all (by cases k <;> decide)

theorem endsAtDelimiter_bytes (cs : List Char) :
    (bytes cs).head?.all isDelimiter = Rule.endsAtDelimiter cs := by
  cases cs with
  | nil => rfl
  | cons c cs =>
    obtain ⟨b, later, hbytes⟩ := List.exists_cons_of_ne_nil (String.utf8EncodeChar_ne_nil (c := c))
    rw [Text.bytes_cons, hbytes, Rule.endsAtDelimiter]
    exact isDelimiter_of_mem (by rw [hbytes]; exact List.mem_cons_self)

theorem endsAtDelimiter_bytes_reverse (passed : List Char) :
    (bytes passed.reverse).getLast?.all isDelimiter = Rule.endsAtDelimiter passed := by
  cases passed with
  | nil => rfl
  | cons c passed =>
    have hne := String.utf8EncodeChar_ne_nil (c := c)
    rw [List.reverse_cons, Text.bytes_append, Text.bytes_cons, Text.bytes_nil, List.append_nil,
      List.getLast?_append_of_ne_nil _ hne, List.getLast?_eq_some_getLast hne,
      Rule.endsAtDelimiter]
    exact isDelimiter_of_mem (List.getLast_mem hne)

/-- A keyword starts the bytes of a text exactly if it starts the text. -/
theorem startsWithWord_bytes (k : Connective) (cs : List Char) :
    ((utf8 k.keyword).isPrefixOf (bytes cs) &&
        ((bytes cs).drop (utf8 k.keyword).length).head?.all isDelimiter) =
      Rule.startsWithWord k.keyword.toList cs := by
  rw [← Text.bytes_toList, Text.bytes_isPrefixOf (isAscii_of_mem_keyword k), Rule.startsWithWord]
  rcases hstarts : k.keyword.toList.isPrefixOf cs with _ | _
  · rfl
  · obtain ⟨rest, rfl⟩ := List.isPrefixOf_iff_prefix.mp hstarts
    rw [Text.bytes_append, List.drop_left, List.drop_left, endsAtDelimiter_bytes]

theorem keywordAt_bytes (passed cs : List Char) :
    keywordAt (bytes (passed.reverse ++ cs)) (bytes passed.reverse).length = .ok
      (if Rule.endsAtDelimiter passed then
        if Rule.startsWithWord Connective.and.keyword.toList cs then some .and
        else if Rule.startsWithWord Connective.or.keyword.toList cs then some .or
        else none
      else none) := by
  rw [Text.bytes_append, keywordAt_append, endsAtDelimiter_bytes_reverse, startsWithWord_bytes,
    startsWithWord_bytes]

/-- In the middle of a character there is no keyword. -/
theorem keywordAt_of_le (hb : 128 ≤ b) (xs ys : List UInt8) :
    keywordAt (xs ++ b :: ys) xs.length = .ok none := by
  have hnot : ∀ k : Connective, (utf8 k.keyword).isPrefixOf (b :: ys) = false := by
    intro k
    obtain ⟨c, word, hword⟩ := List.exists_cons_of_ne_nil (Rule.keyword_ne_nil k)
    have hc := isAscii_of_mem_keyword k c (hword ▸ List.mem_cons_self)
    have hne : (c.toUInt8 == b) = false := beq_false_of_ne (Text.ne_toUInt8_of_le hb hc).symm
    rw [← Text.bytes_toList, hword, Text.bytes_cons_of_isAscii hc, List.isPrefixOf_cons_cons, hne,
      Bool.false_and]
  rw [keywordAt_append, hnot, hnot]
  simp

/-! ## The search -/

theorem findSplitFrom_of_step {s next : ByteScan} {outside : Bool}
    (hstep : step half s b = .ok (outside, next)) (rest : List UInt8) :
    findSplitFrom half bs s firstOr i (b :: rest) = (do
      match ← keywordOnGround bs i outside next with
      | none => findSplitFrom half bs next firstOr (i + 1) rest
      | some .and => return some ⟨.and, i, i + (utf8 Connective.and.keyword).length⟩
      | some .or =>
        let split := ⟨.or, i, i + (utf8 Connective.or.keyword).length⟩
        findSplitFrom half bs next (firstOr.or (some split)) (i + 1) rest) := by
  rw [findSplitFrom, hstep]
  rfl

/-- In the middle of characters there is no split. -/
theorem findSplitFrom_skip (hs : ∀ q ∈ s.quote, Text.isQuote q = true) (hzs : ∀ b ∈ zs, 128 ≤ b)
    (hfits : Fits half s.inBytes (zs.length + n)) (firstOr : Option Split) (xs ys : List UInt8) :
    findSplitFrom half (xs ++ zs ++ ys) s.inBytes firstOr xs.length (zs ++ ys) =
      findSplitFrom half (xs ++ zs ++ ys) s.inBytes firstOr (xs.length + zs.length) ys := by
  induction zs generalizing xs with
  | nil => rfl
  | cons b zs ih =>
    obtain ⟨hb, hrest⟩ := List.forall_mem_cons.mp hzs
    rw [List.length_cons, Nat.add_right_comm] at hfits
    obtain ⟨hstep, hnext⟩ := step_of_fits (b := b) hfits
    rw [Scan.step_of_le hs hb] at hstep hnext
    have hfound : keywordOnGround (xs ++ b :: zs ++ ys) xs.length s.quote.isNone s.inBytes =
        .ok none := by
      rw [keywordOnGround, List.append_assoc, List.cons_append, keywordAt_of_le hb, ite_self]
    have hshift := ih hrest hnext (xs ++ [b])
    rw [List.length_append, List.length_singleton, List.append_assoc xs, List.singleton_append]
      at hshift
    rw [List.cons_append, findSplitFrom_of_step hstep, hfound, List.length_cons,
      Nat.add_comm zs.length, ← Nat.add_assoc, ← hshift]
    rfl

/-- The split at a keyword, from the texts before and after it. -/
def splitOf (k : Connective) (sides : Option (List Char × List Char)) : Option Split :=
  sides.map fun (before, _) =>
    ⟨k, (bytes before).length, (bytes before).length + (utf8 k.keyword).length⟩

/-- The test for a keyword at one place, as the search through characters makes it. -/
def isHere (k : Connective) (s : Scan) (passed rest : List Char) : Bool :=
  Rule.startsWithWord k.keyword.toList rest && Rule.endsAtDelimiter passed && s.isGround

theorem splitFrom?_of_isHere {c : Char} (h : isHere k s passed (c :: rest) = true) :
    splitOf k (Rule.splitFrom? k.keyword.toList s passed (c :: rest)) =
      some ⟨k, (bytes passed.reverse).length,
        (bytes passed.reverse).length + (utf8 k.keyword).length⟩ := by
  rw [isHere] at h
  rw [Rule.splitFrom?, if_pos h]
  rfl

theorem splitFrom?_of_not_isHere {c : Char} (h : isHere k s passed (c :: rest) = false) :
    Rule.splitFrom? k.keyword.toList s passed (c :: rest) =
      Rule.splitFrom? k.keyword.toList (s.step c) (c :: passed) rest := by
  rw [isHere] at h
  rw [Rule.splitFrom?, h, if_neg Bool.false_ne_true]

/-- A keyword starts with one of its own characters. -/
theorem mem_keyword_of_startsWithWord {c : Char}
    (h : Rule.startsWithWord k.keyword.toList (c :: rest) = true) : c ∈ k.keyword.toList := by
  rw [Rule.startsWithWord, Bool.and_eq_true, List.isPrefixOf_iff_prefix] at h
  rcases List.prefix_cons_iff.mp h.1 with hnil | ⟨word, hword, -⟩
  · exact absurd hnil (Rule.keyword_ne_nil k)
  · rw [hword]
    exact List.mem_cons_self

/-- No keyword starts with a character that is not ASCII. -/
theorem isHere_of_not_isAscii {c : Char} (hc : ¬ IsAscii c) (k : Connective) (s : Scan)
    (passed rest : List Char) : isHere k s passed (c :: rest) = false := by
  refine Bool.eq_false_iff.mpr fun hhere => hc ?_
  simp only [isHere, Bool.and_eq_true] at hhere
  exact isAscii_of_mem_keyword k c (mem_keyword_of_startsWithWord hhere.1.1)

/-- The scan of a byte finds the keyword that the search through characters finds there.  The byte
is looked at after it has been scanned, but the first character of a keyword opens nothing. -/
theorem keywordOnGround_bytes {c : Char} (s : Scan) (passed rest : List Char) :
    keywordOnGround (bytes (passed.reverse ++ c :: rest)) (bytes passed.reverse).length
        (s.quote.isNone && !Text.isQuote c) (s.step c).inBytes =
      .ok (if isHere .and s passed (c :: rest) then some .and
        else if isHere .or s passed (c :: rest) then some .or else none) := by
  rw [keywordOnGround, keywordAt_bytes]
  by_cases hword : ∃ k : Connective, Rule.startsWithWord k.keyword.toList (c :: rest) = true
  · obtain ⟨k, hk⟩ := hword
    have hplain := Rule.isPlain_of_mem_keyword (mem_keyword_of_startsWithWord hk)
    have hground : ((s.quote.isNone && !Text.isQuote c) = true ∧ (s.step c).inBytes.depth = 0) ↔
        s.isGround = true := by
      rw [hplain.1, Scan.isGround]
      rcases hquote : s.quote with _ | q
      · rw [Scan.step_of_isPlain hquote hplain]
        simp
      · simp
    rw [if_congr hground rfl rfl]
    by_cases hs : s.isGround = true
    · by_cases hpassed : Rule.endsAtDelimiter passed = true
      · simp [isHere, hs, hpassed]
      · simp [isHere, hpassed]
    · simp [isHere, hs]
  · have hnot : ∀ k : Connective, Rule.startsWithWord k.keyword.toList (c :: rest) = false :=
      fun k => Bool.eq_false_iff.mpr fun hk => hword ⟨k, hk⟩
    simp [isHere, hnot]

/-- The search through bytes goes on as the searches through characters do, one for each keyword,
which look for it from the same place on. -/
theorem findSplitFrom_bytes (hs : Scan.start.run passed.reverse = s)
    (hfits : Fits half s.inBytes (bytes rest).length) (firstOr : Option Split) :
    findSplitFrom half (bytes (passed.reverse ++ rest)) s.inBytes firstOr
        (bytes passed.reverse).length (bytes rest) =
      .ok ((splitOf .and (Rule.splitFrom? Connective.and.keyword.toList s passed rest)).or
        (firstOr.or
          (splitOf .or (Rule.splitFrom? Connective.or.keyword.toList s passed rest)))) := by
  induction rest generalizing passed s firstOr with
  | nil =>
    rw [Text.bytes_nil, findSplitFrom]
    simp [Rule.splitFrom?, splitOf]
  | cons c rest ih =>
    have hquote : ∀ q ∈ s.quote, Text.isQuote q = true :=
      hs ▸ Scan.isQuote_of_mem_quote_run Scan.isQuote_of_mem_quote_start passed.reverse
    have hnext : Scan.start.run (c :: passed).reverse = s.step c := by
      rw [List.reverse_cons, Scan.run_append, hs]
      rfl
    have htext : passed.reverse ++ c :: rest = (c :: passed).reverse ++ rest := by
      rw [List.reverse_cons, List.append_assoc, List.singleton_append]
    have hlength : (bytes (c :: passed).reverse).length =
        (bytes passed.reverse).length + (String.utf8EncodeChar c).length := by
      rw [List.reverse_cons, Text.bytes_append, Text.bytes_cons, Text.bytes_nil, List.append_nil,
        List.length_append]
    by_cases hc : IsAscii c
    · -- The character is one byte, and each search either finds its keyword here or goes on.
      rw [Text.bytes_cons_of_isAscii hc] at hfits ⊢
      obtain ⟨hstep, hfits'⟩ := step_of_fits (b := c.toUInt8) hfits
      rw [Scan.step_toUInt8 hquote hc] at hstep hfits'
      rw [String.length_utf8EncodeChar, Text.utf8Size_of_isAscii hc] at hlength
      have hrest := fun firstOr => ih hnext hfits' firstOr
      rw [hlength, ← htext] at hrest
      rw [findSplitFrom_of_step hstep, keywordOnGround_bytes]
      rcases hand : isHere .and s passed (c :: rest) with _ | _
      · rw [splitFrom?_of_not_isHere hand]
        rcases hor : isHere .or s passed (c :: rest) with _ | _
        · rw [splitFrom?_of_not_isHere hor]
          exact hrest firstOr
        · rw [splitFrom?_of_isHere hor]
          refine (hrest _).trans ?_
          rw [Option.or_assoc, Option.some_or]
      · rw [splitFrom?_of_isHere hand, Option.some_or]
        rfl
    · -- The bytes of the character are passed over, and no search finds its keyword here.
      have hnot := fun k => isHere_of_not_isAscii hc k s passed rest
      have hsame := Scan.step_of_not_isAscii hquote hc
      have hbytes := fun b => Text.le_of_mem_utf8EncodeChar (b := b) hc
      rw [Text.bytes_cons, List.length_append] at hfits
      have hskip := findSplitFrom_skip hquote hbytes hfits firstOr (bytes passed.reverse)
        (bytes rest)
      rw [splitFrom?_of_not_isHere (hnot .and), splitFrom?_of_not_isHere (hnot .or), hsame,
        ← ih (hnext.trans hsame) hfits.of_add firstOr, hlength, ← htext]
      rw [List.append_assoc, ← Text.bytes_cons, ← Text.bytes_append] at hskip
      exact hskip

/-- The offsets of a split. -/
def offsets (split : Rule.Split) : Split := ⟨split.connective, split.start, split.stop⟩

/-- The split of the bytes of a text is the split of the text, by its offsets. -/
theorem findSplit_bytes (h : (bytes cs).length < half) :
    findSplit half (bytes cs) = .ok ((Rule.Split.find? cs).map offsets) := by
  have hoffsets : ∀ k : Connective,
      splitOf k (Rule.splitFrom? k.keyword.toList .start [] cs) =
        (Rule.Split.at? k cs).map offsets := by
    intro k
    rw [splitOf, Rule.Split.at?, Rule.splitAt?, Option.map_map]
    congr 1
    funext sides
    obtain ⟨before, after⟩ := sides
    simp only [Function.comp, offsets, Rule.Split.stop, Rule.Split.start, Text.length_bytes]
    rfl
  have hstart : Scan.start.run ([] : List Char).reverse = .start := rfl
  have hfind : findSplit half (bytes cs) =
      .ok ((splitOf .and (Rule.splitFrom? Connective.and.keyword.toList .start [] cs)).or
        (none.or (splitOf .or (Rule.splitFrom? Connective.or.keyword.toList .start [] cs)))) :=
    findSplitFrom_bytes hstart (fits_start h) none
  rw [hfind, hoffsets, hoffsets, Rule.Split.find?]
  cases Rule.Split.at? .and cs <;> rfl

end Bytes

end Rulebook
