import Rulebook.Proofs.Bytes.Splits

/-!
# The parser on bytes never crashes

A rule with fewer bytes than the counter can count gets an answer from the parser on bytes, and it
is the answer of the parser on characters.  Each level repeats the argument of the levels above it: its
text is a part of the rule and so has no more bytes, the places that it cuts at are those that the
search through characters finds, and these are boundaries between characters.

A literal is cut without a search.  Its quotes are its first and its last byte, since a token that
starts with a quote has been read as a quoted text before.

* `literalOf_bytes`, `readCondition_bytes`: literals and conditions.
* `parseLevels_bytes`, `parse_bytes`: one level after the other, and the whole rule.
* `agrees_with_characters`: scans, faults, splits, slices and answers.
-/

namespace Rulebook

namespace Bytes

open Text (bytes isBlank trim utf8)

variable {cs token : List Char} {half : Nat} {l : Literal} {split : Rule.Split}

/-! ## Conditions -/

/-- The quotes around a literal are its first and its last byte. -/
theorem literalOf_bytes (h : readLiteral? token = some l) : literalOf token = .ok l := by
  rcases readLiteral?_eq_some h with ⟨q, inside, hq, -, -, rfl, rfl⟩ | ⟨hne, hbare, rfl⟩
  · have hascii := isAscii_of_isQuote hq
    have hparts := slice_append [q] inside [q]
    have hsize : (bytes (q :: (inside ++ [q]))).length - 1 = (bytes ([q] ++ inside)).length := by
      rw [Text.bytes_cons_of_isAscii hascii, Text.bytes_append, Text.bytes_append,
        Text.bytes_cons_of_isAscii hascii, List.length_cons, List.length_append, List.length_append,
        Nat.add_sub_cancel, Nat.add_comm]
    have hone : (bytes [q]).length = 1 := by
      rw [Text.bytes_cons_of_isAscii hascii]
      rfl
    rw [hone, ← hsize, List.append_assoc, List.singleton_append] at hparts
    have hquote : q = '\x27' ∨ q = '\x22' := by simpa [Text.isQuote] using hq
    rw [literalOf, if_pos (by simpa using hquote), hparts]
    rfl
  · obtain ⟨c, rest, rfl⟩ := List.exists_cons_of_ne_nil hne
    have hplain := (isPlain_of_isBare (hbare c List.mem_cons_self)).1
    rw [literalOf, if_neg]
    simpa [Text.isQuote] using hplain

/-- A text is a condition if it has the parts of one, and its literal is the value of the last
part. -/
theorem captures?_cases (cs : List Char) :
    (captures? cs = none ∧ Condition.ofTrimmed? cs = none) ∨
      ∃ name comparator token literal, captures? cs = some (name, comparator, token) ∧
        readLiteral? token = some literal ∧
        Condition.ofTrimmed? cs =
          some ⟨String.ofList name, comparator, literal, String.ofList cs⟩ := by
  rw [captures?, Condition.ofTrimmed?]
  rcases takeName? cs with _ | ⟨name, afterName⟩
  · exact Or.inl ⟨rfl, rfl⟩
  · simp only [Option.bind_eq_bind, Option.bind_some]
    rcases takeComparator? (afterName.dropWhile isBlank) with _ | ⟨comparator, afterComparator⟩
    · exact Or.inl ⟨rfl, rfl⟩
    · simp only [Option.bind_some]
      rcases hread : readLiteral? (afterComparator.dropWhile isBlank) with _ | literal
      · exact Or.inl ⟨rfl, rfl⟩
      · exact Or.inr ⟨name, comparator, _, literal, rfl, hread, rfl⟩

theorem readCondition_bytes (cs : List Char) : readCondition cs = .ok (Condition.read cs) := by
  rw [readCondition, Condition.read]
  rcases captures?_cases (trim cs) with
    ⟨hparts, hnone⟩ | ⟨name, comparator, token, literal, hparts, hread, hsome⟩
  · rw [hparts, hnone]
  · rw [hparts, hsome]
    dsimp only
    rw [literalOf_bytes hread]
    rfl

/-! ## Levels -/

/-- The two sides of a split are slices at its offsets. -/
theorem slice_sides (h : Rule.Split.find? cs = some split) :
    slice cs 0 split.start = .ok split.before ∧
      slice cs split.stop (bytes cs).length = .ok split.after := by
  have hparts := Rule.append_of_find? h
  have hbefore := slice_append [] split.before (split.connective.keyword.toList ++ split.after)
  have hafter := slice_append (split.before ++ split.connective.keyword.toList) split.after []
  have hstart : split.start = (bytes split.before).length := (Text.length_bytes _).symm
  have hstop : split.stop =
      (bytes (split.before ++ split.connective.keyword.toList)).length := by
    rw [Text.bytes_append, List.length_append, Text.bytes_toList, ← hstart]
    rfl
  rw [List.nil_append, ← List.append_assoc, hparts, ← hstart] at hbefore
  rw [List.append_nil, hparts, ← hstop] at hafter
  exact ⟨hbefore, hafter⟩

theorem isInfix_before (h : Rule.Split.find? cs = some split) : split.before <:+: cs :=
  ⟨[], split.connective.keyword.toList ++ split.after, by
    rw [List.nil_append, ← List.append_assoc, Rule.append_of_find? h]⟩

theorem isInfix_after (h : Rule.Split.find? cs = some split) : split.after <:+: cs :=
  ⟨split.before ++ split.connective.keyword.toList, [], by
    rw [List.append_nil, Rule.append_of_find? h]⟩

/-- Each level has the answer that it has for characters. -/
theorem parseLevels_bytes (htrim : trim cs = cs) (h : (bytes cs).length < half)
    (limit levels : Nat) :
    parseLevels half limit levels cs = .ok (Rule.parseLevels limit levels cs) := by
  induction levels generalizing cs with
  | zero => rfl
  | succ levels ih =>
    have hinner : (bytes (Rule.peelGroups cs)).length < half :=
      Nat.lt_of_le_of_lt (length_bytes_le (isInfix_peelGroups cs)) h
    rw [parseLevels, htrim, peelGroups_bytes h, Rule.parseLevels]
    generalize Rule.peelGroups cs = inner at hinner
    simp only [bind, Except.bind, pure, Except.pure]
    by_cases hempty : inner = []
    · rw [if_pos hempty, if_pos hempty]
    · rw [if_neg hempty, if_neg hempty, findSplit_bytes hinner]
      rcases hfind : Rule.Split.find? inner with _ | split
      · simp only [Option.map_none, readCondition_bytes]
      · obtain ⟨hbefore, hafter⟩ := slice_sides hfind
        have hpart : ∀ {part : List Char}, part <:+: inner →
            parseLevels half limit levels (trim part) =
              .ok (Rule.parseLevels limit levels (trim part)) := fun hpart =>
          ih (Text.trim_trim _) (Nat.lt_of_le_of_lt
            (length_bytes_le ((isInfix_trim _).trans hpart)) hinner)
        simp only [Option.map_some, offsets, hbefore, hafter]
        by_cases hmissing : trim split.before = [] ∨ trim split.after = []
        · rw [if_pos hmissing, if_pos hmissing]
        · rw [if_neg hmissing, if_neg hmissing, hpart (isInfix_before hfind)]
          rcases Rule.parseLevels limit levels (trim split.before) with e | left
          · rfl
          · dsimp only
            rw [hpart (isInfix_after hfind)]
            rcases Rule.parseLevels limit levels (trim split.after) with e | right <;> rfl

/-- The parser on bytes has an answer for every rule that is short enough for its counter, and the
answer is that of the parser on characters. -/
theorem parse_bytes {rule : String} (h : rule.utf8ByteSize < half) (maxDepth : Nat) :
    parse half maxDepth rule = .ok (Rule.parse maxDepth rule) := by
  have htrim : (bytes (trim rule.toList)).length < half := by
    refine Nat.lt_of_le_of_lt (length_bytes_le (isInfix_trim _)) ?_
    rwa [Text.length_bytes, String.ofList_toList]
  rw [parse, Rule.parse, Rule.parseTrimmed]
  by_cases hempty : trim rule.toList = []
  · simp only [hempty, if_true, pure, Except.pure]
  · simp only [if_neg hempty, balanceFault_bytes htrim, bind, Except.bind]
    rcases balanceFault? (trim rule.toList) with _ | fault
    · exact parseLevels_bytes (Text.trim_trim _) htrim maxDepth maxDepth
    · rfl

/-! ## Bytes and characters -/

/-- An offset stands between two characters of a text, or at one of its ends. -/
def IsBoundary (cs : List Char) (offset : Nat) : Prop :=
  ∃ before after, before ++ after = cs ∧ (bytes before).length = offset

/-- A text can be sliced between any two boundaries that are in order, and nowhere else. -/
theorem exists_slice_iff {start stop : Nat} :
    (∃ inside, slice cs start stop = .ok inside) ↔
      start ≤ stop ∧ IsBoundary cs start ∧ IsBoundary cs stop := by
  constructor
  · rintro ⟨inside, h⟩
    obtain ⟨before, after, hparts, rfl, rfl⟩ := append_of_slice h
    refine ⟨length_bytes_le (List.prefix_append before inside).isInfix, ?_, ?_⟩
    · exact ⟨before, inside ++ after, by rw [← List.append_assoc, hparts], rfl⟩
    · exact ⟨before ++ inside, after, hparts, rfl⟩
  · rintro ⟨hle, ⟨before, rest, hstart, rfl⟩, ⟨upTo, after, hstop, rfl⟩⟩
    rw [Text.length_bytes, Text.length_bytes] at hle
    have hbefore : before <+: cs := ⟨rest, hstart⟩
    have hupTo : upTo <+: cs := ⟨after, hstop⟩
    obtain ⟨inside, rfl⟩ := List.prefix_of_prefix_length_le hbefore hupTo
      (Rule.length_le_of_utf8ByteSize_le hbefore hupTo hle)
    rw [← hstop]
    exact ⟨inside, slice_append before inside after⟩

theorem isBoundary_of_unmatchedClose {offset : Nat}
    (h : balanceFault? cs = some (.unmatchedClose offset)) : IsBoundary cs offset := by
  obtain ⟨before, hfirst, rfl⟩ := balanceFault?_eq_some_iff.mp h
  obtain ⟨after, rfl⟩ := hfirst.place
  exact ⟨before, [')'] ++ after, (List.append_assoc ..).symm, Text.length_bytes before⟩

theorem isBoundary_of_find? (h : Rule.Split.find? cs = some split) :
    IsBoundary cs split.start ∧ IsBoundary cs split.stop := by
  obtain ⟨hbefore, hafter⟩ := slice_sides h
  exact ⟨(exists_slice_iff.mp ⟨_, hbefore⟩).2.2, (exists_slice_iff.mp ⟨_, hafter⟩).2.1⟩

/-- Walking the bytes of a rule is the same as walking its characters.  At each boundary between two
characters the scan of the bytes is the scan of the characters.  With a counter that can count the
bytes, the bytes have the balance fault and the split of the characters, and the offsets in these
are boundaries.  A slice exists exactly between two boundaries that are in order, and a parser on
bytes that crashes at every other slice, at an index without a byte, and at a depth beyond 32 bits
has an answer for every rule of fewer than 2 ^ 31 bytes, which is the answer of the parser on
characters. -/
theorem agrees_with_characters (rule : String) :
    (∀ before after, before ++ after = rule.toList →
        ByteScan.start.run ((utf8 rule).take (bytes before).length) =
          (Scan.start.run before).inBytes) ∧
      (∀ half, rule.utf8ByteSize < half →
        balanceFault half (utf8 rule) = .ok (balanceFault? rule.toList) ∧
          findSplit half (utf8 rule) = .ok ((Rule.Split.find? rule.toList).map offsets)) ∧
      (∀ offset, balanceFault? rule.toList = some (.unmatchedClose offset) →
        IsBoundary rule.toList offset) ∧
      (∀ split, Rule.Split.find? rule.toList = some split →
        IsBoundary rule.toList split.start ∧ IsBoundary rule.toList split.stop) ∧
      (∀ cs start stop, (∃ inside, slice cs start stop = .ok inside) ↔
        start ≤ stop ∧ IsBoundary cs start ∧ IsBoundary cs stop) ∧
      (rule.utf8ByteSize < 2147483648 → ∀ maxDepth,
        parse 2147483648 maxDepth rule = .ok (Rule.parse maxDepth rule)) := by
  refine ⟨fun before after h => ?_, fun half h => ?_, fun offset => isBoundary_of_unmatchedClose,
    fun split => isBoundary_of_find?, fun cs start stop => exists_slice_iff, parse_bytes⟩
  · rw [← Text.bytes_toList, ← h, Text.bytes_append, List.take_left]
    exact Scan.run_bytes Scan.isQuote_of_mem_quote_start before
  · rw [← Text.bytes_toList]
    have hsize : (bytes rule.toList).length < half := by
      rwa [Text.length_bytes, String.ofList_toList]
    exact ⟨balanceFault_bytes hsize, findSplit_bytes hsize⟩

/-- Characters of two, three and four bytes, in quotes and next to a keyword.  The quoted
parenthesis is not counted, the offsets of the split are counted in bytes, and the limit of the
depth is reached in the middle of the rule. -/
theorem agrees_with_characters_mixed :
    ByteScan.start.run ((utf8 "(né='漢(' OR b=😀)AND c='é'").take 10) = ⟨1, some 0x27⟩ ∧
      findSplit 40 (utf8 "(né='漢(' OR b=😀)AND c='é'") = .ok (some ⟨.and, 22, 25⟩) ∧
      IsBoundary "(né='漢(' OR b=😀)AND c='é'".toList 22 ∧
      (∃ inside, slice "(né='漢(' OR b=😀)AND c='é'".toList 25 32 = .ok inside) ∧
      parse 2147483648 2 "(né='漢(' OR b=😀)AND c='é'" = .ok (.error (.limit (.nesting 2))) ∧
      (parse 2147483648 3 "(né='漢(' OR b=😀)AND c='é'").map (Except.map Tree.fields) =
        .ok (.ok ["né", "b", "c"]) := by
  obtain ⟨hrun, hwalk, -, hsplit, hslice, hparse⟩ :=
    agrees_with_characters "(né='漢(' OR b=😀)AND c='é'"
  have hfind : Rule.Split.find? "(né='漢(' OR b=😀)AND c='é'".toList =
      some ⟨.and, "(né='漢(' OR b=😀)".toList, " c='é'".toList⟩ := by decide +kernel
  obtain ⟨hstart, hstop⟩ := hsplit _ hfind
  refine ⟨?_, ?_, hstart, ?_, ?_, ?_⟩
  · have hscan := hrun "(né='漢(".toList "' OR b=😀)AND c='é'".toList (by decide)
    have hlength : (bytes "(né='漢(".toList).length = 10 := by decide
    have hopen : Scan.start.run "(né='漢(".toList = ⟨1, some '\x27'⟩ := by decide
    rw [hlength, hopen] at hscan
    exact hscan
  · rw [(hwalk 40 (by decide)).2, hfind]
    rfl
  · exact (hslice _ 25 32).mpr ⟨by decide, hstop, _, [], List.append_nil _, rfl⟩
  · rw [hparse (by decide)]
    decide +kernel
  · rw [hparse (by decide)]
    decide +kernel

end Bytes

end Rulebook
