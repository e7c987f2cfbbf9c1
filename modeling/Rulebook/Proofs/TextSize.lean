import Rulebook.Proofs.DepthLimit
import Rulebook.Proofs.KeywordCondition

/-!
# The size of a tree and of its text

A tree is never larger than its text.  Each leaf has a text of its own, at least three bytes, and
each connective has its keyword and a delimiter on both sides of it, at least four bytes.  Where the
delimiter is white space it belongs to the connective.  Where it is a parenthesis it belongs to the
operand beside it, and comes off only when the operand is taken apart, so that it cannot be charged
to the connective from the lengths of the parts alone.

So the bound on a part says more: a parenthesis at either end of the part is left over
(`Derives.rawBytes_le`).  A leaf has none at its ends, a group has two that it does not need, and a
chain takes one from each operand that has no white space on the side of the keyword.

* `Tree.rawBytes`: the bytes of all leaves.
* `Derives.rawBytes_le`: the bound, by induction on the derivation of a text.
* `parse_size`: what follows for rules that parse, and for the limits under which they do.
-/

namespace Rulebook

open Text (isDelimiter trim)

namespace Tree

/-- The bytes of the texts at all leaves. -/
def rawBytes : Tree → Nat
  | leaf c => c.raw.utf8ByteSize
  | node _ left right => left.rawBytes + right.rawBytes

/-- No tree is higher than it has leaves. -/
theorem depth_le_leafCount (t : Tree) : t.depth ≤ t.leafCount := by
  induction t with
  | leaf => exact Nat.le_refl 1
  | node _ left right ihl ihr =>
    have hleft := left.leafCount_pos
    have hright := right.leafCount_pos
    rw [depth, leafCount]
    omega

/-- Leaves of at least so many bytes each are as many times as much together. -/
theorem mul_leafCount_le_rawBytes {t : Tree} {n : Nat}
    (h : ∀ c ∈ t.conditions, n ≤ c.raw.utf8ByteSize) : n * t.leafCount ≤ t.rawBytes := by
  induction t with
  | leaf c => simpa [leafCount, rawBytes] using h c (List.mem_singleton_self c)
  | node _ left right ihl ihr =>
    have hleft := ihl fun c hc => h c (List.mem_append_left _ hc)
    have hright := ihr fun c hc => h c (List.mem_append_right _ hc)
    rw [leafCount, rawBytes, Nat.mul_add]
    exact Nat.add_le_add hleft hright

end Tree

/-! ## The text of a condition -/

theorem IsLiteral.ne_nil {token : List Char} {l : Literal} (h : IsLiteral token l) : token ≠ [] := by
  cases h with
  | quoted => exact List.cons_ne_nil _ _
  | number hne => exact hne
  | word hne => exact hne

/-- A literal does not end with a delimiter: its last character is a quote or one of a bare word. -/
theorem IsLiteral.isDelimiter_last {token : List Char} {l : Literal} (h : IsLiteral token l) :
    ∀ d ∈ token.getLast?, isDelimiter d = false := by
  have hbare : (∀ d ∈ token, IsBareCharacter d) → ∀ d ∈ token.getLast?, isDelimiter d = false :=
    fun hall d hd => Rule.isDelimiter_eq_false_of_isBare
      (isBare_iff.mpr (hall d (List.mem_of_mem_getLast? hd)))
  cases h with
  | quoted hquote =>
    intro d hd
    rw [← List.cons_append, List.getLast?_concat] at hd
    cases hd
    rcases hquote with rfl | rfl <;> decide
  | number _ hall => exact hbare hall
  | word _ hall => exact hbare hall

namespace Condition.Parts

variable (p : Parts)

theorem isDelimiter_head : ∀ d ∈ p.text.head?, isDelimiter d = false := by
  rintro d ⟨⟩
  exact Rule.isDelimiter_eq_false_of_isNameStart (isNameStart_iff.mpr p.first_spec)

theorem isDelimiter_last : ∀ d ∈ p.text.getLast?, isDelimiter d = false := by
  rw [← p.append_middle, List.getLast?_append_of_ne_nil _ p.isLiteral.ne_nil]
  exact p.isLiteral.isDelimiter_last

/-- The name, the comparator and the literal have at least one character each. -/
theorem three_le_length_text : 3 ≤ p.text.length := by
  have hsymbol : 0 < p.comparator.symbol.toList.length := by
    cases p.comparator <;> decide
  have htoken := List.length_pos_iff.mpr p.isLiteral.ne_nil
  simp only [text, afterName, afterGap, afterComparator, List.length_append, List.length_cons]
  omega

end Condition.Parts

/-- The text kept with a condition has at least three bytes. -/
theorem three_le_size_of_ofString {s : String} {c : Condition}
    (h : Condition.ofString s = .ok c) : 3 ≤ c.raw.utf8ByteSize := by
  obtain ⟨p, -, rfl⟩ := Condition.Parts.exists_of_ofTrimmed? (read_eq_ok_iff.mp h)
  exact p.three_le_length_text.trans (Rule.length_le_utf8ByteSize p.text)

/-! ## Parts of a rule -/

namespace Rule

variable {level : Level} {k : Connective} {cs w : List Char} {t : Tree}

/-- One if there is a character and it is a delimiter. -/
def delimiterCount (c : Option Char) : Nat := if c.any isDelimiter then 1 else 0

theorem delimiterCount_eq_zero {c : Option Char} (h : ∀ d ∈ c, isDelimiter d = false) :
    delimiterCount c = 0 := by
  cases c with
  | none => rfl
  | some d => simp [delimiterCount, h d rfl]

theorem delimiterCount_le_one (c : Option Char) : delimiterCount c ≤ 1 := by
  rw [delimiterCount]
  split
  · exact Nat.le_refl 1
  · exact Nat.zero_le 1

theorem delimiterCount_of_isDelimiter {c : Option Char} (h : ∃ d ∈ c, isDelimiter d = true) :
    delimiterCount c = 1 := by
  obtain ⟨d, rfl, hd⟩ := h
  simp [delimiterCount, hd]

theorem size_pos_of_ne_nil (h : w ≠ []) : 0 < (String.ofList w).utf8ByteSize :=
  (List.length_pos_iff.mpr h).trans_le (length_le_utf8ByteSize w)

/-- A delimiter after a text and white space is white space, or stands at the end of the text. -/
theorem one_le_size_after (h : ∃ c ∈ (cs ++ w).getLast?, isDelimiter c = true) :
    1 ≤ delimiterCount cs.getLast? + (String.ofList w).utf8ByteSize := by
  by_cases hw : w = []
  · rw [hw, List.append_nil] at h
    rw [delimiterCount_of_isDelimiter h]
    exact Nat.le_add_right 1 _
  · exact (size_pos_of_ne_nil hw).trans_le (Nat.le_add_left _ _)

theorem one_le_size_before (h : ∃ c ∈ (w ++ cs).head?, isDelimiter c = true) :
    1 ≤ delimiterCount cs.head? + (String.ofList w).utf8ByteSize := by
  by_cases hw : w = []
  · rw [hw, List.nil_append] at h
    rw [delimiterCount_of_isDelimiter h]
    exact Nat.le_add_right 1 _
  · exact (size_pos_of_ne_nil hw).trans_le (Nat.le_add_left _ _)

theorem two_le_size_keyword (k : Connective) : 2 ≤ k.keyword.utf8ByteSize := by
  cases k <;> decide

/-- A leaf takes all bytes of its text and has no delimiter at its ends. -/
theorem IsLeaf.size_eq {c : Condition} (h : IsLeaf cs c) :
    c.raw.utf8ByteSize + delimiterCount cs.head? + delimiterCount cs.getLast? =
      (String.ofList cs).utf8ByteSize := by
  obtain ⟨p, rfl, hp⟩ := Condition.Parts.exists_of_ofTrimmed? h.ofTrimmed?
  rw [← hp, delimiterCount_eq_zero p.isDelimiter_head, delimiterCount_eq_zero p.isDelimiter_last]
  rfl

/-- The leaves of a tree take no more bytes than its text has, less four for each connective and
one for each end of the text at which a delimiter stands. -/
theorem Derives.rawBytes_le (h : Derives level cs t) :
    t.rawBytes + 4 * t.leafCount + delimiterCount cs.head? + delimiterCount cs.getLast? ≤
      (String.ofList cs).utf8ByteSize + 4 := by
  induction h with
  | @leaf cs c h =>
    have hsize := h.size_eq
    rw [Tree.rawBytes, Tree.leafCount]
    omega
  | @group w cs w' t _ _ _ ih =>
    -- both parentheses are left over, whatever the group holds
    have hhead := delimiterCount_le_one (some '(')
    have hlast := delimiterCount_le_one (some ')')
    have hone : ∀ c, c = '(' ∨ c = ')' → (String.ofList [c]).utf8ByteSize = 1 := by
      rintro c (rfl | rfl) <;> decide
    have hopen := hone '(' (Or.inl rfl)
    have hclose := hone ')' (Or.inr rfl)
    rw [← List.cons_append, List.getLast?_concat, List.cons_append, List.head?_cons,
      ← List.singleton_append]
    simp only [String.ofList_append, String.utf8ByteSize_append]
    omega
  | operand _ ih => exact ih
  | @chain k cs w w' ds left right hleft _ hbefore hafter _ hright ihleft ihright =>
    have hleftEnd := one_le_size_after hbefore
    have hrightEnd := one_le_size_before hafter
    have hkeyword := two_le_size_keyword k
    rw [List.append_assoc, List.append_assoc, List.head?_append_of_ne_nil _ hleft.tight.ne_nil,
      ← List.append_assoc, ← List.append_assoc, ← List.append_assoc,
      List.getLast?_append_of_ne_nil _ hright.tight.ne_nil]
    simp only [String.ofList_append, String.utf8ByteSize_append, String.ofList_toList,
      Tree.rawBytes, Tree.leafCount]
    omega

/-! ## Whole rules -/

/-- A tree that a rule parses to is no larger than the rule.  With the rule trimmed, each leaf has
at least three of its bytes, and each connective four that belong to no leaf.  So there are at most
as many leaves as the bound says, the tree is no higher than that, and no limit from there on
refuses the rule. -/
theorem parse_size {rule : String} {maxDepth : Nat} {t : Tree} (h : parse maxDepth rule = .ok t) :
    let size := (String.ofList (trim rule.toList)).utf8ByteSize
    (∀ c ∈ t.conditions, 3 ≤ c.raw.utf8ByteSize) ∧
      t.rawBytes + 4 * (t.leafCount - 1) ≤ size ∧
      7 * t.leafCount ≤ size + 4 ∧
      t.depth ≤ t.leafCount ∧ t.leafCount ≤ (size + 4) / 7 ∧
      ∀ maxDepth', (size + 4) / 7 ≤ maxDepth' → parse maxDepth' rule = .ok t := by
  intro size
  have hrule := isRule_of_parse h
  have hleaves : ∀ c ∈ t.conditions, 3 ≤ c.raw.utf8ByteSize := by
    intro c hc
    obtain ⟨s, hs⟩ := isRead_of_parse h c hc
    exact three_le_size_of_ofString hs
  have hbytes : t.rawBytes + 4 * t.leafCount ≤ size + 4 := by
    obtain ⟨w, inner, w', htext, hw, hw', hinner⟩ := hrule
    have htrim : trim rule.toList = inner := by rw [htext, hinner.tight.trim_append hw hw']
    have hle := hinner.rawBytes_le
    simp only [size, htrim]
    omega
  have hpos := t.leafCount_pos
  have hthree := Tree.mul_leafCount_le_rawBytes hleaves
  have hdepth := t.depth_le_leafCount
  refine ⟨hleaves, by omega, by omega, hdepth, by omega, fun maxDepth' hle => ?_⟩
  rw [parse_of_isRule hrule, if_pos (by omega)]

/-- Two leaves of three bytes and a keyword between two spaces: the rule has no byte more than its
tree needs, and the least limit that the bound allows is the depth of the tree. -/
theorem parse_size_tight :
    (String.ofList (trim "a=x OR b=y".toList)).utf8ByteSize = 10 ∧
      ∃ t, parse 64 "a=x OR b=y" = .ok t ∧ t.rawBytes + 4 * (t.leafCount - 1) = 10 ∧
        t.depth = (10 + 4) / 7 ∧ parse ((10 + 4) / 7) "a=x OR b=y" = .ok t := by
  have hparse : parse 64 "a=x OR b=y" = .ok (.node .or (.leaf ⟨"a", .equal, .text "x", "a=x"⟩)
      (.leaf ⟨"b", .equal, .text "y", "b=y"⟩)) := by decide +kernel
  obtain ⟨-, -, -, -, -, hlimits⟩ := parse_size hparse
  exact ⟨by decide, _, hparse, by decide, rfl, hlimits _ (by decide)⟩

end Rule

end Rulebook
