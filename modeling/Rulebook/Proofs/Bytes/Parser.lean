import Rulebook.Proofs.Bytes.Scan
import Rulebook.Rule.Parse

/-!
# The parser on bytes

`Rule.parse` takes texts apart as lists of characters, and there is nothing in it that could go
wrong.  The parser of this file gives the same answers from the bytes of a rule.  It walks bytes,
remembers places as offsets, looks one byte back and some bytes ahead by index, cuts the rule at
offsets, and keeps the depth in a counter of fixed width.  Each of these can go wrong: there may be
no byte at an index, a slice may begin after its end or inside a character, and the counter may be
too small.  Then there is no answer but a `Crash`, and no step of the parser gets past one.

The counter holds the numbers from `-half` up to `half`, which itself is too large.

* `slice`, `byteAt`, `bytesFrom`: cutting at offsets, and bytes by index.
* `append_of_slice`: a slice is a part of the text.
* `balanceFault`, `groupInterior`, `findSplit`, `readCondition`: the steps of the parser.
* `parse`: the parser.
-/

namespace Rulebook

namespace Bytes

open Text (bytes isBlank trim utf8)

/-- What ends a walk over bytes without an answer. -/
inductive Crash where
  /-- A slice ends before it begins, or past the text, or cuts through a character. -/
  | slice
  /-- There is no byte at an index. -/
  | index
  /-- The counter of the depth is too small. -/
  | overflow
  deriving DecidableEq, Repr

/-! ## Places in a text -/

/-- The two parts of a text that is cut at an offset, if the offset is no place inside a character
and not past the end. -/
def cut? : List Char → Nat → Option (List Char × List Char)
  | [], offset => if offset = 0 then some ([], []) else none
  | c :: cs, offset =>
    if offset = 0 then some ([], c :: cs)
    else if offset < c.utf8Size then none
    else (cut? cs (offset - c.utf8Size)).map fun (before, after) => (c :: before, after)

/-- The part of a text between two offsets. -/
def slice (cs : List Char) (start stop : Nat) : Except Crash (List Char) :=
  match cut? cs stop with
  | none => .error .slice
  | some (upTo, _) =>
    match cut? upTo start with
    | none => .error .slice
    | some (_, inside) => .ok inside

/-- The byte at an index. -/
def byteAt (bs : List UInt8) (i : Nat) : Except Crash UInt8 :=
  match bs[i]? with
  | none => .error .index
  | some b => .ok b

/-- The bytes from an index on. -/
def bytesFrom (bs : List UInt8) (i : Nat) : Except Crash (List UInt8) :=
  if i ≤ bs.length then .ok (bs.drop i) else .error .slice

/-! ## Balance -/

/-- One step of a scan, if the depth after it fits the counter. -/
def step (half : Nat) (s : ByteScan) (b : UInt8) : Except Crash (Bool × ByteScan) :=
  let next := s.step b
  if -half ≤ next.2.depth ∧ next.2.depth < half then .ok next else .error .overflow

/-- The fault at the end of a text in which no prefix closes more than it opens. -/
def endFault? (s : ByteScan) : Option BalanceFault :=
  if s.quote.isSome then some .openQuote
  else if s.depth ≠ 0 then some (.unclosed s.depth.toNat)
  else none

/-- The balance fault of bytes that go on at a scan and an offset. -/
def balanceFaultFrom (half : Nat) (s : ByteScan) (i : Nat) :
    List UInt8 → Except Crash (Option BalanceFault)
  | [] => .ok (endFault? s)
  | b :: rest => do
    let (_, next) ← step half s b
    if next.depth < 0 then return some (.unmatchedClose i)
    balanceFaultFrom half next (i + 1) rest

/-- What keeps the bytes of a text from being balanced, if anything does. -/
def balanceFault (half : Nat) (bs : List UInt8) : Except Crash (Option BalanceFault) :=
  balanceFaultFrom half .start 0 bs

/-! ## Groups -/

/-- The inside of a text that is one group, without the blanks at its ends. -/
def groupInterior (half : Nat) (cs : List Char) : Except Crash (Option (List Char)) :=
  let size := (bytes cs).length
  if 2 ≤ size ∧ cs.head? = some '(' ∧ cs.getLast? = some ')' then do
    let inside ← slice cs 1 (size - 1)
    match ← balanceFault half (bytes inside) with
    | some _ => return none
    | none => return some (trim inside)
  else
    .ok none

variable {cs before inside after : List Char} {start stop half : Nat}

theorem append_of_cut? (h : cut? cs stop = some (before, after)) :
    before ++ after = cs ∧ (bytes before).length = stop := by
  induction cs generalizing before stop with
  | nil =>
    rw [cut?] at h
    split at h
    · next hzero =>
      cases h
      exact ⟨rfl, hzero.symm⟩
    · cases h
  | cons c cs ih =>
    rw [cut?] at h
    split at h
    · next hzero =>
      cases h
      exact ⟨rfl, hzero.symm⟩
    · split at h
      · cases h
      · next hsize =>
        obtain ⟨⟨before, after⟩, hcut, heq⟩ := Option.map_eq_some_iff.mp h
        cases heq
        obtain ⟨rfl, hlength⟩ := ih hcut
        refine ⟨rfl, ?_⟩
        rw [Text.length_bytes_cons, hlength]
        omega

/-- A slice is the part of the text between its two offsets. -/
theorem append_of_slice (h : slice cs start stop = .ok inside) :
    ∃ before after, before ++ inside ++ after = cs ∧ (bytes before).length = start ∧
      (bytes (before ++ inside)).length = stop := by
  rw [slice] at h
  rcases hstop : cut? cs stop with _ | ⟨upTo, after⟩
  · rw [hstop] at h
    cases h
  · rw [hstop] at h
    dsimp only at h
    rcases hstart : cut? upTo start with _ | ⟨before, inside⟩
    · rw [hstart] at h
      cases h
    · rw [hstart] at h
      cases h
      obtain ⟨rfl, hlength⟩ := append_of_cut? hstop
      obtain ⟨rfl, hbefore⟩ := append_of_cut? hstart
      exact ⟨before, after, rfl, hbefore, hlength⟩

/-- The inside of a group is shorter than the group. -/
theorem length_lt_of_groupInterior (h : groupInterior half cs = .ok (some inside)) :
    inside.length < cs.length := by
  unfold groupInterior at h
  dsimp only at h
  split at h
  · obtain ⟨body, hslice, hrest⟩ := exists_of_bind_eq_ok h
    obtain ⟨fault, -, hinside⟩ := exists_of_bind_eq_ok hrest
    obtain ⟨before, after, rfl, hbefore, -⟩ := append_of_slice hslice
    cases fault with
    | some fault => cases hinside
    | none =>
      cases hinside
      have hle := Text.length_trim_le body
      have hne : before ≠ [] := by
        rintro rfl
        cases hbefore
      have hpos := List.length_pos_iff.mpr hne
      simp only [List.length_append]
      omega
  · cases h

/-- A text without the groups that enclose it as a whole. -/
def peelGroups (half : Nat) (cs : List Char) : Except Crash (List Char) :=
  match _h : groupInterior half cs with
  | .error crash => .error crash
  | .ok none => .ok cs
  | .ok (some inside) => peelGroups half inside
termination_by cs.length
decreasing_by exact length_lt_of_groupInterior _h

/-! ## Splits -/

/-- The place of a keyword, by its two offsets. -/
structure Split where
  connective : Connective
  start : Nat
  stop : Nat
  deriving DecidableEq, Repr

/-- Whether a keyword may start at an index. -/
def isBoundaryBefore (bs : List UInt8) (i : Nat) : Except Crash Bool :=
  if i = 0 then .ok true else (byteAt bs (i - 1)).map isDelimiter

/-- Whether a keyword may end at an index. -/
def isBoundaryAt (bs : List UInt8) (i : Nat) : Except Crash Bool :=
  if i = bs.length then .ok true else (byteAt bs i).map isDelimiter

/-- Whether a keyword stands at an index and ends there as a word. -/
def startsWithKeyword (k : Connective) (bs : List UInt8) (i : Nat) : Except Crash Bool := do
  if (utf8 k.keyword).isPrefixOf (← bytesFrom bs i) then
    isBoundaryAt bs (i + (utf8 k.keyword).length)
  else
    return false

/-- The keyword that stands at an index as a word. -/
def keywordAt (bs : List UInt8) (i : Nat) : Except Crash (Option Connective) := do
  if ← isBoundaryBefore bs i then
    if ← startsWithKeyword .and bs i then return some .and
    if ← startsWithKeyword .or bs i then return some .or
  return none

/-- The keyword at an index whose byte is scanned with this outcome.  It has to be outside quotes
and on ground level. -/
def keywordOnGround (bs : List UInt8) (i : Nat) (outside : Bool) (s : ByteScan) :
    Except Crash (Option Connective) :=
  if outside ∧ s.depth = 0 then keywordAt bs i else .ok none

/-- The split from an index on, where the scan and the first `OR` so far come along.  An `AND`
ends the search. -/
def findSplitFrom (half : Nat) (bs : List UInt8) (s : ByteScan) (firstOr : Option Split) (i : Nat) :
    List UInt8 → Except Crash (Option Split)
  | [] => .ok firstOr
  | b :: rest => do
    let (outside, next) ← step half s b
    match ← keywordOnGround bs i outside next with
    | none => findSplitFrom half bs next firstOr (i + 1) rest
    | some .and => return some ⟨.and, i, i + (utf8 Connective.and.keyword).length⟩
    | some .or =>
      let split := ⟨.or, i, i + (utf8 Connective.or.keyword).length⟩
      findSplitFrom half bs next (firstOr.or (some split)) (i + 1) rest

/-- The split of the bytes of a rule. -/
def findSplit (half : Nat) (bs : List UInt8) : Except Crash (Option Split) :=
  findSplitFrom half bs .start none 0 bs

/-! ## Conditions -/

/-- The value of a literal that is known to be well written. -/
def literalOf (token : List Char) : Except Crash Literal :=
  if token.head? = some '\x27' ∨ token.head? = some '\x22' then do
    let inside ← slice token 1 ((bytes token).length - 1)
    return .text (String.ofList inside)
  else
    .ok (Literal.ofBare token)

/-- The name, the comparator and the text of the literal of a condition without blanks at its
ends. -/
def captures? (cs : List Char) : Option (List Char × Comparator × List Char) := do
  let (name, afterName) ← takeName? cs
  let (comparator, afterComparator) ← takeComparator? (afterName.dropWhile isBlank)
  let token := afterComparator.dropWhile isBlank
  if (readLiteral? token).isSome then some (name, comparator, token) else none

/-- The condition that a text is. -/
def readCondition (cs : List Char) : Except Crash (Except RuleError Condition) :=
  match captures? (trim cs) with
  | none => .ok (.error (.condition (.noComparison (String.ofList (trim cs)))))
  | some (name, comparator, token) => do
    let literal ← literalOf token
    return .ok ⟨String.ofList name, comparator, literal, String.ofList (trim cs)⟩

/-! ## Rules -/

/-- The tree of a balanced rule that may have so many levels. -/
def parseLevels (half limit : Nat) :
    (levels : Nat) → List Char → Except Crash (Except RuleError Tree)
  | 0, _ => .ok (.error (.limit (.nesting limit)))
  | levels + 1, cs => do
    let inner ← peelGroups half (trim cs)
    if inner = [] then return .error (.parse .emptyGroup)
    match ← findSplit half (bytes inner) with
    | none => return (← readCondition inner).map Tree.leaf
    | some split =>
      let before := trim (← slice inner 0 split.start)
      let after := trim (← slice inner split.stop (bytes inner).length)
      if before = [] ∨ after = [] then
        return .error (.parse (.missingOperand split.connective (String.ofList inner)))
      match ← parseLevels half limit levels before with
      | .error e => return .error e
      | .ok left =>
        match ← parseLevels half limit levels after with
        | .error e => return .error e
        | .ok right => return .ok (.node split.connective left right)

/-- The tree of a rule under a depth limit. -/
def parse (half maxDepth : Nat) (rule : String) : Except Crash (Except RuleError Tree) := do
  let cs := trim rule.toList
  if cs = [] then return .error (.parse .emptyRule)
  match ← balanceFault half (bytes cs) with
  | some fault => return .error (.parse (.unbalanced fault (String.ofList cs)))
  | none => parseLevels half maxDepth maxDepth cs

end Bytes

end Rulebook
