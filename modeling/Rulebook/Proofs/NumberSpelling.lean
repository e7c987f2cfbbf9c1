import Rulebook.Proofs.BareWord
import Rulebook.Proofs.ExactScaling
import Rulebook.Proofs.Grammar.Basic
import Rulebook.Proofs.JsonNumbers
import Rulebook.Proofs.OwnFields
import Rulebook.Record.Json

/-!
# One number in three spellings

The same digits reach a rule in three ways: as a JSON number, as a text in a record, and as a bare
word in the rule itself.  The last two are read by one function at the nearest number, and blanks
around a text are trimmed first; so a text and a word with the same digits are the same number.  And
a comparison with a number asks a field for nothing but its number.  Two records whose fields count
as the same numbers are therefore alike to all rules that compare these fields with numbers
(`alike_insert`).

A JSON number is valued by another algorithm.  That it finds the nearest number, which is what the
text of its digits reads as, is an assumption on the numeral, and the theorem on the three spellings
carries it as a hypothesis.  It cannot do with less.  Numbers of one sign that compare equal are the
same (`eq_ofMagnitude_iff`), so where the algorithm misses the nearest number in the last place, a
rule can tell the JSON number from its text, and the rule `x = d` does (`spellings_missed`).  Short
numerals satisfy the assumption.

* `Binary64.read?_of_numeral`: what reads as a numeral is no name of an infinity.
* `Tree.ComparesNumbers`, `Record.Alike`: the rules, and the records that they cannot tell apart.
* `Record.Matches`: all six comparisons with a word go as for a number with itself.
* `GivesNumber.alike_text_iff`, `GivesNumber.matches_iff`: the JSON number against its text and
  against the word.
* `GivesNumber.spellings_alike`: the three spellings.
-/

namespace Rulebook

open Decimal (Numeral)
open Json (isNumberChar)
open Rule (Blank Tight)

/-! ## Numerals in a text -/

namespace Decimal

variable {cs : List Char} {c : Char} {n : Numeral}

theorem isNumberChar_or_mem_of_mem_cons {d : Char} (hd : isNumberChar d = true) (h : c ∈ d :: cs) :
    isNumberChar c = true ∨ c ∈ cs := by
  rcases List.mem_cons.mp h with rfl | h
  · exact Or.inl hd
  · exact Or.inr h

/-- What is taken off the start of a numeral consists of number characters. -/
theorem mem_takeSign (h : c ∈ cs) : isNumberChar c = true ∨ c ∈ (takeSign cs).2 := by
  unfold takeSign
  split
  · exact isNumberChar_or_mem_of_mem_cons rfl h
  · exact isNumberChar_or_mem_of_mem_cons rfl h
  · exact Or.inr h

theorem mem_of_mem_takeSign (h : c ∈ (takeSign cs).2) : c ∈ cs := by
  unfold takeSign at h
  split at h
  · exact List.mem_cons_of_mem _ h
  · exact List.mem_cons_of_mem _ h
  · exact h

theorem mem_takeDigits (h : c ∈ cs) : isNumberChar c = true ∨ c ∈ (takeDigits cs).2 := by
  rw [← List.takeWhile_append_dropWhile (p := Char.isDigit) (l := cs)] at h
  rcases List.mem_append.mp h with h | h
  · exact Or.inl (Json.isNumberChar_of_isDigit (isDigit_of_mem_takeDigits h))
  · exact Or.inr h

theorem mem_takeFraction (h : c ∈ cs) :
    isNumberChar c = true ∨ c ∈ (Numeral.takeFraction cs).2 := by
  unfold Numeral.takeFraction
  split
  · exact (isNumberChar_or_mem_of_mem_cons rfl h).elim Or.inl mem_takeDigits
  · exact Or.inr h

theorem mem_takePower (h : c ∈ cs) : isNumberChar c = true ∨ c ∈ (Numeral.takePower cs).2 :=
  (mem_takeSign h).elim Or.inl mem_takeDigits

theorem mem_takeExponent (h : c ∈ cs) :
    isNumberChar c = true ∨ c ∈ (Numeral.takeExponent cs).2 := by
  unfold Numeral.takeExponent
  split
  · exact (isNumberChar_or_mem_of_mem_cons rfl h).elim Or.inl mem_takePower
  · exact (isNumberChar_or_mem_of_mem_cons rfl h).elim Or.inl mem_takePower
  · exact Or.inr h

/-- A text that reads as a numeral consists of number characters. -/
theorem isNumberChar_of_read? (h : Numeral.read? cs = some n) (hc : c ∈ cs) :
    isNumberChar c = true := by
  simp only [Numeral.read?] at h
  split at h
  · next hrest =>
    rcases mem_takeSign hc with hc | hc
    · exact hc
    rcases mem_takeDigits hc with hc | hc
    · exact hc
    rcases mem_takeFraction hc with hc | hc
    · exact hc
    rcases mem_takeExponent hc with hc | hc
    · exact hc
    rw [List.isEmpty_iff.mp hrest] at hc
    cases hc
  · cases h

/-- A text that reads as a JSON numeral is a bare word. -/
theorem isBareWord_of_read? {d : String} (h : Numeral.read? d.toList = some n) (hn : n.IsJson) :
    IsBareWord d := by
  refine isBareWord_of_isBare ?_ fun c hc => isBare_of_isNumberChar (isNumberChar_of_read? h hc)
  intro hnil
  rw [hnil] at h
  cases h
  exact hn.2.1 rfl

end Decimal

theorem IsBareWord.tight {word : String} (h : IsBareWord word) : Tight word.toList where
  ne_nil := h.1
  head c hc := (h.2 c (List.mem_of_mem_head? hc)).1
  last c hc := (h.2 c (List.mem_of_mem_getLast? hc)).1

namespace Binary64

/-- Both names of infinity have an `n`, and no numeral has one. -/
theorem isInfinityName_eq_false_of_numeral {cs : List Char} {n : Numeral}
    (h : Numeral.read? cs = some n) : isInfinityName (Decimal.takeSign cs).2 = false := by
  have hletter : ∀ c ∈ (Decimal.takeSign cs).2, c.toLower ≠ 'n' := fun c hc => by
    have hnumber := Decimal.isNumberChar_of_read? h (Decimal.mem_of_mem_takeSign hc)
    exact of_decide_eq_true (isTrue_of_ascii (q := fun c => decide (c.toLower ≠ 'n'))
      (fun _ => toNat_lt_of_isNumberChar) (by decide) hnumber)
  have hlower : 'n' ∉ lowerCase (Decimal.takeSign cs).2 := fun hn => by
    obtain ⟨c, hc, hcn⟩ := List.mem_map.mp hn
    exact hletter c hc hcn
  rw [isInfinityName, Bool.or_eq_false_iff, beq_eq_false_iff_ne, beq_eq_false_iff_ne]
  constructor
  · intro heq
    rw [heq] at hlower
    exact hlower (by decide)
  · intro heq
    rw [heq] at hlower
    exact hlower (by decide)

theorem read?_of_numeral {cs : List Char} {n : Numeral} (h : Numeral.read? cs = some n)
    (hn : n.IsPlain) : read? cs = some (ofDecimal n.value) := by
  rw [read?, isInfinityName_eq_false_of_numeral h, if_neg Bool.false_ne_true, h]
  exact if_pos hn

/-- Numbers of one sign that compare equal are the same. -/
theorem eq_ofMagnitude_iff (negative : Bool) {m m' : Nat} (h : m ≤ infinityMagnitude)
    (h' : m' ≤ infinityMagnitude) :
    (ofMagnitude negative m).eq (ofMagnitude negative m') = true ↔ m = m' := by
  have hlt : ∀ {k}, k ≤ infinityMagnitude → k < signBit := fun hk =>
    Nat.lt_of_le_of_lt hk (by decide)
  simp only [eq, comparable, isNaN_ofMagnitude negative h, isNaN_ofMagnitude negative h', rank,
    isNegative_ofMagnitude negative (hlt h), isNegative_ofMagnitude negative (hlt h'),
    magnitude_ofMagnitude negative (hlt h), magnitude_ofMagnitude negative (hlt h')]
  cases negative <;> simp only [Bool.not_false, Bool.and_self, Bool.true_and, Bool.false_eq_true,
    if_true, if_false, beq_iff_eq] <;> omega

/-- The number nearest to a numeral and the number at which JSON values it are equal only if they
are the same. -/
theorem eq_numberOf_iff (n : Numeral) :
    (ofDecimal n.value).eq (Json.numberOf n) = true ↔ ofDecimal n.value = Json.numberOf n := by
  constructor
  · intro h
    have hmagnitude := (eq_ofMagnitude_iff n.value.negative (nearestDecimal_le _ _)
      (scaledMagnitude_le _ _)).mp h
    exact congrArg (ofMagnitude n.value.negative) hmagnitude
  · intro h
    rw [← h]
    exact eq_self (isNaN_ofDecimal _)

end Binary64

/-! ## Comparisons of a number with itself -/

/-- Whether the comparator admits equal numbers. -/
def Comparator.admitsEqual : Comparator → Bool
  | .equal | .greaterEqual | .lessEqual => true
  | .notEqual | .greater | .less => false

theorem Comparator.holds_self (k : Comparator) {y : Binary64} (h : y.isNaN = false) :
    k.holds y y = k.admitsEqual := by
  cases k <;>
    simp [holds, admitsEqual, Binary64.eq, Binary64.lt, Binary64.le, Binary64.comparable, h]

/-! ## Texts that count as numbers -/

/-- Blanks around a numeral do not matter to the number that a text counts as. -/
theorem Scalar.number?_padded {d : String} {n : Numeral} {w w' : List Char}
    (hd : Numeral.read? d.toList = some n) (hn : n.IsJson) (hw : Blank w) (hw' : Blank w') :
    (text (String.ofList (w ++ d.toList ++ w'))).number? = some (.ofDecimal n.value) := by
  have htight := (Decimal.isBareWord_of_read? hd hn).tight
  rw [number?, String.toList_ofList, htight.trim_append hw hw']
  exact Binary64.read?_of_numeral hd hn.isPlain

theorem Scalar.number?_numeral {d : String} {n : Numeral} (hd : Numeral.read? d.toList = some n)
    (hn : n.IsJson) : (text d).number? = some (.ofDecimal n.value) := by
  have hnil : Blank [] := nofun
  have hpadded := number?_padded hd hn hnil hnil
  rwa [List.nil_append, List.append_nil, String.ofList_toList] at hpadded

/-! ## Rules that compare a field with numbers -/

/-- Whatever the tree compares with the field is a number. -/
def Tree.ComparesNumbers (x : String) (t : Tree) : Prop :=
  ∀ c ∈ t.conditions, c.field = x → ∃ y, c.literal = .number y

namespace Record

variable {r : Record} {x d : String} {y z : Binary64} {v w : Scalar} {n : Numeral}

/-- Two records that no tree can tell apart if it compares the field with numbers only. -/
def Alike (x : String) (r r' : Record) : Prop :=
  ∀ t : Tree, t.ComparesNumbers x → t.evaluate r = t.evaluate r'

/-- A condition with a number does not see more of a field than its number. -/
theorem check_insert_eq {c : Condition} (hc : c.field = x → ∃ y, c.literal = .number y)
    (hv : v.number? = some z) (hw : w.number? = some z) :
    c.check (r.insert x v) = c.check (r.insert x w) := by
  by_cases hfield : x = c.field
  · obtain ⟨y, hy⟩ := hc hfield.symm
    subst hfield
    rw [Condition.check_of_get? (get?_insert_self ..),
      Condition.check_of_get? (get?_insert_self ..), Condition.checkValue_of_number? hy hv,
      Condition.checkValue_of_number? hy hw]
  · rw [Condition.check, Condition.check, get?_insert, get?_insert, if_neg hfield, if_neg hfield]

/-- Two values of a field that count as the same number make records that are alike. -/
theorem alike_insert (r : Record) (x : String) (hv : v.number? = some z)
    (hw : w.number? = some z) : Alike x (r.insert x v) (r.insert x w) := by
  intro t ht
  exact Tree.evaluate_congr fun c hc => check_insert_eq (ht c hc) hv hw

/-- Two records that are alike have equal numbers in the field, since a condition can ask for
equality with the first one. -/
theorem eq_of_alike (hget : r.get? x = some v) (hv : v.number? = some z) (hz : z.isNaN = false)
    (hw : w.number? = some y) (h : Alike x r (r.insert x w)) : y.eq z = true := by
  let c : Condition := ⟨x, .equal, .number z, ""⟩
  have hcompares : (Tree.leaf c).ComparesNumbers x := fun c' hc' _ => by
    cases List.mem_singleton.mp hc'
    exact ⟨z, rfl⟩
  have hinsert : (r.insert x w).get? c.field = some w := get?_insert_self ..
  have hchecks := h (.leaf c) hcompares
  rw [Tree.evaluate_leaf, Tree.evaluate_leaf, Condition.check_of_get? hget,
    Condition.check_of_get? hinsert, Condition.checkValue_of_number? rfl hv,
    Condition.checkValue_of_number? rfl hw] at hchecks
  have hequal : z.eq z = y.eq z := Except.ok.inj hchecks
  rw [← hequal, Binary64.eq_self hz]

/-! ## Comparisons with a bare word -/

/-- A field and a bare word are compared like a number with itself: the three comparators that admit
equal numbers hold, and the other three do not. -/
def Matches (r : Record) (x word : String) : Prop :=
  ∀ k : Comparator, ∃ c, Condition.ofString (x ++ " " ++ k.symbol ++ " " ++ word) = .ok c ∧
    c.check r = .ok k.admitsEqual

/-- A condition with a bare word that reads as a number, on a field that counts as a number. -/
theorem check_bare (hname : IsName x) (hword : IsBareWord d)
    (hd : Binary64.read? d.toList = some y) (hget : r.get? x = some v) (hv : v.number? = some z)
    (k : Comparator) :
    ∃ c, Condition.ofString (x ++ " " ++ k.symbol ++ " " ++ d) = .ok c ∧
      c.check r = .ok (k.holds z y) := by
  have hliteral : Literal.ofBare d.toList = .number y := by rw [Literal.ofBare, hd]
  refine ⟨_, Condition.ofString_bare hname hword k, ?_⟩
  rw [Condition.check_of_get? hget]
  exact Condition.checkValue_of_number? hliteral hv

/-- A field matches a bare word if it counts as the number that the word reads as. -/
theorem matches_of_number? (hname : IsName x) (hword : IsBareWord d)
    (hd : Binary64.read? d.toList = some y) (hget : r.get? x = some v)
    (hv : v.number? = some y) : r.Matches x d := by
  intro k
  obtain ⟨c, hc, hcheck⟩ := check_bare hname hword hd hget hv k
  exact ⟨c, hc, hcheck.trans (congrArg Except.ok (k.holds_self (Binary64.isNaN_of_read? hd)))⟩

/-- A field that matches a bare word counts as a number that equals it. -/
theorem eq_of_matches (hname : IsName x) (hword : IsBareWord d)
    (hd : Binary64.read? d.toList = some y) (hget : r.get? x = some v) (hv : v.number? = some z)
    (h : r.Matches x d) : y.eq z = true := by
  obtain ⟨c, hc, hcheck⟩ := check_bare hname hword hd hget hv .equal
  obtain ⟨c', hc', hcheck'⟩ := h .equal
  cases hc.symm.trans hc'
  rw [Binary64.eq_comm]
  exact Except.ok.inj (hcheck.symm.trans hcheck')

/-! ## Three spellings -/

/-- The text `s` is the JSON of the record `r`, and there the field `x` has the numeral `n`.  Of a
repeated key the last value counts. -/
structure GivesNumber (s : String) (r : Record) (x : String) (n : Numeral) : Prop where
  ofText_eq : ofText s = .ok r
  numeral : ∃ members, Json.read? s.toList = some (.object members) ∧
    (Json.valuesOf members x).getLast? = some (.number n)

namespace GivesNumber

variable {s : String}

theorem get?_eq (h : GivesNumber s r x n) : r.get? x = some (.number (Json.numberOf n)) := by
  obtain ⟨members, hread, hlast⟩ := h.numeral
  exact get?_of_ofText h.ofText_eq hread hlast

theorem isJson (h : GivesNumber s r x n) : n.IsJson := by
  obtain ⟨members, hread, hlast⟩ := h.numeral
  obtain ⟨member, hmember, hvalue⟩ := List.mem_map.mp (List.mem_of_getLast? hlast)
  have hmem : (member.1, Json.number n) ∈ members := by
    rw [← hvalue]
    exact (List.mem_filter.mp hmember).1
  exact (Json.hasNumerals_of_read? hread n
    (Json.mem_tokens_object hmem (List.mem_singleton_self _))).2

/-- An object of one member gives the number of that member. -/
theorem write (hn : n.IsNumeric) (hj : n.IsJson) (hfinite : (Json.numberOf n).isFinite = true)
    (x : String) : GivesNumber (Json.write (.object [(x, .number n)]))
      (ofList [(x, .number (Json.numberOf n))]) x n := by
  have hmem : ∀ m, .number m ∈ (Json.object [(x, .number n)]).tokens → m = n := fun m hm => by
    simpa [Json.tokens, Json.memberTokens, Json.moreMemberTokens] using hm
  have hread : Json.read? (Json.write (.object [(x, .number n)])).toList =
      some (.object [(x, .number n)]) := by
    rw [Json.write, String.toList_ofList]
    refine Json.read?_writeChars (fun m hm => ?_) (fun m hm => ?_) ?_
    · obtain rfl := hmem m hm
      exact ⟨hn, hj⟩
    · obtain rfl := hmem m hm
      exact hfinite
    · rw [Json.nesting_tokens]
      simp [Json.height, Json.membersHeight, Json.maxNesting]
  refine ⟨?_, _, hread, by simp [Json.valuesOf]⟩
  rw [ofText, hread]
  rfl

/-! ### The text and the word -/

variable {w w' : List Char}

/-- The text and the word with the digits of the number are read at the nearest number. -/
theorem read?_eq (h : GivesNumber s r x n) (hd : Numeral.read? d.toList = some n) :
    Binary64.read? d.toList = some (.ofDecimal n.value) :=
  Binary64.read?_of_numeral hd h.isJson.isPlain

/-- Blanks around the text do not matter. -/
theorem alike_padded (h : GivesNumber s r x n) (hd : Numeral.read? d.toList = some n)
    (hw : Blank w) (hw' : Blank w') :
    Alike x (r.insert x (.text d)) (r.insert x (.text (String.ofList (w ++ d.toList ++ w')))) :=
  alike_insert r x (Scalar.number?_numeral hd h.isJson) (Scalar.number?_padded hd h.isJson hw hw')

/-- A record with a value that counts as the nearest number in the field matches the word. -/
theorem matches_word (h : GivesNumber s r x n) (hd : Numeral.read? d.toList = some n)
    (hname : IsName x) {r' : Record} (hget : r'.get? x = some v)
    (hv : v.number? = some (.ofDecimal n.value)) : r'.Matches x d :=
  matches_of_number? hname (Decimal.isBareWord_of_read? hd h.isJson) (h.read?_eq hd) hget hv

/-! ### The JSON number -/

/-- JSON values the number at the nearest one exactly if the two are equal in a comparison. -/
theorem read?_eq_numberOf_iff (h : GivesNumber s r x n) (hd : Numeral.read? d.toList = some n) :
    Binary64.read? d.toList = some (Json.numberOf n) ↔
      (Binary64.ofDecimal n.value).eq (Json.numberOf n) = true := by
  rw [h.read?_eq hd, Option.some.injEq, Binary64.eq_numberOf_iff]

/-- Where JSON values the number at the nearest one, the field counts as the nearest one. -/
theorem number?_numberOf (h : GivesNumber s r x n) (hd : Numeral.read? d.toList = some n)
    (hnearest : Binary64.read? d.toList = some (Json.numberOf n)) :
    (Scalar.number (Json.numberOf n)).number? = some (.ofDecimal n.value) :=
  hnearest.symm.trans (h.read?_eq hd)

/-- The JSON number is alike to its text exactly if JSON values it at the number that its text reads
as. -/
theorem alike_text_iff (h : GivesNumber s r x n) (hd : Numeral.read? d.toList = some n) :
    Alike x r (r.insert x (.text d)) ↔ Binary64.read? d.toList = some (Json.numberOf n) := by
  have htext := Scalar.number?_numeral hd h.isJson
  constructor
  · intro halike
    exact (h.read?_eq_numberOf_iff hd).mpr
      (eq_of_alike h.get?_eq rfl (Json.isNaN_numberOf n) htext halike)
  · intro hnearest
    have hself : r.insert x (.number (Json.numberOf n)) = r := insert_eq_self h.get?_eq
    have halike := alike_insert r x (h.number?_numberOf hd hnearest) htext
    rwa [hself] at halike

/-- Exactly then it matches the word with its digits. -/
theorem matches_iff (h : GivesNumber s r x n) (hd : Numeral.read? d.toList = some n)
    (hname : IsName x) :
    r.Matches x d ↔ Binary64.read? d.toList = some (Json.numberOf n) := by
  constructor
  · intro hmatches
    have hword := Decimal.isBareWord_of_read? hd h.isJson
    exact (h.read?_eq_numberOf_iff hd).mpr
      (eq_of_matches hname hword (h.read?_eq hd) h.get?_eq rfl hmatches)
  · intro hnearest
    exact h.matches_word hd hname h.get?_eq (h.number?_numberOf hd hnearest)

/-- JSON misses the number nearest to sixteen digits by one unit in the last place, and a rule with
the same digits then tells the JSON number from its text. -/
theorem spellings_missed :
    ∃ r, ofText "\x7b\x22x\x22:0.9532683939774211\x7d" = .ok r ∧
      ¬ Alike "x" r (r.insert "x" (.text "0.9532683939774211")) ∧
      ¬ r.Matches "x" "0.9532683939774211" := by
  let n : Numeral := ⟨none, ['0'], some "9532683939774211".toList, none⟩
  have hd : Numeral.read? "0.9532683939774211".toList = some n := by decide
  have hname : IsName "x" := ⟨'x', [], rfl, .inl rfl, nofun⟩
  have hgives := write (Numeral.isNumeric_of_read? hd) (by decide) (by decide +kernel) "x"
  have hmissed : (Binary64.ofDecimal n.value).eq (Json.numberOf n) ≠ true := by decide +kernel
  have hnearest := mt (hgives.read?_eq_numberOf_iff hd).mp hmissed
  exact ⟨_, hgives.ofText_eq, mt (hgives.alike_text_iff hd).mp hnearest,
    mt (hgives.matches_iff hd hname).mp hnearest⟩

/-- Short numerals are valued at the number that their text reads as. -/
theorem read?_of_isShort (h : GivesNumber s r x n) (hd : Numeral.read? d.toList = some n)
    (hshort : n.IsShort) : Binary64.read? d.toList = some (Json.numberOf n) := by
  rw [h.read?_eq hd, Json.numberOf_eq_ofDecimal hshort]

/-! ### All three -/

/-- A number means the same in three spellings, if JSON values it at the number that its text reads
as.  A record with the JSON number `d`, the record with the text `d` and the record with blanks
around this text are alike to every tree that compares the field with numbers only, and each of them
passes the same comparisons with the bare word `d`, which are those that admit equal numbers. -/
theorem spellings_alike (h : GivesNumber s r x n) (hd : Numeral.read? d.toList = some n)
    (hnearest : Binary64.read? d.toList = some (Json.numberOf n))
    (hw : Blank w) (hw' : Blank w') :
    Alike x r (r.insert x (.text d)) ∧
      Alike x r (r.insert x (.text (String.ofList (w ++ d.toList ++ w')))) ∧
      Alike x (r.insert x (.text d)) (r.insert x (.text (String.ofList (w ++ d.toList ++ w')))) ∧
      (IsName x → r.Matches x d ∧ (r.insert x (.text d)).Matches x d ∧
        (r.insert x (.text (String.ofList (w ++ d.toList ++ w')))).Matches x d) := by
  have hnumber := (h.alike_text_iff hd).mpr hnearest
  have hpadded := h.alike_padded hd hw hw'
  refine ⟨hnumber, fun t ht => (hnumber t ht).trans (hpadded t ht), hpadded, fun hname => ?_⟩
  refine ⟨(h.matches_iff hd hname).mpr hnearest, ?_, ?_⟩
  · exact h.matches_word hd hname (get?_insert_self ..) (Scalar.number?_numeral hd h.isJson)
  · exact h.matches_word hd hname (get?_insert_self ..) (Scalar.number?_padded hd h.isJson hw hw')

/-- A number with a sign, a point and a power of ten. -/
theorem spellings_alike_scientific :
    ∃ r, ofText "\x7b\x22x\x22:-12.5e1\x7d" = .ok r ∧
      Alike "x" r (r.insert "x" (.text "-12.5e1")) ∧
      Alike "x" r (r.insert "x" (.text "\t-12.5e1\n")) ∧
      r.Matches "x" "-12.5e1" ∧ (r.insert "x" (.text "-12.5e1")).Matches "x" "-12.5e1" ∧
      (r.insert "x" (.text "\t-12.5e1\n")).Matches "x" "-12.5e1" := by
  have hd : Numeral.read? "-12.5e1".toList =
      some ⟨some .minus, ['1', '2'], some ['5'], some ⟨none, ['1']⟩⟩ := by decide
  have hname : IsName "x" := ⟨'x', [], rfl, .inl rfl, nofun⟩
  have htab : Blank ['\t'] := List.forall_mem_singleton.mpr rfl
  have hline : Blank ['\n'] := List.forall_mem_singleton.mpr rfl
  have hgives := write (Numeral.isNumeric_of_read? hd) (by decide) (by decide +kernel) "x"
  have hnearest := hgives.read?_of_isShort hd (by decide)
  obtain ⟨htext, hpadded, -, hmatches⟩ := hgives.spellings_alike hd hnearest htab hline
  exact ⟨_, hgives.ofText_eq, htext, hpadded, hmatches hname⟩

end GivesNumber

end Record

end Rulebook
