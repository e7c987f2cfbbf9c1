import Rulebook.Json.RoundTrip
import Rulebook.Proofs.JsonTokens

/-!
# What the JSON reader accepts

What the writer writes is read back, but most texts were written by others, with white space, with
needless escapes and with numbers in any spelling.  The reader of values asks three things of such a
text: its tokens must be those of a value, its numbers must be in range, and it must not be nested
too deeply.  That is all (`read?_eq_some_iff`), since the lexer has already refused what is no
token.  In particular every number of the value is a numeral of the JSON grammar, with digits where
they have to be.

* `hasNumerals_of_read?`: the numbers of what has been read.
* `read?_eq_some_iff`: the texts that read as a value.
-/

namespace Rulebook.Json

open Decimal (Numeral)

variable {cs rest : List Char} {n : Numeral} {v : Json String}

/-! ## Numbers in a text -/

theorem isJson_of_takeNumber? (h : takeNumber? cs = some (n, rest)) : n.IsNumeric ∧ n.IsJson := by
  unfold takeNumber? at h
  split at h
  · cases h
  · split at h
    · next m hread =>
      split at h
      · next hjson =>
        cases h
        exact ⟨Numeral.isNumeric_of_read? hread, hjson⟩
      · cases h
    · cases h

theorem isJson_of_takeToken? (h : takeToken? cs = some (.number n, rest)) :
    n.IsNumeric ∧ n.IsJson := by
  unfold takeToken? at h
  split at h
  case h_10 =>
    obtain ⟨_, -, hstring⟩ := Option.map_eq_some_iff.mp h
    cases hstring
  case h_11 =>
    obtain ⟨_, hnumber, hpair⟩ := Option.map_eq_some_iff.mp h
    cases hpair
    exact isJson_of_takeNumber? hnumber
  all_goals cases h

/-- The lexer keeps to the grammar of numbers. -/
theorem isJson_of_lexFrom? {found tokens : List (Token (Option String))}
    (h : lexFrom? found cs = some tokens)
    (hfound : ∀ n, .number n ∈ found → n.IsNumeric ∧ n.IsJson) (hn : .number n ∈ tokens) :
    n.IsNumeric ∧ n.IsJson := by
  fun_induction lexFrom? found cs with
  | case1 found =>
    cases h
    exact hfound n (List.mem_reverse.mp hn)
  | case2 found c rest hwhite ih => exact ih h hfound
  | case3 found c rest hwhite token rest' htake ih =>
    refine ih h fun m hm => ?_
    rcases List.mem_cons.mp hm with rfl | hm
    · exact isJson_of_takeToken? htake
    · exact hfound m hm
  | case4 => cases h

/-! ## Strict tokens -/

/-- A strict token is one with a text for its string and a number in range. -/
theorem eq_written_of_strict? {t : Token (Option String)} {u : Token String}
    (h : t.strict? = some u) :
    t = u.written ∧ ∀ n, u = .number n → (numberOf n).isFinite = true := by
  cases t with
  | string s =>
    obtain ⟨text, rfl, rfl⟩ := Option.map_eq_some_iff.mp h
    exact ⟨rfl, fun n hn => by cases hn⟩
  | number m =>
    rw [Token.strict?] at h
    split at h
    · next hfinite =>
      cases h
      refine ⟨rfl, fun n hn => ?_⟩
      cases hn
      exact hfinite
    · cases h
  | _ =>
    cases h
    exact ⟨rfl, fun n hn => by cases hn⟩

theorem mapM_strict?_eq_some_iff {ts : List (Token (Option String))} {us : List (Token String)} :
    ts.mapM Token.strict? = some us ↔
      ts = us.map Token.written ∧ ∀ n, .number n ∈ us → (numberOf n).isFinite = true := by
  constructor
  · intro h
    induction ts generalizing us with
    | nil =>
      cases h
      exact ⟨rfl, nofun⟩
    | cons t ts ih =>
      rw [List.mapM_cons] at h
      obtain ⟨u, hu, h⟩ := Option.bind_eq_some_iff.mp h
      obtain ⟨us, hus, h⟩ := Option.bind_eq_some_iff.mp h
      cases h
      obtain ⟨rfl, hfinite⟩ := eq_written_of_strict? hu
      obtain ⟨rfl, hrest⟩ := ih hus
      refine ⟨rfl, fun n hn => ?_⟩
      rcases List.mem_cons.mp hn with hn | hn
      · exact hfinite n hn.symm
      · exact hrest n hn
  · rintro ⟨rfl, hfinite⟩
    exact mapM_strict?_written hfinite

/-! ## Values -/

/-- A text reads as a value if its tokens are those of the value, the numbers of the value are in
range and the value is not nested too deeply. -/
theorem read?_eq_some_iff : read? cs = some v ↔
    lex? cs = some (v.tokens.map Token.written) ∧
      (∀ n, .number n ∈ v.tokens → (numberOf n).isFinite = true) ∧ v.height ≤ maxNesting := by
  constructor
  · intro h
    have hheight := height_le_of_read? h
    obtain ⟨written, hlex, h⟩ := Option.bind_eq_some_iff.mp h
    obtain ⟨tokens, hstrict, h⟩ := Option.bind_eq_some_iff.mp h
    split at h
    · obtain rfl := ofTokens?_eq_some_iff.mp h
      obtain ⟨rfl, hfinite⟩ := mapM_strict?_eq_some_iff.mp hstrict
      exact ⟨hlex, hfinite, hheight⟩
    · cases h
  · rintro ⟨hlex, hfinite, hheight⟩
    have hstrict := mapM_strict?_eq_some_iff.mpr ⟨rfl, hfinite⟩
    simp [read?, hlex, hstrict, nesting_tokens, hheight]

theorem number_mem_map_written {ts : List (Token String)} (h : .number n ∈ ts) :
    .number n ∈ ts.map Token.written :=
  List.mem_map_of_mem (f := Token.written) h

/-- The numbers of what has been read are numerals of the JSON grammar. -/
theorem hasNumerals_of_read? (h : read? cs = some v) : HasNumerals v.tokens := fun _ hn =>
  isJson_of_lexFrom? (read?_eq_some_iff.mp h).1 nofun (number_mem_map_written hn)

/-! ## Members -/

variable {σ : Type} {t : Token σ} {key : σ} {value : Json σ} {members : List (σ × Json σ)}

theorem mem_moreMemberTokens (h : (key, value) ∈ members) (ht : t ∈ value.tokens) :
    t ∈ moreMemberTokens members := by
  induction members with
  | nil => cases h
  | cons member members ih =>
    rw [moreMemberTokens]
    rcases List.mem_cons.mp h with rfl | h
    · simp [ht]
    · simp [ih h]

/-- The tokens of a member are tokens of the object. -/
theorem mem_tokens_object (h : (key, value) ∈ members) (ht : t ∈ value.tokens) :
    t ∈ (object members).tokens := by
  cases members with
  | nil => cases h
  | cons member members =>
    rw [tokens, memberTokens]
    rcases List.mem_cons.mp h with rfl | h
    · simp [ht]
    · simp [mem_moreMemberTokens h ht]

theorem exists_member_of_moreMemberTokens (h : .number n ∈ moreMemberTokens members) :
    ∃ member ∈ members, .number n ∈ member.2.tokens := by
  induction members with
  | nil => simp [moreMemberTokens] at h
  | cons member members ih =>
    simp only [moreMemberTokens, List.mem_cons, reduceCtorEq, false_or, List.mem_append] at h
    rcases h with h | h
    · exact ⟨member, List.mem_cons_self .., h⟩
    · obtain ⟨other, hother, hn⟩ := ih h
      exact ⟨other, List.mem_cons_of_mem _ hother, hn⟩

/-- The numbers of an object stand in its members. -/
theorem exists_member_of_number_mem (h : .number n ∈ (object members).tokens) :
    ∃ member ∈ members, .number n ∈ member.2.tokens := by
  cases members with
  | nil => simp [tokens, memberTokens] at h
  | cons member members =>
    simp only [tokens, memberTokens, List.mem_cons, reduceCtorEq, false_or, List.mem_append] at h
    rcases h with h | h
    · exact ⟨member, List.mem_cons_self .., h⟩
    · obtain ⟨other, hother, hn⟩ := exists_member_of_moreMemberTokens h
      exact ⟨other, List.mem_cons_of_mem _ hother, hn⟩

end Rulebook.Json
