import Rulebook.Json.Reader

/-!
# The tokens behind a JSON value

The reader of JSON is a machine with a stack, and `ofTokens?_tokens` says that it reads back what is
written.  Here is the other direction: whatever the machine accepts is the writing of the value that
it gives.  Nothing that the machine has read is lost in its state, so the tokens read so far can be
written down from the state alone (`State.tokens`), and each step adds its own token to them.

With both directions a statement about texts that read as a value is one about the tokens of the
value.  The first of these is the bound on nesting: the containers open at once are counted along
the tokens, and their greatest number is the height of the value.

* `State.tokens_of_run`: the state of the machine holds all that it has read.
* `ofTokens?_eq_some_iff`: the tokens of a value are the only ones that read as the value.
* `height`, `nesting_tokens`: how deeply the containers of a value are nested.
* `height_le_of_read?`: no more than `maxNesting` containers deep is what has been read from text.
-/

namespace Rulebook.Json

variable {σ : Type}

/-! ## What a state has read -/

/-- The tokens of an array up to the place of its next item, from the items so far, last one
first. -/
def itemsRead : List (Json σ) → List (Token σ)
  | [] => [.openArray]
  | item :: before => itemsRead before ++ item.tokens ++ [.comma]

/-- The tokens of an object up to the place of its next key, from the members so far, last one
first. -/
def membersRead : List (σ × Json σ) → List (Token σ)
  | [] => [.openObject]
  | (key, value) :: before =>
    membersRead before ++ [.string key, .colon] ++ value.tokens ++ [.comma]

/-- The tokens of a container that is not complete. -/
def Pending.tokens : Pending σ → List (Token σ)
  | .array items => itemsRead items
  | .object members key => membersRead members ++ [.string key, .colon]

/-- The tokens of all containers that are not complete, the innermost one first in the list. -/
def pendingTokens : List (Pending σ) → List (Token σ)
  | [] => []
  | container :: outer => pendingTokens outer ++ container.tokens

/-- The tokens behind a stage that belong to no container below it. -/
def Stage.tokens : Stage σ → List (Token σ)
  | .value => []
  | .opened => [.openArray]
  | .firstKey => [.openObject]
  | .nextKey members => membersRead members
  | .colon members key => membersRead members ++ [.string key]
  | .complete v => v.tokens

/-- The tokens that lead to a state. -/
def State.tokens (s : State σ) : List (Token σ) := pendingTokens s.pending ++ s.stage.tokens

/-- An array is complete with its last item. -/
theorem itemsRead_append (item : Json σ) (before after : List (Json σ)) :
    itemsRead before ++ item.tokens ++ moreItemTokens after =
      (array (before.reverse ++ item :: after)).tokens := by
  induction before generalizing item after with
  | nil => rfl
  | cons last before ih =>
    have hlast := ih last (item :: after)
    simpa [itemsRead, moreItemTokens, List.append_assoc] using hlast

/-- An object is complete with its last member. -/
theorem membersRead_append (key : σ) (value : Json σ) (before after : List (σ × Json σ)) :
    membersRead before ++ [.string key, .colon] ++ value.tokens ++ moreMemberTokens after =
      (object (before.reverse ++ (key, value) :: after)).tokens := by
  induction before generalizing key value after with
  | nil => rfl
  | cons last before ih =>
    have hlast := ih last.1 last.2 ((key, value) :: after)
    simpa [membersRead, moreMemberTokens, List.append_assoc] using hlast

namespace State

variable {s s' : State σ} {t : Token σ}

theorem tokens_of_begin {pending : List (Pending σ)} (h : begin pending t = some s') :
    s'.tokens = pendingTokens pending ++ [t] := by
  cases t <;> cases h <;> rfl

/-- A step adds its token to those already read. -/
theorem tokens_of_step (h : s.step t = some s') : s'.tokens = s.tokens ++ [t] := by
  unfold step at h
  split at h
  case h_1 pending token =>
    rw [tokens_of_begin h]
    simp [State.tokens, Stage.tokens]
  case h_3 pending token hne =>
    rw [tokens_of_begin h]
    simp [State.tokens, Stage.tokens, pendingTokens, Pending.tokens, itemsRead]
  case h_9 v items pending =>
    cases h
    have harray := itemsRead_append v items []
    simp [State.tokens, Stage.tokens, pendingTokens, Pending.tokens, ← harray, moreItemTokens]
  case h_11 v members key pending =>
    cases h
    have hobject := membersRead_append key v members []
    simp [State.tokens, Stage.tokens, pendingTokens, Pending.tokens, ← hobject, moreMemberTokens]
  case h_12 => cases h
  all_goals
    cases h
    simp [State.tokens, Stage.tokens, pendingTokens, Pending.tokens, itemsRead, membersRead,
      Json.tokens, itemTokens, memberTokens]

/-- The state of the machine holds all that it has read. -/
theorem tokens_of_run {ts : List (Token σ)} (h : s.run ts = some s') :
    s'.tokens = s.tokens ++ ts := by
  induction ts generalizing s with
  | nil =>
    cases h
    simp
  | cons t ts ih =>
    rw [run_cons] at h
    obtain ⟨next, hstep, hrun⟩ := Option.bind_eq_some_iff.mp h
    rw [ih hrun, tokens_of_step hstep, List.append_assoc, List.singleton_append]

theorem tokens_of_result? {v : Json σ} (h : s.result? = some v) : s.tokens = v.tokens := by
  unfold result? at h
  split at h
  · cases h
    rfl
  · cases h

end State

/-- The tokens of a value are the only ones that read as the value. -/
theorem ofTokens?_eq_some_iff {ts : List (Token σ)} {v : Json σ} :
    ofTokens? ts = some v ↔ ts = v.tokens := by
  constructor
  · intro h
    obtain ⟨s, hrun, hresult⟩ := Option.bind_eq_some_iff.mp h
    rw [← State.tokens_of_result? hresult, State.tokens_of_run hrun]
    rfl
  · rintro rfl
    exact ofTokens?_tokens v

/-! ## Nesting -/

mutual

/-- How many containers, the value included, are nested in a value. -/
def height : Json σ → Nat
  | array items => itemsHeight items + 1
  | object members => membersHeight members + 1
  | _ => 0

/-- The greatest height of the items of an array. -/
def itemsHeight : List (Json σ) → Nat
  | [] => 0
  | item :: rest => max item.height (itemsHeight rest)

/-- The greatest height of the values in an object. -/
def membersHeight : List (σ × Json σ) → Nat
  | [] => 0
  | (_, value) :: rest => max value.height (membersHeight rest)

end

@[simp] theorem nest_comma (counts : Nat × Nat) : nest counts (.comma : Token σ) = counts := rfl

@[simp] theorem nest_colon (counts : Nat × Nat) : nest counts (.colon : Token σ) = counts := rfl

@[simp] theorem nest_string (counts : Nat × Nat) (s : σ) : nest counts (.string s) = counts := rfl

mutual

/-- After a value as many containers are open as before, and inside it as many more as it is
high. -/
theorem foldl_nest_tokens {now most : Nat} (h : now ≤ most) : ∀ v : Json σ,
    v.tokens.foldl nest (now, most) = (now, max most (now + v.height))
  | .null | .bool _ | .number _ | .string _ => by
    simp [tokens, nest, height, h]
  | .array items => by
    rw [tokens, List.foldl_cons, nest, foldl_nest_itemTokens (Nat.le_max_right ..), height,
      Prod.mk.injEq]
    omega
  | .object members => by
    rw [tokens, List.foldl_cons, nest, foldl_nest_memberTokens (Nat.le_max_right ..), height,
      Prod.mk.injEq]
    omega

/-- The items of an array end with the array. -/
theorem foldl_nest_itemTokens {now most : Nat} (h : now + 1 ≤ most) : ∀ items : List (Json σ),
    (itemTokens items).foldl nest (now + 1, most) = (now, max most (now + 1 + itemsHeight items))
  | [] => by simp [itemTokens, nest, itemsHeight, h]
  | item :: rest => by
    rw [itemTokens, List.foldl_append, foldl_nest_tokens h item,
      foldl_nest_moreItemTokens (Nat.le_trans h (Nat.le_max_left ..)) rest, itemsHeight,
      Prod.mk.injEq]
    omega

theorem foldl_nest_moreItemTokens {now most : Nat} (h : now + 1 ≤ most) :
    ∀ items : List (Json σ), (moreItemTokens items).foldl nest (now + 1, most) =
      (now, max most (now + 1 + itemsHeight items))
  | [] => by simp [moreItemTokens, nest, itemsHeight, h]
  | item :: rest => by
    rw [moreItemTokens, List.foldl_cons, nest_comma, List.foldl_append, foldl_nest_tokens h item,
      foldl_nest_moreItemTokens (Nat.le_trans h (Nat.le_max_left ..)) rest, itemsHeight,
      Prod.mk.injEq]
    omega

/-- The members of an object end with the object. -/
theorem foldl_nest_memberTokens {now most : Nat} (h : now + 1 ≤ most) :
    ∀ members : List (σ × Json σ), (memberTokens members).foldl nest (now + 1, most) =
      (now, max most (now + 1 + membersHeight members))
  | [] => by simp [memberTokens, nest, membersHeight, h]
  | (_, value) :: rest => by
    rw [memberTokens, List.foldl_cons, nest_string, List.foldl_cons, nest_colon, List.foldl_append,
      foldl_nest_tokens h value,
      foldl_nest_moreMemberTokens (Nat.le_trans h (Nat.le_max_left ..)) rest, membersHeight,
      Prod.mk.injEq]
    omega

theorem foldl_nest_moreMemberTokens {now most : Nat} (h : now + 1 ≤ most) :
    ∀ members : List (σ × Json σ), (moreMemberTokens members).foldl nest (now + 1, most) =
      (now, max most (now + 1 + membersHeight members))
  | [] => by simp [moreMemberTokens, nest, membersHeight, h]
  | (_, value) :: rest => by
    rw [moreMemberTokens, List.foldl_cons, nest_comma, List.foldl_cons, nest_string,
      List.foldl_cons, nest_colon, List.foldl_append, foldl_nest_tokens h value,
      foldl_nest_moreMemberTokens (Nat.le_trans h (Nat.le_max_left ..)) rest, membersHeight,
      Prod.mk.injEq]
    omega

end

/-- The most containers that are open at once while a value is read are its height. -/
theorem nesting_tokens (v : Json σ) : nesting v.tokens = v.height := by
  rw [nesting, foldl_nest_tokens (Nat.le_refl 0)]
  omega

/-- No more than `maxNesting` containers are nested in what has been read from text. -/
theorem height_le_of_read? {cs : List Char} {v : Json String} (h : read? cs = some v) :
    v.height ≤ maxNesting := by
  obtain ⟨written, -, h⟩ := Option.bind_eq_some_iff.mp h
  obtain ⟨ts, -, h⟩ := Option.bind_eq_some_iff.mp h
  split at h
  · next hnesting =>
    rwa [ofTokens?_eq_some_iff.mp h, nesting_tokens] at hnesting
  · cases h

end Rulebook.Json
