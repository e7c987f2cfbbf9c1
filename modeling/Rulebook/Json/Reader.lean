import Rulebook.Json.Lexer
import Rulebook.Json.Number

/-!
# JSON values from tokens

The grammar of JSON over tokens is read by a machine with a stack: one token, one step.  What is
open is on the stack, so values may be nested to any depth, and the tokens of a value are one long
step that completes the value, whatever is on the stack (`State.run_tokens`).

Two readers are built on it.  `readWritten?` asks for the grammar alone and leaves strings and
numbers as written.  `read?` asks for more: every string has a text, every number is in the range
of double precision, and no more than `maxNesting` arrays and objects are open at once.
-/

namespace Rulebook.Json

variable {σ : Type}

/-! ## The machine -/

/-- A container that is not complete; its parts are held last one first. -/
inductive Pending (σ : Type) where
  | array (items : List (Json σ))
  | object (members : List (σ × Json σ)) (key : σ)

/-- What the machine has just read and, with that, what it takes next. -/
inductive Stage (σ : Type) where
  /-- A value comes next. -/
  | value
  /-- An array has just been opened: its first item or its end comes next. -/
  | opened
  /-- An object has just been opened: its first key or its end comes next. -/
  | firstKey
  /-- The next key of an object with these members comes next. -/
  | nextKey (members : List (σ × Json σ))
  /-- The colon after a key comes next. -/
  | colon (members : List (σ × Json σ)) (key : σ)
  /-- A value is complete: a comma or the end of its container comes next. -/
  | complete (v : Json σ)

/-- The machine between two tokens. -/
structure State (σ : Type) where
  stage : Stage σ
  pending : List (Pending σ)

namespace State

/-- Nothing has been read. -/
def start : State σ := ⟨.value, []⟩

/-- The step where a value is to begin. -/
def begin (pending : List (Pending σ)) : Token σ → Option (State σ)
  | .openArray => some ⟨.opened, pending⟩
  | .openObject => some ⟨.firstKey, pending⟩
  | .null => some ⟨.complete .null, pending⟩
  | .bool b => some ⟨.complete (.bool b), pending⟩
  | .number n => some ⟨.complete (.number n), pending⟩
  | .string s => some ⟨.complete (.string s), pending⟩
  | _ => none

/-- One step; none where the grammar does not allow the token. -/
def step : State σ → Token σ → Option (State σ)
  | ⟨.value, pending⟩, token => begin pending token
  | ⟨.opened, pending⟩, .closeArray => some ⟨.complete (.array []), pending⟩
  | ⟨.opened, pending⟩, token => begin (.array [] :: pending) token
  | ⟨.firstKey, pending⟩, .closeObject => some ⟨.complete (.object []), pending⟩
  | ⟨.firstKey, pending⟩, .string key => some ⟨.colon [] key, pending⟩
  | ⟨.nextKey members, pending⟩, .string key => some ⟨.colon members key, pending⟩
  | ⟨.colon members key, pending⟩, .colon => some ⟨.value, .object members key :: pending⟩
  | ⟨.complete v, .array items :: pending⟩, .comma =>
    some ⟨.value, .array (v :: items) :: pending⟩
  | ⟨.complete v, .array items :: pending⟩, .closeArray =>
    some ⟨.complete (.array (v :: items).reverse), pending⟩
  | ⟨.complete v, .object members key :: pending⟩, .comma =>
    some ⟨.nextKey ((key, v) :: members), pending⟩
  | ⟨.complete v, .object members key :: pending⟩, .closeObject =>
    some ⟨.complete (.object ((key, v) :: members).reverse), pending⟩
  | _, _ => none

/-- All steps. -/
def run (s : State σ) (tokens : List (Token σ)) : Option (State σ) := tokens.foldlM step s

/-- The value read, if it is complete and nothing else is open. -/
def result? : State σ → Option (Json σ)
  | ⟨.complete v, []⟩ => some v
  | _ => none

end State

/-- The value that tokens are the writing of. -/
def ofTokens? (tokens : List (Token σ)) : Option (Json σ) := do
  let s ← State.start.run tokens
  s.result?

/-! ## Reading back what was written -/

namespace State

theorem run_cons (s : State σ) (t : Token σ) (ts : List (Token σ)) :
    s.run (t :: ts) = (s.step t).bind fun next => next.run ts := rfl

theorem run_append (s : State σ) (ts us : List (Token σ)) :
    s.run (ts ++ us) = (s.run ts).bind fun next => next.run us := List.foldlM_append

/-- What is pending once a value has begun, where one may begin. -/
def pendingFor? : State σ → Option (List (Pending σ))
  | ⟨.value, pending⟩ => some pending
  | ⟨.opened, pending⟩ => some (.array [] :: pending)
  | _ => none

theorem step_eq_begin {s : State σ} {pending : List (Pending σ)}
    (h : s.pendingFor? = some pending) (t : Token σ) (ht : t ≠ .closeArray) :
    s.step t = begin pending t := by
  obtain ⟨stage, waiting⟩ := s
  cases stage <;> cases h
  · rfl
  · cases t with
    | closeArray => exact absurd rfl ht
    | _ => rfl

mutual

/-- Where a value may begin, the tokens of a value complete it. -/
theorem run_tokens {s : State σ} {pending : List (Pending σ)}
    (h : s.pendingFor? = some pending) :
    ∀ v : Json σ, s.run v.tokens = some ⟨.complete v, pending⟩
  | .null => by rw [tokens, run_cons, step_eq_begin h .null nofun]; rfl
  | .bool b => by rw [tokens, run_cons, step_eq_begin h (.bool b) nofun]; rfl
  | .number n => by rw [tokens, run_cons, step_eq_begin h (.number n) nofun]; rfl
  | .string s => by rw [tokens, run_cons, step_eq_begin h (.string s) nofun]; rfl
  | .array items => by
    rw [tokens, run_cons, step_eq_begin h .openArray nofun]
    exact run_itemTokens pending items
  | .object members => by
    rw [tokens, run_cons, step_eq_begin h .openObject nofun]
    exact run_memberTokens pending members

theorem run_itemTokens (pending : List (Pending σ)) :
    ∀ items : List (Json σ),
      (⟨.opened, pending⟩ : State σ).run (itemTokens items) =
        some ⟨.complete (.array items), pending⟩
  | [] => rfl
  | item :: rest => by
    rw [itemTokens, run_append, run_tokens (s := ⟨.opened, pending⟩) rfl item]
    exact run_moreItemTokens pending [] item rest

theorem run_moreItemTokens (pending : List (Pending σ)) (before : List (Json σ)) :
    ∀ (item : Json σ) (rest : List (Json σ)),
      (⟨.complete item, .array before :: pending⟩ : State σ).run (moreItemTokens rest) =
        some ⟨.complete (.array (before.reverse ++ item :: rest)), pending⟩
  | item, [] => by
    rw [moreItemTokens, run_cons]
    simp [step, run]
  | item, next :: rest => by
    rw [moreItemTokens, run_cons]
    simp only [step, Option.bind_some]
    rw [run_append, run_tokens (s := ⟨.value, _⟩) rfl next, Option.bind_some, run_moreItemTokens]
    simp

theorem run_memberTokens (pending : List (Pending σ)) :
    ∀ members : List (σ × Json σ),
      (⟨.firstKey, pending⟩ : State σ).run (memberTokens members) =
        some ⟨.complete (.object members), pending⟩
  | [] => rfl
  | (key, v) :: rest => by
    rw [memberTokens, run_cons, step, Option.bind_some, run_cons, step, Option.bind_some,
      run_append, run_tokens (s := ⟨.value, _⟩) rfl v]
    exact run_moreMemberTokens pending [] key v rest

theorem run_moreMemberTokens (pending : List (Pending σ)) (before : List (σ × Json σ)) (key : σ) :
    ∀ (v : Json σ) (rest : List (σ × Json σ)),
      (⟨.complete v, .object before key :: pending⟩ : State σ).run (moreMemberTokens rest) =
        some ⟨.complete (.object (before.reverse ++ (key, v) :: rest)), pending⟩
  | v, [] => by
    rw [moreMemberTokens, run_cons]
    simp [step, run]
  | v, (next, w) :: rest => by
    rw [moreMemberTokens, run_cons]
    simp only [step, Option.bind_some]
    rw [run_cons, step, Option.bind_some, run_cons, step, Option.bind_some, run_append,
      run_tokens (s := ⟨.value, _⟩) rfl w, Option.bind_some, run_moreMemberTokens]
    simp

end

end State

/-- Reading the tokens of a value gives the value. -/
@[simp] theorem ofTokens?_tokens (v : Json σ) : ofTokens? v.tokens = some v := by
  simp [ofTokens?, State.run_tokens (s := State.start) rfl v, State.result?]

/-! ## Nesting -/

/-- The containers open after a token, and the most that have been open so far. -/
def nest : Nat × Nat → Token σ → Nat × Nat
  | (now, most), .openArray => (now + 1, max most (now + 1))
  | (now, most), .openObject => (now + 1, max most (now + 1))
  | (now, most), .closeArray => (now - 1, most)
  | (now, most), .closeObject => (now - 1, most)
  | counts, _ => counts

/-- The most containers that are open at once. -/
def nesting (tokens : List (Token σ)) : Nat := (tokens.foldl nest (0, 0)).2

/-- How many containers may be open at once. -/
def maxNesting : Nat := 127

/-! ## Readers -/

/-- The value that a text is the writing of, by the grammar alone. -/
def readWritten? (cs : List Char) : Option (Json (Option String)) := do
  let tokens ← lex? cs
  ofTokens? tokens

/-- A token whose string has a text and whose number is in range. -/
def Token.strict? : Token (Option String) → Option (Token String)
  | .string s => s.map .string
  | .number n => if (numberOf n).isFinite then some (.number n) else none
  | .openArray => some .openArray
  | .closeArray => some .closeArray
  | .openObject => some .openObject
  | .closeObject => some .closeObject
  | .comma => some .comma
  | .colon => some .colon
  | .null => some .null
  | .bool b => some (.bool b)

/-- The value that a text is the writing of, with texts for its strings and numbers in range. -/
def read? (cs : List Char) : Option (Json String) := do
  let written ← lex? cs
  let tokens ← written.mapM Token.strict?
  if nesting tokens ≤ maxNesting then ofTokens? tokens else none

end Rulebook.Json
