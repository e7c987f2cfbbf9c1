import Mathlib.Data.Finset.Card
import Rulebook.Proofs.Cache

/-!
# Histories of a cache

Which rules a cache holds depends on what it has evicted.  How many it holds does not: as many as
were stored since it was new or cleared, or as many as fit.  The reason is that nothing is evicted
before the cache is full, so up to that point it holds every rule that was stored, and from then on
it stays full.  `Tracks` is this as an invariant of a cache and the set of rules stored in it.

A request can do three things to a cache: empty it, store one rule, or leave it alone, and
`handle_cases` says which request does what.  The invariant and the rest of what is shown here about
single requests come down to `Cache.insert`.

* `size_insert_of_contains`, `size_insert_of_not_contains`: the size after storing a rule.
* `Tracks.handle`, `Tracks.run`: the size along histories.
* `run_new_laws`: what a new cache holds after a history, and what one more request does to it.
-/

namespace Rulebook.Cache

variable {c : Cache} {stored : Finset String} {rule : String} {tree : Tree}

/-! ## Sizes -/

/-- The rules that a cache holds. -/
def rules (c : Cache) : Finset String := c.entries.keys.toFinset

theorem mem_rules : rule ∈ c.rules ↔ c.contains rule = true := by
  rw [rules, List.mem_toFinset, Std.ExtTreeMap.mem_keys]
  exact Iff.rfl

theorem card_rules (c : Cache) : c.rules.card = c.size := by
  rw [rules, List.toFinset_card_of_nodup Std.ExtTreeMap.nodup_keys, Std.ExtTreeMap.length_keys]
  rfl

/-- In a cache that is not empty every pick has a victim. -/
theorem exists_victim?_of_pos (hpos : 0 < c.size) (pick : Nat) :
    ∃ victim, c.victim? pick = some victim ∧ c.contains victim = true := by
  have hpick : pick % c.size < c.entries.keys.length := by
    rw [Std.ExtTreeMap.length_keys]
    exact Nat.mod_lt pick hpos
  refine ⟨c.entries.keys[pick % c.size], List.getElem?_eq_getElem hpick, ?_⟩
  exact Std.ExtTreeMap.mem_keys.mp (List.getElem_mem hpick)

/-- Exactly one rule goes. -/
theorem size_evict (hpos : 0 < c.size) (pick : Nat) : (c.evict pick).size = c.size - 1 := by
  obtain ⟨victim, hvictim, hcontains⟩ := exists_victim?_of_pos hpos pick
  have hmem : c.entries.contains victim = true := hcontains
  rw [evict, hvictim]
  show (c.entries.erase victim).size = c.size - 1
  rw [Std.ExtTreeMap.size_erase, if_pos hmem]
  rfl

/-- Eviction brings no rule in. -/
theorem not_contains_evict (h : c.contains rule = false) (pick : Nat) :
    (c.evict pick).contains rule = false := by
  rw [contains_iff_get?, Option.isSome_eq_false_iff, Option.isNone_iff_eq_none] at h ⊢
  rw [get?_evict, h, ite_self]

/-- A rule that is held takes no further room. -/
theorem size_insert_of_contains (h : c.contains rule = true) (pick : Nat) (tree : Tree) :
    (c.insert pick rule tree).size = c.size := by
  have hmem : c.entries.contains rule = true := h
  have hstays : c.mustEvict rule = false := by rw [mustEvict, h, Bool.not_true, Bool.and_false]
  rw [insert, hstays]
  show (c.entries.insert rule tree).size = c.size
  rw [Std.ExtTreeMap.size_insert, if_pos hmem]
  rfl

/-- A rule that is not held takes room, up to the capacity. -/
theorem size_insert_of_not_contains (h : c.contains rule = false) (hpos : 0 < c.capacity)
    (hle : c.size ≤ c.capacity) (pick : Nat) (tree : Tree) :
    (c.insert pick rule tree).size = min c.capacity (c.size + 1) := by
  have hsize : ∀ kept : Cache, kept.contains rule = false →
      (kept.entries.insert rule tree).size = kept.size + 1 := by
    intro kept hkept
    have hnotMem : ¬ kept.entries.contains rule = true := Bool.eq_false_iff.mp hkept
    rw [Std.ExtTreeMap.size_insert, if_neg hnotMem]
    rfl
  by_cases hfull : c.capacity ≤ c.size
  · have hevict : c.mustEvict rule = true := by simp [mustEvict, hfull, h]
    have hevicted := size_evict (Nat.lt_of_lt_of_le hpos hfull) pick
    rw [insert, if_pos hevict]
    show ((c.evict pick).entries.insert rule tree).size = _
    rw [hsize _ (not_contains_evict h pick)]
    omega
  · have hroom : c.mustEvict rule = false := by simp [mustEvict, hfull]
    rw [insert, hroom]
    show (c.entries.insert rule tree).size = _
    rw [hsize c h]
    omega

/-! ## The rules stored -/

/-- The rule that a request has stored, as the answer to it tells.  A rule that the cache held
already is not stored again when it is looked up. -/
def Request.stored? : Request → Reply → Option String
  | .insert _ rule, _ => some rule
  | .getOrParse _ rule, .parsed true (.ok _) => some rule
  | _, _ => none

/-- The rules stored since a cache was new or cleared, after one more request and its answer. -/
def Request.track (request : Request) (reply : Reply) (stored : Finset String) : Finset String :=
  match request with
  | .clear => ∅
  | request =>
    match request.stored? reply with
    | some rule => Insert.insert rule stored
    | none => stored

/-- The rules stored since a cache was new or cleared, after a history. -/
def storedBy (c : Cache) (stored : Finset String) : List (Nat × Request) → Finset String
  | [] => stored
  | (pick, request) :: rest =>
    let (reply, next) := c.handle pick request
    next.storedBy (request.track reply stored) rest

/-! ## One request -/

/-- The parse function is called for a rule that is not held, and only for such a rule. -/
theorem handle_getOrParse (c : Cache) (pick : Nat) (parse : String → Except RuleError Tree)
    (rule : String) :
    c.handle pick (.getOrParse parse rule) =
      (.parsed (!c.contains rule) (c.getOrParse pick parse rule).1,
        (c.getOrParse pick parse rule).2) := by
  rw [contains_iff_get?]
  rcases hget : c.get? rule with _ | tree
  · rw [getOrParse_of_none hget]
    simp only [handle, getOrParseM, hget, noting]
    cases parse rule with
    | ok tree => rfl
    | error e => rfl
  · rw [getOrParse_of_some hget]
    simp only [handle, getOrParseM, hget]
    rfl

/-- What a request does: it empties the cache, stores a rule, or changes nothing. -/
theorem handle_cases (c : Cache) (pick : Nat) (request : Request) :
    (request = .clear ∧ (c.handle pick request).2 = c.clear) ∨
    (∃ rule tree, request.stored? (c.handle pick request).1 = some rule ∧
      (c.handle pick request).2 = c.insert pick rule tree) ∨
    request ≠ .clear ∧ request.stored? (c.handle pick request).1 = none ∧
      (c.handle pick request).2 = c := by
  cases request with
  | get rule => exact Or.inr (Or.inr ⟨by simp, rfl, rfl⟩)
  | contains rule => exact Or.inr (Or.inr ⟨by simp, rfl, rfl⟩)
  | insert tree rule => exact Or.inr (Or.inl ⟨rule, tree, rfl, rfl⟩)
  | getOrParse parse rule =>
    rw [handle_getOrParse, contains_iff_get?]
    rcases hget : c.get? rule with _ | tree
    · rw [getOrParse_of_none hget]
      rcases hparse : parse rule with e | tree
      · exact Or.inr (Or.inr ⟨by simp, rfl, rfl⟩)
      · exact Or.inr (Or.inl ⟨rule, tree, rfl, rfl⟩)
    · rw [getOrParse_of_some hget]
      exact Or.inr (Or.inr ⟨by simp, rfl, rfl⟩)
  | clear => exact Or.inl ⟨rfl, rfl⟩

theorem track_of_stored {request : Request} {reply : Reply}
    (h : request.stored? reply = some rule) :
    request.track reply stored = Insert.insert rule stored := by
  cases request with
  | clear => cases h
  | get | contains => cases h
  | insert | getOrParse => simp only [Request.track, h]

theorem track_of_not_stored {request : Request} {reply : Reply} (hclear : request ≠ .clear)
    (h : request.stored? reply = none) : request.track reply stored = stored := by
  cases request with
  | clear => exact absurd rfl hclear
  | get | contains | insert | getOrParse => simp only [Request.track, h]

/-! ## The size along a history -/

/-- The cache holds rules among those stored, and as many of them as fit. -/
structure Tracks (c : Cache) (stored : Finset String) : Prop where
  capacity_pos : 0 < c.capacity
  rules_subset : c.rules ⊆ stored
  size_eq : c.size = min c.capacity stored.card

theorem Tracks.size_le (h : c.Tracks stored) : c.size ≤ c.capacity := by
  rw [h.size_eq]
  exact Nat.min_le_left _ _

theorem tracks_of_empty (hpos : 0 < c.capacity) (hentries : c.entries = ∅) : c.Tracks ∅ where
  capacity_pos := hpos
  rules_subset rule hrule := by
    rw [mem_rules, contains, hentries, Std.ExtTreeMap.contains_empty] at hrule
    cases hrule
  size_eq := by
    rw [size, hentries, Std.ExtTreeMap.size_empty, Finset.card_empty, Nat.min_zero]

/-- A cache that is not full holds all that was stored. -/
theorem Tracks.rules_eq (h : c.Tracks stored) (hroom : c.size < c.capacity) : c.rules = stored := by
  refine Finset.eq_of_subset_of_card_le h.rules_subset ?_
  have hsize := h.size_eq
  rw [card_rules]
  omega

/-- Storing a rule keeps the count, whatever is evicted for it. -/
theorem Tracks.insert (h : c.Tracks stored) (pick : Nat) (rule : String) (tree : Tree) :
    (c.insert pick rule tree).Tracks (Insert.insert rule stored) where
  capacity_pos := by
    rw [capacity_insert]
    exact h.capacity_pos
  rules_subset other hother := by
    by_cases heq : rule = other
    · exact heq ▸ Finset.mem_insert_self rule stored
    · rw [mem_rules, contains_iff_get?, get?_insert_of_ne c pick tree heq] at hother
      split at hother
      · cases hother
      · exact Finset.mem_insert_of_mem
          (h.rules_subset (mem_rules.mpr ((contains_iff_get? c other).trans hother)))
  size_eq := by
    rw [capacity_insert]
    by_cases hheld : c.contains rule = true
    · have hmem : rule ∈ stored := h.rules_subset (mem_rules.mpr hheld)
      rw [size_insert_of_contains hheld, Finset.insert_eq_of_mem hmem]
      exact h.size_eq
    · have hnew := Bool.eq_false_iff.mpr hheld
      have hsize := h.size_eq
      rw [size_insert_of_not_contains hnew h.capacity_pos h.size_le]
      by_cases hroom : c.size < c.capacity
      · -- nothing has been evicted yet, so a rule that is not held was never stored
        have hnotMem : rule ∉ stored := by
          rw [← h.rules_eq hroom, mem_rules]
          exact hheld
        rw [Finset.card_insert_of_notMem hnotMem]
        omega
      · -- the rule may have been stored before and evicted, but the cache is full either way
        have hcard := Finset.card_le_card (Finset.subset_insert rule stored)
        omega

/-- Every request keeps the count. -/
theorem Tracks.handle (h : c.Tracks stored) (pick : Nat) (request : Request) :
    (c.handle pick request).2.Tracks (request.track (c.handle pick request).1 stored) := by
  rcases handle_cases c pick request with
    ⟨rfl, hafter⟩ | ⟨rule, tree, hstored, hafter⟩ | ⟨hclear, hstored, hafter⟩
  · rw [hafter]
    exact tracks_of_empty h.capacity_pos rfl
  · rw [hafter, track_of_stored hstored]
    exact h.insert pick rule tree
  · rw [hafter, track_of_not_stored hclear hstored]
    exact h

theorem Tracks.run (h : c.Tracks stored) (history : List (Nat × Request)) :
    (c.run history).2.Tracks (c.storedBy stored history) := by
  induction history generalizing c stored with
  | nil => exact h
  | cons entry history ih =>
    obtain ⟨pick, request⟩ := entry
    exact ih (h.handle pick request)

theorem capacity_handle (c : Cache) (pick : Nat) (request : Request) :
    (c.handle pick request).2.capacity = c.capacity := by
  rcases handle_cases c pick request with
    ⟨-, hafter⟩ | ⟨rule, tree, -, hafter⟩ | ⟨-, -, hafter⟩
  · rw [hafter]
    rfl
  · rw [hafter, capacity_insert]
  · rw [hafter]

theorem capacity_run (c : Cache) (history : List (Nat × Request)) :
    (c.run history).2.capacity = c.capacity := by
  induction history generalizing c with
  | nil => rfl
  | cons entry history ih =>
    obtain ⟨pick, request⟩ := entry
    exact (ih _).trans (capacity_handle c pick request)

theorem tracks_run_new (capacity : Nat) (history : List (Nat × Request)) :
    ((new capacity).run history).2.Tracks ((new capacity).storedBy ∅ history) := by
  have hnew : (new capacity).Tracks ∅ := tracks_of_empty (Nat.le_max_right capacity 1) rfl
  exact hnew.run history

/-! ## What a store leaves -/

/-- At most one other rule has gone where a rule was stored, and that only if the cache was full and
did not hold the rule.  All others have kept their trees. -/
def LosesAtMostOne (c after : Cache) (rule : String) : Prop :=
  ∃ evicted : Option String,
    (evicted ≠ none → c.capacity ≤ c.size ∧ c.contains rule = false) ∧
    ∀ other, rule ≠ other →
      after.get? other = if evicted = some other then none else c.get? other

theorem losesAtMostOne_insert (c : Cache) (pick : Nat) (rule : String) (tree : Tree) :
    c.LosesAtMostOne (c.insert pick rule tree) rule := by
  by_cases hevict : c.mustEvict rule = true
  · have hfull : c.capacity ≤ c.size ∧ c.contains rule = false := by
      simpa [mustEvict] using hevict
    refine ⟨c.victim? pick, fun _ => hfull, fun other hne => ?_⟩
    rw [get?_insert_of_ne c pick tree hne]
    simp only [hevict, true_and]
  · refine ⟨none, fun hnone => absurd rfl hnone, fun other hne => ?_⟩
    rw [get?_insert_of_ne c pick tree hne, if_neg fun h => hevict h.1, if_neg nofun]

/-- Whatever tree a lookup gives, it is held afterwards. -/
theorem get?_getOrParse {parse : String → Except RuleError Tree} {pick : Nat}
    (h : (c.getOrParse pick parse rule).1 = .ok tree) :
    (c.getOrParse pick parse rule).2.get? rule = some tree := by
  rcases hget : c.get? rule with _ | held
  · rw [getOrParse_of_none hget] at h ⊢
    rcases hparse : parse rule with e | parsed
    · rw [hparse] at h
      cases h
    · rw [hparse] at h
      cases h
      exact get?_insert_self c pick rule tree
  · rw [getOrParse_of_some hget] at h ⊢
    cases h
    exact hget

/-- Nothing is stored, and so nothing evicted, for a rule that does not parse. -/
theorem getOrParse_of_error {parse : String → Except RuleError Tree} {e : RuleError}
    (h : parse rule = .error e) (pick : Nat) : (c.getOrParse pick parse rule).2 = c := by
  rcases hget : c.get? rule with _ | held
  · rw [getOrParse_of_none hget, h]
  · rw [getOrParse_of_some hget]

/-- What holds after every history of a new cache, whatever is evicted in it; each entry is the
victim of some pick (`exists_victim?_eq`).  The cache holds as many rules as were stored since it
was new or cleared, or as many as fit.  After one more request that stores a rule, the rule has the
tree that was stored, and at most one other rule has gone.  Looking a rule up calls the parse
function if and only if the rule is not held, gives the tree that is held or what the parse function
gives, and changes nothing if the parse function fails. -/
theorem run_new_laws (capacity : Nat) (history : List (Nat × Request)) (pick : Nat) :
    let c := ((new capacity).run history).2
    c.capacity = max capacity 1 ∧
      c.size = min (max capacity 1) ((new capacity).storedBy ∅ history).card ∧
      (∀ tree rule, (c.handle pick (.insert tree rule)).2.get? rule = some tree) ∧
      (∀ request rule, request.stored? (c.handle pick request).1 = some rule →
        c.LosesAtMostOne (c.handle pick request).2 rule) ∧
      ∀ parse rule, ∃ result,
        (c.handle pick (.getOrParse parse rule)).1 = .parsed (!c.contains rule) result ∧
        (∀ tree, c.get? rule = some tree → result = .ok tree) ∧
        (c.get? rule = none → result = parse rule) ∧
        (∀ tree, result = .ok tree →
          (c.handle pick (.getOrParse parse rule)).2.get? rule = some tree) ∧
        ∀ e, parse rule = .error e → (c.handle pick (.getOrParse parse rule)).2 = c := by
  intro c
  have hcapacity : c.capacity = max capacity 1 := capacity_run (new capacity) history
  refine ⟨hcapacity, ?_, ?_, ?_, ?_⟩
  · rw [← hcapacity]
    exact (tracks_run_new capacity history).size_eq
  · exact fun tree rule => get?_insert_self c pick rule tree
  · intro request rule hstored
    rcases handle_cases c pick request with
      ⟨rfl, -⟩ | ⟨stored, tree, hstored', hafter⟩ | ⟨-, hnone, -⟩
    · cases hstored
    · have heq : stored = rule := Option.some_inj.mp (hstored'.symm.trans hstored)
      rw [hafter, heq]
      exact losesAtMostOne_insert c pick rule tree
    · rw [hnone] at hstored
      cases hstored
  · intro parse rule
    rw [handle_getOrParse]
    refine ⟨_, rfl, fun tree hget => ?_, fun hget => ?_, fun tree => get?_getOrParse,
      fun e he => ?_⟩
    · rw [getOrParse_of_some hget]
    · exact fst_getOrParse_of_none hget pick parse
    · exact getOrParse_of_error he pick

/-- Two rules stored in a cache for one rule: the second takes the place of the first. -/
theorem run_new_laws_two_in_one :
    let history : List (Nat × Request) :=
      [(0, .insert (.leaf ⟨"a", .equal, .text "x", "a='x'"⟩) "a='x'"),
        (7, .insert (.leaf ⟨"b", .equal, .text "y", "b='y'"⟩) "b='y'")]
    ((new 1).storedBy ∅ history).card = 2 ∧ ((new 1).run history).2.size = 1 := by
  intro history
  have hcard : ((new 1).storedBy ∅ history).card = 2 := by decide +kernel
  refine ⟨hcard, ?_⟩
  rw [(run_new_laws 1 history 0).2.1, hcard]
  decide

end Rulebook.Cache
