import Rulebook.Cache

/-!
# Caches that agree with a parse function

A cache is used together with one parse function, and then each of its entries is what this function
gives for its rule.  `Cache.Agrees` says so.  All that changes a cache keeps it, and it does not
matter which entries are evicted, since an entry that goes can only be missed.  As long as it holds,
a rule asked of the cache is the rule parsed.

* `agrees_new`, `agrees_clear`, `Agrees.insert`, `Agrees.getOrParse`: what keeps a cache in
  agreement.
* `Agrees.fst_getOrParse`: a cache in agreement answers as the parse function does.
* `exists_victim?_eq`: each entry is the victim of some pick, so that what holds for all picks holds
  for all choices of what is evicted.
-/

namespace Rulebook.Cache

variable {parse : String → Except RuleError Tree} {c : Cache} {rule : String} {tree : Tree}

/-- Every tree in the cache is what the function gives for its rule. -/
def Agrees (parse : String → Except RuleError Tree) (c : Cache) : Prop :=
  ∀ rule tree, c.get? rule = some tree → parse rule = .ok tree

theorem agrees_of_get?_eq_none (h : ∀ rule, c.get? rule = none) : Agrees parse c := by
  intro rule tree hget
  rw [h rule] at hget
  cases hget

theorem agrees_new (parse : String → Except RuleError Tree) (capacity : Nat) :
    Agrees parse (new capacity) :=
  agrees_of_get?_eq_none fun rule => by simp [new, get?]

theorem agrees_clear (parse : String → Except RuleError Tree) (c : Cache) :
    Agrees parse c.clear :=
  agrees_of_get?_eq_none fun rule => by simp [clear, get?]

/-- Storing what a rule parses to keeps the cache in agreement, whatever is evicted. -/
theorem Agrees.insert (h : Agrees parse c) (hparse : parse rule = .ok tree) (pick : Nat) :
    Agrees parse (c.insert pick rule tree) := by
  intro other found hget
  by_cases heq : rule = other
  · subst heq
    rw [get?_insert_self] at hget
    cases hget
    exact hparse
  · rw [get?_insert_of_ne c pick tree heq] at hget
    split at hget
    · cases hget
    · exact h other found hget

/-- A cache in agreement answers as the parse function does, hit or miss. -/
theorem Agrees.fst_getOrParse (h : Agrees parse c) (pick : Nat) (rule : String) :
    (c.getOrParse pick parse rule).1 = parse rule := by
  rcases hget : c.get? rule with _ | found
  · exact fst_getOrParse_of_none hget pick parse
  · rw [getOrParse_of_some hget]
    exact (h rule found hget).symm

theorem Agrees.getOrParse (h : Agrees parse c) (pick : Nat) (rule : String) :
    Agrees parse (c.getOrParse pick parse rule).2 := by
  rcases hget : c.get? rule with _ | found
  · rw [getOrParse_of_none hget]
    split
    · next tree hparse => exact h.insert hparse pick
    · exact h
  · rw [getOrParse_of_some hget]
    exact h

/-- Each entry is the victim of some pick. -/
theorem exists_victim?_eq (h : c.contains rule = true) : ∃ pick, c.victim? pick = some rule := by
  have hmem : rule ∈ c.entries.keys := Std.ExtTreeMap.mem_keys.mpr h
  obtain ⟨pick, hpick, hrule⟩ := List.getElem_of_mem hmem
  have hsize : pick < c.size := by rwa [Std.ExtTreeMap.length_keys] at hpick
  refine ⟨pick, ?_⟩
  rw [victim?, Nat.mod_eq_of_lt hsize, List.getElem?_eq_getElem hpick, hrule]

end Rulebook.Cache
