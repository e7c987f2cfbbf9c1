import Rulebook.Engine
import Rulebook.Proofs.Cache

/-!
# The cache of an engine cannot be seen

An engine with a cache and an engine without one are asked the same things.  `Engine.withoutCache`
takes the cache away, and the point is that it commutes with every request: an engine whose cache
agrees with the parser answers as the engine without the cache does, and what becomes of the two is
again one engine with and without its cache.  Agreement is kept by every request, so this holds
along whole histories, whatever the cache evicts.

* `build_eq_parseRule`: building a rule is parsing it under the limits.
* `handle_withoutCache`, `CacheAgrees.handle`: one request.
* `run_withoutCache`: a history.
* `run_new_cacheRules`: the two engines that differ in whether they cache.
-/

namespace Rulebook.Engine

variable {e : Engine}

/-- The engine without its cache. -/
def withoutCache (e : Engine) : Engine where
  config := { e.config with cacheRules := false }
  rules := e.rules
  cache? := none

/-- The cache, if there is one, holds what rules parse to under the depth limit. -/
def CacheAgrees (e : Engine) : Prop :=
  ∀ cache ∈ e.cache?, cache.Agrees (Rule.parse e.config.maxDepth)

theorem cacheAgrees_new (config : Config) : (new config).CacheAgrees := by
  intro cache hcache
  simp only [new] at hcache
  split at hcache
  · cases hcache
    exact Cache.agrees_new _ _
  · cases hcache

/-! ## Building rules -/

/-- With or without a cache, building a rule is parsing it under the limits. -/
theorem build_eq_parseRule (h : e.CacheAgrees) (pick : Nat) (rule : String) :
    (e.build pick rule).1 = e.config.parseRule rule := by
  rcases hcache : e.cache? with _ | cache
  · simp only [build, hcache]
  · simp only [build, hcache, Config.parseRule]
    rcases e.config.checkLength rule with err | ⟨⟩
    · rfl
    · exact (h cache hcache).fst_getOrParse pick rule

/-- Building a rule changes nothing but the cache. -/
theorem withoutCache_build (e : Engine) (pick : Nat) (rule : String) :
    (e.build pick rule).2.withoutCache = e.withoutCache := by
  rcases hcache : e.cache? with _ | cache
  · simp only [build, hcache]
  · simp only [build, hcache]
    rcases e.config.checkLength rule with err | ⟨⟩
    · rfl
    · rfl

theorem CacheAgrees.build (h : e.CacheAgrees) (pick : Nat) (rule : String) :
    (e.build pick rule).2.CacheAgrees := by
  rcases hcache : e.cache? with _ | cache
  · simp only [Engine.build, hcache]
    exact h
  · simp only [Engine.build, hcache]
    rcases e.config.checkLength rule with err | ⟨⟩
    · exact h
    · intro after hafter
      cases hafter
      exact (h cache hcache).getOrParse pick rule

/-- Without a cache, building a rule is parsing it and nothing else. -/
theorem build_withoutCache (e : Engine) (pick : Nat) (rule : String) :
    e.withoutCache.build pick rule = (e.config.parseRule rule, e.withoutCache) := rfl

/-! ## One request -/

theorem register_withoutCache (h : e.CacheAgrees) (pick : Nat) (id rule : String) :
    e.withoutCache.register pick id rule =
      ((e.register pick id rule).1, (e.register pick id rule).2.withoutCache) := by
  have hreply := build_eq_parseRule h pick rule
  have hengine := withoutCache_build e pick rule
  rw [register, register, build_withoutCache]
  rcases hbuild : e.build pick rule with ⟨result, after⟩
  rw [hbuild] at hreply hengine
  simp only at hreply hengine
  rw [← hreply, ← hengine]
  cases result <;> rfl

theorem CacheAgrees.register (h : e.CacheAgrees) (pick : Nat) (id rule : String) :
    (e.register pick id rule).2.CacheAgrees := by
  have hafter := h.build pick rule
  rw [Engine.register]
  rcases hbuild : e.build pick rule with ⟨result, after⟩
  rw [hbuild] at hafter
  cases result <;> exact hafter

theorem insert_withoutCache (e : Engine) (tree : Tree) (id : String) :
    e.withoutCache.insert tree id =
      ((e.insert tree id).1, (e.insert tree id).2.withoutCache) := by
  have hcheck : e.withoutCache.config.checkDepth tree = e.config.checkDepth tree := rfl
  rw [insert, insert, hcheck]
  rcases e.config.checkDepth tree with err | ⟨⟩
  · rfl
  · rfl

theorem CacheAgrees.insert (h : e.CacheAgrees) (tree : Tree) (id : String) :
    (e.insert tree id).2.CacheAgrees := by
  rw [Engine.insert]
  split
  · exact h
  · exact h

theorem cacheAgrees_clearCache (e : Engine) : e.clearCache.CacheAgrees := by
  intro cache hcache
  obtain ⟨before, -, rfl⟩ := Option.map_eq_some_iff.mp hcache
  exact Cache.agrees_clear _ before

/-- A request is answered as by the engine without the cache, and changes the two alike. -/
theorem handle_withoutCache (h : e.CacheAgrees) (pick : Nat) (request : Request) :
    e.withoutCache.handle pick request =
      ((e.handle pick request).1, (e.handle pick request).2.withoutCache) := by
  cases request with
  | build rule =>
    simp only [handle, build_withoutCache, build_eq_parseRule h, withoutCache_build]
  | register id rule => simp only [handle, register_withoutCache h]
  | insert tree id => simp only [handle, insert_withoutCache]
  | rule id => rfl
  | remove id => rfl
  | ids => rfl
  | size => rfl
  | isEmpty => rfl
  | combine connective? ids => rfl
  | evaluateRule record id => rfl
  | evaluate tree record => rfl
  | clearCache => rfl

/-- Every request keeps the cache in agreement with the parser. -/
theorem CacheAgrees.handle (h : e.CacheAgrees) (pick : Nat) (request : Request) :
    (e.handle pick request).2.CacheAgrees := by
  cases request with
  | build rule => exact h.build pick rule
  | register id rule => exact h.register pick id rule
  | insert tree id => exact h.insert tree id
  | remove id => exact h
  | clearCache => exact cacheAgrees_clearCache e
  | rule id => exact h
  | ids => exact h
  | size => exact h
  | isEmpty => exact h
  | combine connective? ids => exact h
  | evaluateRule record id => exact h
  | evaluate tree record => exact h

/-! ## Histories -/

/-- A history is answered as by the engine without the cache. -/
theorem run_withoutCache (h : e.CacheAgrees) (history : List (Nat × Request)) :
    e.withoutCache.run history = ((e.run history).1, (e.run history).2.withoutCache) := by
  induction history generalizing e with
  | nil => rfl
  | cons entry history ih =>
    obtain ⟨pick, request⟩ := entry
    rw [run, run, handle_withoutCache h]
    simp only [ih (h.handle pick request)]

/-- Whether an engine caches the rules it parses cannot be seen from its answers, nor from the rules
it keeps; only the size of the cache tells. -/
theorem run_new_cacheRules (config : Config) (history : List (Nat × Request)) :
    ((new { config with cacheRules := true }).run history).1 =
        ((new { config with cacheRules := false }).run history).1 ∧
      ((new { config with cacheRules := true }).run history).2.rules =
        ((new { config with cacheRules := false }).run history).2.rules ∧
      ((new { config with cacheRules := false }).run history).2.cacheSize = 0 := by
  have hnew : new { config with cacheRules := false } =
      (new { config with cacheRules := true }).withoutCache := rfl
  rw [hnew, run_withoutCache (cacheAgrees_new _)]
  exact ⟨rfl, rfl, rfl⟩

end Rulebook.Engine
