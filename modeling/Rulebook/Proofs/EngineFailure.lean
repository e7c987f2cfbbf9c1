import Rulebook.Proofs.EngineStep

/-!
# Requests that fail

A request can fail for many reasons: a rule is too long, is not balanced, is no condition or nests
too deep, a name has no rule, there is nothing to combine.  Whichever it is, the engine is
afterwards what it was before, its cache included.  For most requests this is plain, since they look
at the engine and do not change it.  Building a rule is the exception, as the cache is asked between
the check of the length and the parser.  `build_cases` says what can come of it; in particular a
rule is stored only with the tree that it has under both limits, so that the cache never holds a
rule that fails.

* `build_cases`: building a rule fails, or gives a tree and perhaps stores it.
* `handle_of_error`: a request that fails changes nothing.
* `cache?_handle_cases`: the cache after a request.
* `run_new_failure`: failures along the histories of a new engine.
-/

namespace Rulebook.Engine

variable {e : Engine} {pick : Nat} {request : Request} {err : RuleError}

/-- The error that an answer is, if it is one. -/
def Reply.error? : Reply → Option RuleError
  | .tree (.error err) => some err
  | .replaced (.error err) => some err
  | .verdict (.error err) => some err
  | _ => none

/-! ## Building a rule -/

theorem with_cache?_eq_self {cache : Cache} (h : e.cache? = some cache) :
    { e with cache? := some cache } = e := by
  rw [← h]

/-- Building a rule fails and changes nothing, gives a tree and changes nothing, or stores the tree
that the rule has under the limits. -/
theorem build_cases (e : Engine) (pick : Nat) (rule : String) :
    (∃ err, e.build pick rule = (.error err, e)) ∨
    (∃ tree, e.build pick rule = (.ok tree, e)) ∨
    ∃ cache tree, e.cache? = some cache ∧ e.config.parseRule rule = .ok tree ∧
      e.build pick rule = (.ok tree, { e with cache? := some (cache.insert pick rule tree) }) := by
  rcases hcache : e.cache? with _ | cache
  · simp only [build, hcache]
    rcases e.config.parseRule rule with err | tree
    · exact Or.inl ⟨err, rfl⟩
    · exact Or.inr (Or.inl ⟨tree, rfl⟩)
  · simp only [build, hcache, Config.parseRule]
    rcases e.config.checkLength rule with err | ⟨⟩
    · exact Or.inl ⟨err, rfl⟩
    · rcases hget : cache.get? rule with _ | tree
      · rw [Cache.getOrParse_of_none hget]
        rcases Rule.parse e.config.maxDepth rule with err | tree
        · exact Or.inl ⟨err, by rw [with_cache?_eq_self hcache]⟩
        · exact Or.inr (Or.inr ⟨cache, tree, rfl, rfl, rfl⟩)
      · rw [Cache.getOrParse_of_some hget]
        exact Or.inr (Or.inl ⟨tree, by rw [with_cache?_eq_self hcache]⟩)

theorem snd_build_of_error {rule : String} (h : (e.build pick rule).1 = .error err) :
    (e.build pick rule).2 = e := by
  rcases build_cases e pick rule with ⟨err, hbuild⟩ | ⟨tree, hbuild⟩ | ⟨cache, tree, -, -, hbuild⟩
  · rw [hbuild]
  · rw [hbuild]
  · rw [hbuild] at h
    cases h

/-! ## One request -/

/-- A request that fails leaves the engine as it was. -/
theorem handle_of_error (h : (e.handle pick request).1.error? = some err) :
    (e.handle pick request).2 = e := by
  cases request with
  | build rule =>
    have hreply : (Reply.tree (e.build pick rule).1).error? = some err := h
    rcases hbuild : (e.build pick rule).1 with err' | tree
    · exact snd_build_of_error hbuild
    · rw [hbuild] at hreply
      cases hreply
  | register id rule =>
    rcases hbuild : (e.build pick rule).1 with err' | tree
    · rw [handle, register_of_error hbuild]
      exact snd_build_of_error hbuild
    · rw [handle, register_of_ok hbuild] at h
      cases h
  | insert tree id =>
    by_cases hdepth : tree.depth ≤ e.config.maxDepth
    · rw [handle, insert_of_depth_le hdepth] at h
      cases h
    · rw [handle, insert_of_not_depth_le hdepth]
  | remove | clearCache => cases h
  | rule | ids | size | isEmpty | combine | evaluateRule | evaluate => rfl

/-- Registering a rule does to the cache what building it does. -/
theorem cache?_register (e : Engine) (pick : Nat) (id rule : String) :
    (e.register pick id rule).2.cache? = (e.build pick rule).2.cache? := by
  rw [register]
  rcases e.build pick rule with ⟨_ | _, after⟩
  · rfl
  · rfl

theorem cache?_build_cases (e : Engine) (pick : Nat) (rule : String) :
    (∃ cache tree, e.cache? = some cache ∧ e.config.parseRule rule = .ok tree ∧
      (e.build pick rule).2.cache? = some (cache.insert pick rule tree)) ∨
    (e.build pick rule).2.cache? = e.cache? := by
  rcases build_cases e pick rule with
    ⟨err, hbuild⟩ | ⟨tree, hbuild⟩ | ⟨cache, tree, hcache, hparse, hbuild⟩
  · exact Or.inr (by rw [hbuild])
  · exact Or.inr (by rw [hbuild])
  · exact Or.inl ⟨cache, tree, hcache, hparse, by rw [hbuild]⟩

/-- What a request does to the cache: it empties it, stores a rule with the tree that the rule has
under the limits, or leaves it as it is. -/
theorem cache?_handle_cases (e : Engine) (pick : Nat) (request : Request) :
    (e.handle pick request).2.cache? = e.cache?.map Cache.clear ∨
    (∃ cache rule tree, e.cache? = some cache ∧ e.config.parseRule rule = .ok tree ∧
      (e.handle pick request).2.cache? = some (cache.insert pick rule tree)) ∨
    (e.handle pick request).2.cache? = e.cache? := by
  cases request with
  | build rule =>
    exact Or.inr ((cache?_build_cases e pick rule).imp_left fun ⟨cache, h⟩ => ⟨cache, rule, h⟩)
  | register id rule =>
    have hregister : (e.handle pick (.register id rule)).2.cache? = (e.build pick rule).2.cache? :=
      cache?_register e pick id rule
    rw [hregister]
    exact Or.inr ((cache?_build_cases e pick rule).imp_left fun ⟨cache, h⟩ => ⟨cache, rule, h⟩)
  | insert tree id =>
    refine Or.inr (Or.inr ?_)
    rw [handle]
    by_cases hdepth : tree.depth ≤ e.config.maxDepth
    · rw [insert_of_depth_le hdepth]
    · rw [insert_of_not_depth_le hdepth]
  | clearCache => exact Or.inl rfl
  | rule | remove | ids | size | isEmpty | combine | evaluateRule | evaluate =>
    exact Or.inr (Or.inr rfl)

/-! ## What the cache holds -/

/-- The cache, if there is one, holds what rules parse to under the limits of the engine, that of
the length among them. -/
def CacheWithinLimits (e : Engine) : Prop :=
  ∀ cache ∈ e.cache?, cache.Agrees e.config.parseRule

theorem cacheWithinLimits_new (config : Config) : (new config).CacheWithinLimits := by
  intro cache hcache
  simp only [new] at hcache
  split at hcache
  · cases hcache
    exact Cache.agrees_new _ _
  · cases hcache

theorem CacheWithinLimits.handle (h : e.CacheWithinLimits) (pick : Nat) (request : Request) :
    (e.handle pick request).2.CacheWithinLimits := by
  intro after hafter
  rw [config_handle]
  rcases cache?_handle_cases e pick request with
    hcache | ⟨cache, rule, tree, hcache, hparse, hstored⟩ | hcache
  · rw [hcache] at hafter
    obtain ⟨before, -, rfl⟩ := Option.map_eq_some_iff.mp hafter
    exact Cache.agrees_clear _ before
  · rw [hstored] at hafter
    cases hafter
    exact (h cache hcache).insert hparse pick
  · rw [hcache] at hafter
    exact h after hafter

/-- A request to a new engine that fails, at whatever point of a history, leaves the engine as it
was, with its configuration, its rules and its cache.  A rule that fails under the limits of the
engine is never in the cache. -/
theorem run_new_failure (config : Config) (history : List (Nat × Request)) :
    let e := ((new config).run history).2
    (∀ pick request err, (e.handle pick request).1.error? = some err →
      (e.handle pick request).2 = e) ∧
      ∀ cache ∈ e.cache?, ∀ rule err, config.parseRule rule = .error err →
        cache.get? rule = none := by
  intro e
  refine ⟨fun pick request err => handle_of_error, fun cache hcache rule err hparse => ?_⟩
  have hconfig : e.config = config := config_run (new config) history
  have hlimits : e.CacheWithinLimits :=
    run_preserves (fun _ pick request h => h.handle pick request) (cacheWithinLimits_new config)
      history
  rcases hget : cache.get? rule with _ | tree
  · rfl
  · have hok := hlimits cache hcache rule tree hget
    rw [hconfig, hparse] at hok
    cases hok

/-- A rule that is not balanced is refused under a name that has a rule, and the name keeps it. -/
theorem run_new_failure_unbalanced :
    let e := ((new .default).run [(0, .register "kept" "a='x'")]).2
    let after := (e.handle 0 (.register "kept" "(b='y'")).2
    after = e ∧ after.rule? "kept" = some (.leaf ⟨"a", .equal, .text "x", "a='x'"⟩) := by
  intro e after
  have hreply : (e.handle 0 (.register "kept" "(b='y'")).1.error? =
      some (.parse (.unbalanced (.unclosed 1) "(b='y'")) := by decide +kernel
  have hsame : after = e :=
    (run_new_failure .default [(0, .register "kept" "a='x'")]).1 0 _ _ hreply
  refine ⟨hsame, ?_⟩
  rw [hsame]
  decide +kernel

end Rulebook.Engine
