import Rulebook.Proofs.CacheTransparency

/-!
# What a request does to an engine

The configuration of an engine never changes, and its cache cannot be seen.  What is left is the
rules it keeps under names, and of all requests three can change these: registering a rule, handing
in a tree, and giving up a name.  The first two may fail, and then they change nothing.
`handle_cases` says so in terms of the request and its answer alone, so that later files can follow
the rules of an engine without looking into a single operation.

* `Request.kept?`: the tree that a request puts under a name.
* `register_of_ok`, `insert_of_depth_le` and their counterparts: the operations that can fail.
* `config_handle`, `config_run`: the configuration stays.
* `kept?_handle_cases`: the requests that put a tree under a name.
* `handle_cases`: the rules after a request.
-/

namespace Rulebook.Engine

variable {e : Engine} {tree : Tree}

/-- The tree that a request has put under a name, as the answer to it tells. -/
def Request.kept? : Request → Reply → Option (String × Tree)
  | .register id _, .tree (.ok tree) => some (id, tree)
  | .insert tree id, .replaced (.ok _) => some (id, tree)
  | _, _ => none

/-! ## The operations that can fail -/

@[simp] theorem rules_build (e : Engine) (pick : Nat) (rule : String) :
    (e.build pick rule).2.rules = e.rules := by
  show (e.build pick rule).2.withoutCache.rules = e.withoutCache.rules
  rw [withoutCache_build]

@[simp] theorem config_build (e : Engine) (pick : Nat) (rule : String) :
    (e.build pick rule).2.config = e.config := by
  rcases hcache : e.cache? with _ | cache
  · simp only [build, hcache]
  · simp only [build, hcache]
    cases e.config.checkLength rule with
    | ok => rfl
    | error err => rfl

/-- Registering a rule has the answer of building it. -/
@[simp] theorem fst_register (e : Engine) (pick : Nat) (id rule : String) :
    (e.register pick id rule).1 = (e.build pick rule).1 := by
  rw [register]
  rcases e.build pick rule with ⟨_ | _, after⟩
  · rfl
  · rfl

theorem register_of_error {pick : Nat} {id rule : String} {err : RuleError}
    (h : (e.build pick rule).1 = .error err) :
    e.register pick id rule = (.error err, (e.build pick rule).2) := by
  rw [register]
  rcases hbuild : e.build pick rule with ⟨result, after⟩
  rw [hbuild] at h
  cases h
  rfl

theorem register_of_ok {pick : Nat} {id rule : String} (h : (e.build pick rule).1 = .ok tree) :
    e.register pick id rule =
      (.ok tree, { (e.build pick rule).2 with rules := e.rules.insert id tree }) := by
  have hrules := rules_build e pick rule
  rw [register]
  rcases hbuild : e.build pick rule with ⟨result, after⟩
  rw [hbuild] at h hrules
  cases h
  rw [← hrules]

theorem insert_of_depth_le (h : tree.depth ≤ e.config.maxDepth) (id : String) :
    e.insert tree id = (.ok (e.rule? id), { e with rules := e.rules.insert id tree }) := by
  rw [Engine.insert, Config.checkDepth, if_neg (Nat.not_lt.mpr h)]

theorem insert_of_not_depth_le (h : ¬ tree.depth ≤ e.config.maxDepth) (id : String) :
    e.insert tree id = (.error (.limit (.depth tree.depth e.config.maxDepth)), e) := by
  rw [Engine.insert, Config.checkDepth, if_pos (Nat.lt_of_not_le h)]

/-! ## Requests -/

/-- The configuration never changes. -/
theorem config_handle (e : Engine) (pick : Nat) (request : Request) :
    (e.handle pick request).2.config = e.config := by
  cases request with
  | build rule => exact config_build e pick rule
  | register id rule =>
    show (e.register pick id rule).2.config = e.config
    rcases hbuild : (e.build pick rule).1 with err | tree
    · rw [register_of_error hbuild, config_build]
    · rw [register_of_ok hbuild]
      exact config_build e pick rule
  | insert tree id =>
    show (e.insert tree id).2.config = e.config
    by_cases hdepth : tree.depth ≤ e.config.maxDepth
    · rw [insert_of_depth_le hdepth]
    · rw [insert_of_not_depth_le hdepth]
  | rule | remove | ids | size | isEmpty | combine | evaluateRule | evaluate | clearCache => rfl

/-- What puts a tree under a name: registering a rule that builds it, or handing it in. -/
theorem kept?_handle_cases {pick : Nat} {request : Request} {id : String}
    (hkept : request.kept? (e.handle pick request).1 = some (id, tree)) :
    (∃ rule, request = .register id rule ∧ (e.build pick rule).1 = .ok tree) ∨
      request = .insert tree id ∧ tree.depth ≤ e.config.maxDepth := by
  cases request with
  | register name rule =>
    have hreply : (Request.register name rule).kept? (.tree (e.register pick name rule).1) =
        some (id, tree) := hkept
    rw [fst_register] at hreply
    rcases hbuild : (e.build pick rule).1 with err | built
    · rw [hbuild] at hreply
      cases hreply
    · rw [hbuild] at hreply
      cases hreply
      exact Or.inl ⟨rule, rfl, hbuild⟩
  | insert given name =>
    rw [handle] at hkept
    by_cases hdepth : given.depth ≤ e.config.maxDepth
    · rw [insert_of_depth_le hdepth] at hkept
      cases hkept
      exact Or.inr ⟨rfl, hdepth⟩
    · rw [insert_of_not_depth_le hdepth] at hkept
      cases hkept
  | build | rule | remove | ids | size | isEmpty | combine | evaluateRule | evaluate
  | clearCache => cases hkept

/-- What a request does to the rules: it gives up a name, puts a tree under a name, or leaves them
as they are. -/
theorem handle_cases (e : Engine) (pick : Nat) (request : Request) :
    (∃ id, request = .remove id ∧ (e.handle pick request).2.rules = e.rules.erase id) ∨
    (∃ id tree, request.kept? (e.handle pick request).1 = some (id, tree) ∧
      (e.handle pick request).2.rules = e.rules.insert id tree) ∨
    (∀ id, request ≠ .remove id) ∧ request.kept? (e.handle pick request).1 = none ∧
      (e.handle pick request).2.rules = e.rules := by
  cases request with
  | build rule => exact Or.inr (Or.inr ⟨by simp, rfl, rules_build e pick rule⟩)
  | register id rule =>
    rw [handle]
    rcases hbuild : (e.build pick rule).1 with err | tree
    · rw [register_of_error hbuild]
      exact Or.inr (Or.inr ⟨by simp, rfl, rules_build e pick rule⟩)
    · rw [register_of_ok hbuild]
      exact Or.inr (Or.inl ⟨id, tree, rfl, rfl⟩)
  | insert tree id =>
    rw [handle]
    by_cases hdepth : tree.depth ≤ e.config.maxDepth
    · rw [insert_of_depth_le hdepth]
      exact Or.inr (Or.inl ⟨id, tree, rfl, rfl⟩)
    · rw [insert_of_not_depth_le hdepth]
      exact Or.inr (Or.inr ⟨by simp, rfl, rfl⟩)
  | remove id => exact Or.inl ⟨id, rfl, rfl⟩
  | rule | ids | size | isEmpty | combine | evaluateRule | evaluate | clearCache =>
    exact Or.inr (Or.inr ⟨by simp, rfl, rfl⟩)

theorem config_run (e : Engine) (history : List (Nat × Request)) :
    (e.run history).2.config = e.config :=
  run_preserves (fun e' pick request h => (config_handle e' pick request).trans h) rfl history

end Rulebook.Engine
