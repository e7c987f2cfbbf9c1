import Rulebook.Proofs.Combine
import Rulebook.Proofs.EngineStep
import Rulebook.Proofs.Grammar.Parsing

/-!
# The depth limit of an engine

Three checks keep trees within the limit: the parser counts levels, combining computes a height from
the parts, and a tree that is handed in is measured.  All three decide by the depth of the tree in
question, so there is no way past them: an engine never keeps, caches or answers with a tree that is
too deep.  The cache takes no part in this.  It holds what rules parse to, so a tree that comes from
the cache has passed the parser's check, under the same limit.

* `Bounded.depth_le_of_kept`, `Bounded.depth_le_of_mem_trees`: the trees that one request brings in
  and gives out.
* `Bounded.handle`, `Bounded.run`: the trees that an engine keeps.
* `run_new_depth`: the limit along histories of a new engine.
-/

namespace Rulebook.Engine

variable {e : Engine} {tree : Tree}

/-! ## Trees in answers -/

/-- The trees in an answer. -/
def Reply.trees : Reply → List Tree
  | .tree (.ok tree) => [tree]
  | .replaced (.ok (some tree)) => [tree]
  | .found (some tree) => [tree]
  | _ => []

@[simp] theorem mem_trees_tree {result : Except RuleError Tree} :
    tree ∈ (Reply.tree result).trees ↔ result = .ok tree := by
  cases result with
  | ok built => simp [Reply.trees, eq_comm]
  | error err => simp [Reply.trees]

@[simp] theorem mem_trees_found {found? : Option Tree} :
    tree ∈ (Reply.found found?).trees ↔ found? = some tree := by
  cases found? with
  | some found => simp [Reply.trees, eq_comm]
  | none => simp [Reply.trees]

@[simp] theorem mem_trees_replaced {result : Except RuleError (Option Tree)} :
    tree ∈ (Reply.replaced result).trees ↔ result = .ok (some tree) := by
  rcases result with err | _ | replaced
  · simp [Reply.trees]
  · simp [Reply.trees]
  · simp [Reply.trees, eq_comm]

/-! ## Trees within the limit -/

theorem depth_le_of_parseRule {config : Config} {rule : String}
    (h : config.parseRule rule = .ok tree) : tree.depth ≤ config.maxDepth := by
  rw [Config.parseRule] at h
  obtain ⟨⟨⟩, -, hparse⟩ := exists_of_bind_eq_ok h
  exact Rule.depth_le_of_parse hparse

theorem depth_le_of_build (h : e.CacheAgrees) {pick : Nat} {rule : String}
    (hbuild : (e.build pick rule).1 = .ok tree) : tree.depth ≤ e.config.maxDepth := by
  rw [build_eq_parseRule h] at hbuild
  exact depth_le_of_parseRule hbuild

theorem depth_le_of_combine {connective? : Option Connective} {ids : List String}
    (h : e.combine connective? ids = .ok tree) : tree.depth ≤ e.config.maxDepth := by
  rw [combine] at h
  obtain ⟨trees, -, hcombine⟩ := exists_of_bind_eq_ok h
  exact Tree.depth_le_of_combine hcombine

/-- The trees that an engine keeps, under names and in its cache, are within the limit.  Of the
cache more is needed and known: what it holds is what rules parse to. -/
structure Bounded (e : Engine) : Prop where
  cacheAgrees : e.CacheAgrees
  depth_le : ∀ id tree, e.rule? id = some tree → tree.depth ≤ e.config.maxDepth

theorem bounded_new (config : Config) : (new config).Bounded where
  cacheAgrees := cacheAgrees_new config
  depth_le id tree h := by
    rw [rule?, new, Std.ExtTreeMap.getElem?_empty] at h
    cases h

theorem Bounded.depth_le_of_cache (h : e.Bounded) {cache : Cache} (hcache : cache ∈ e.cache?)
    {rule : String} (hget : cache.get? rule = some tree) : tree.depth ≤ e.config.maxDepth :=
  Rule.depth_le_of_parse (h.cacheAgrees cache hcache rule tree hget)

/-- Each tree in an answer is within the limit. -/
theorem Bounded.depth_le_of_mem_trees (h : e.Bounded) {pick : Nat} {request : Request}
    (htree : tree ∈ (e.handle pick request).1.trees) : tree.depth ≤ e.config.maxDepth := by
  cases request with
  | build rule => exact depth_le_of_build h.cacheAgrees (mem_trees_tree.mp htree)
  | register id rule =>
    have hregister : (e.register pick id rule).1 = .ok tree := mem_trees_tree.mp htree
    rw [fst_register] at hregister
    exact depth_le_of_build h.cacheAgrees hregister
  | insert given id =>
    have hinsert : (e.insert given id).1 = .ok (some tree) := mem_trees_replaced.mp htree
    by_cases hdepth : given.depth ≤ e.config.maxDepth
    · rw [insert_of_depth_le hdepth] at hinsert
      exact h.depth_le id tree (Except.ok.inj hinsert)
    · rw [insert_of_not_depth_le hdepth] at hinsert
      cases hinsert
  | rule id => exact h.depth_le id tree (mem_trees_found.mp htree)
  | remove id => exact h.depth_le id tree (mem_trees_found.mp htree)
  | combine connective? ids => exact depth_le_of_combine (mem_trees_tree.mp htree)
  | ids | size | isEmpty | evaluateRule | evaluate | clearCache => cases htree

/-- The tree that a request puts under a name is within the limit. -/
theorem Bounded.depth_le_of_kept (h : e.Bounded) {pick : Nat} {request : Request} {id : String}
    (hkept : request.kept? (e.handle pick request).1 = some (id, tree)) :
    tree.depth ≤ e.config.maxDepth := by
  rcases kept?_handle_cases hkept with ⟨rule, -, hbuild⟩ | ⟨-, hdepth⟩
  · exact depth_le_of_build h.cacheAgrees hbuild
  · exact hdepth

/-! ## Histories -/

/-- Every request keeps the trees within the limit. -/
theorem Bounded.handle (h : e.Bounded) (pick : Nat) (request : Request) :
    (e.handle pick request).2.Bounded where
  cacheAgrees := h.cacheAgrees.handle pick request
  depth_le id tree hrule := by
    rw [config_handle]
    rw [rule?] at hrule
    rcases handle_cases e pick request with
      ⟨name, -, hrules⟩ | ⟨name, kept, hkept, hrules⟩ | ⟨-, -, hrules⟩
    · rw [hrules, Std.ExtTreeMap.getElem?_erase] at hrule
      split at hrule
      · cases hrule
      · exact h.depth_le id tree hrule
    · rw [hrules, Std.ExtTreeMap.getElem?_insert] at hrule
      split at hrule
      · cases hrule
        exact h.depth_le_of_kept hkept
      · exact h.depth_le id tree hrule
    · rw [hrules] at hrule
      exact h.depth_le id tree hrule

theorem Bounded.run (h : e.Bounded) (history : List (Nat × Request)) :
    (e.run history).2.Bounded :=
  run_preserves (fun _ pick request h => h.handle pick request) h history

/-- Each tree in the answers to a history is within the limit. -/
theorem Bounded.depth_le_of_mem_run (h : e.Bounded) {history : List (Nat × Request)}
    {reply : Reply} (hreply : reply ∈ (e.run history).1) (htree : tree ∈ reply.trees) :
    tree.depth ≤ e.config.maxDepth := by
  induction history generalizing e with
  | nil => cases hreply
  | cons entry history ih =>
    obtain ⟨pick, request⟩ := entry
    rcases List.mem_cons.mp hreply with rfl | hlater
    · exact h.depth_le_of_mem_trees htree
    · rw [← config_handle e pick request]
      exact ih (h.handle pick request) hlater

/-- Whatever is asked of a new engine, and whatever its cache evicts, its configuration stays, no
tree that it keeps under a name, caches or answers with is too deep for this configuration, and so
each tree it has answered with can be put under any name from then on. -/
theorem run_new_depth (config : Config) (history : List (Nat × Request)) :
    let replies := ((new config).run history).1
    let e := ((new config).run history).2
    e.config = config ∧
      (∀ id tree, e.rule? id = some tree → tree.depth ≤ config.maxDepth) ∧
      (∀ cache ∈ e.cache?, ∀ rule tree, cache.get? rule = some tree →
        tree.depth ≤ config.maxDepth) ∧
      ∀ reply ∈ replies, ∀ tree ∈ reply.trees, tree.depth ≤ config.maxDepth ∧
        ∀ id, (e.insert tree id).1 = .ok (e.rule? id) := by
  intro replies e
  have hnew := bounded_new config
  have hbounded : e.Bounded := hnew.run history
  have hconfig : e.config = config := config_run (new config) history
  refine ⟨hconfig, fun id tree hrule => ?_, fun cache hcache rule tree hget => ?_,
    fun reply hreply tree htree => ?_⟩
  · exact hconfig ▸ hbounded.depth_le id tree hrule
  · exact hconfig ▸ hbounded.depth_le_of_cache hcache hget
  · have hdepth : tree.depth ≤ config.maxDepth := hnew.depth_le_of_mem_run hreply htree
    refine ⟨hdepth, fun id => ?_⟩
    rw [← hconfig] at hdepth
    rw [insert_of_depth_le hdepth]

/-- An engine for trees of two levels: what it has built it takes back under another name, and what
it cannot combine within the limit it does not. -/
theorem run_new_depth_two_levels :
    let config := { Config.default with maxDepth := 2 }
    let e := ((new config).run
      [(0, .register "either" "a='x' OR b='y'"), (0, .build "c='z'"), (0, .clearCache)]).2
    ∃ tree, e.rule? "either" = some tree ∧ tree.depth ≤ 2 ∧
      (e.insert tree "copy").1 = .ok none ∧
      e.combine none ["either", "either"] = .error (.limit (.combined 2 3 2)) := by
  intro config e
  obtain ⟨-, hrules, -, hreplies⟩ := run_new_depth config
    [(0, .register "either" "a='x' OR b='y'"), (0, .build "c='z'"), (0, .clearCache)]
  have hregister : ((new config).register 0 "either" "a='x' OR b='y'").1 = .ok
      (.node .or (.leaf ⟨"a", .equal, .text "x", "a='x'"⟩)
        (.leaf ⟨"b", .equal, .text "y", "b='y'"⟩)) := by decide +kernel
  have hrule : e.rule? "either" = some
      (.node .or (.leaf ⟨"a", .equal, .text "x", "a='x'"⟩)
        (.leaf ⟨"b", .equal, .text "y", "b='y'"⟩)) := by decide +kernel
  have hcopy : e.rule? "copy" = none := by decide +kernel
  refine ⟨_, hrule, hrules _ _ hrule, ?_, by decide +kernel⟩
  rw [(hreplies _ (List.mem_cons_self ..) _ (mem_trees_tree.mpr hregister)).2 "copy"]
  exact congrArg Except.ok hcopy

end Rulebook.Engine
