import Rulebook.Proofs.ByteOrder
import Rulebook.Proofs.CombinedEvaluation
import Rulebook.Proofs.EngineStep

/-!
# The rules of an engine as a map

What an engine has done can be read off its log, the requests with the answers to them.  This file
reads the rules off it as well: a name has the tree that was last put under it, unless the name was
given up after that.  Nothing else in the log matters, be it requests about other names, requests
that failed, or whatever the cache did meanwhile.  The step is `rule?_handle_iff`, which asks of one
entry whether it concerns the name, and the statement on logs is an induction on the history.

The rest is what the operations on rules answer in terms of this map.  The names come in the order
of their bytes, which for strings is the order that the map keeps them in.

* `LastKept`: a tree is the last one that was put under a name.
* `rule?_handle_iff`, `rule?_run_iff`: the rule of a name after a request and after a history.
* `mem_ids_iff`, `pairwise_ids`: the names.
* `error_of_evaluate`: evaluating a tree never fails for want of a rule.
* `run_new_registry`: all of it for the histories of a new engine.
-/

namespace Rulebook

/-- A tree can only fail to evaluate for a field that is missing or of the wrong type. -/
theorem Tree.error_of_evaluate {t : Tree} {r : Record} {err : RuleError}
    (h : t.evaluate r = .error err) : err.kind = .unknownField ∨ err.kind = .typeMismatch := by
  induction t with
  | leaf c =>
    rw [evaluate_leaf, Condition.check] at h
    split at h
    · rw [Condition.eq_typeMismatch_of_checkValue h]
      exact Or.inr rfl
    · cases h
      exact Or.inl rfl
  | node c left right ihl ihr =>
    rw [evaluate_node, Connective.settle_eq] at h
    split at h
    · exact ihr h
    · exact ihl h

namespace Engine

variable {e : Engine} {id : String} {tree : Tree}

/-! ## Logs -/

/-- The requests of a history, each with the answer to it. -/
def log (e : Engine) (history : List (Nat × Request)) : List (Request × Reply) :=
  (history.map Prod.snd).zip (e.run history).1

@[simp] theorem log_nil (e : Engine) : e.log [] = [] := rfl

@[simp] theorem log_cons (e : Engine) (pick : Nat) (request : Request)
    (history : List (Nat × Request)) :
    e.log ((pick, request) :: history) =
      (request, (e.handle pick request).1) :: (e.handle pick request).2.log history := rfl

/-- An entry of a log concerns a name if it has put a tree under the name or given the name up. -/
def Concerns (id : String) (entry : Request × Reply) : Prop :=
  entry.1 = .remove id ∨ ∃ tree, entry.1.kept? entry.2 = some (id, tree)

/-- The last entry of a log that concerns a name has put this tree under it. -/
def LastKept (log : List (Request × Reply)) (id : String) (tree : Tree) : Prop :=
  ∃ earlier request reply later, log = earlier ++ (request, reply) :: later ∧
    request.kept? reply = some (id, tree) ∧ ∀ entry ∈ later, ¬ Concerns id entry

theorem not_lastKept_nil (id : String) (tree : Tree) : ¬ LastKept [] id tree := by
  rintro ⟨earlier, request, reply, later, h, -⟩
  simp at h

theorem lastKept_cons_iff {entry : Request × Reply} {log : List (Request × Reply)} :
    LastKept (entry :: log) id tree ↔
      LastKept log id tree ∨
        entry.1.kept? entry.2 = some (id, tree) ∧ ∀ other ∈ log, ¬ Concerns id other := by
  constructor
  · rintro ⟨earlier, request, reply, later, h, hkept, hlater⟩
    rcases List.cons_eq_append_iff.mp h with ⟨rfl, hlog⟩ | ⟨rest, rfl, rfl⟩
    · cases hlog
      exact Or.inr ⟨hkept, hlater⟩
    · exact Or.inl ⟨rest, request, reply, later, rfl, hkept, hlater⟩
  · rintro (⟨earlier, request, reply, later, rfl, hkept, hlater⟩ | ⟨hkept, hlater⟩)
    · exact ⟨entry :: earlier, request, reply, later, rfl, hkept, hlater⟩
    · exact ⟨[], entry.1, entry.2, log, rfl, hkept, hlater⟩

/-! ## The rule of a name -/

/-- After a request a name has the tree that the request has put under it, or the tree that it had
before if the request does not concern it. -/
theorem rule?_handle_iff (e : Engine) (pick : Nat) (request : Request) :
    (e.handle pick request).2.rule? id = some tree ↔
      request.kept? (e.handle pick request).1 = some (id, tree) ∨
        ¬ Concerns id (request, (e.handle pick request).1) ∧ e.rule? id = some tree := by
  rw [rule?, rule?, Concerns]
  rcases handle_cases e pick request with
    ⟨name, rfl, hrules⟩ | ⟨name, kept, hkept, hrules⟩ | ⟨hremove, hkept, hrules⟩
  · have hnone : (Request.remove name).kept? (e.handle pick (.remove name)).1 = none := rfl
    rw [hrules, Std.ExtTreeMap.getElem?_erase, hnone]
    by_cases hname : name = id
    · simp [hname]
    · simp [hname]
  · have hremove : request ≠ .remove id := by
      rintro rfl
      cases hkept
    rw [hrules, Std.ExtTreeMap.getElem?_insert, hkept]
    by_cases hname : name = id
    · simp [hname]
    · simp [hname, hremove]
  · simp [hrules, hkept, hremove id]

/-- After a history a name has the tree that was last put under it, or the tree that it had before
if nothing in the history concerns it. -/
theorem rule?_run_iff (e : Engine) (history : List (Nat × Request)) :
    (e.run history).2.rule? id = some tree ↔
      LastKept (e.log history) id tree ∨
        (∀ entry ∈ e.log history, ¬ Concerns id entry) ∧ e.rule? id = some tree := by
  induction history generalizing e with
  | nil => simp [run, not_lastKept_nil]
  | cons entry history ih =>
    obtain ⟨pick, request⟩ := entry
    rw [log_cons, lastKept_cons_iff, List.forall_mem_cons]
    show ((e.handle pick request).2.run history).2.rule? id = some tree ↔ _
    rw [ih, rule?_handle_iff]
    tauto

/-! ## Answers -/

/-- Registering a rule is answered with what the rule parses to. -/
theorem register_of_mem_log (h : e.CacheAgrees) {history : List (Nat × Request)} {rule : String}
    {reply : Reply} (hmem : (.register id rule, reply) ∈ e.log history) :
    reply = .tree (e.config.parseRule rule) := by
  induction history generalizing e with
  | nil => cases hmem
  | cons entry history ih =>
    obtain ⟨pick, request⟩ := entry
    rw [log_cons] at hmem
    rcases List.mem_cons.mp hmem with heq | hlater
    · cases heq
      show Reply.tree (e.register pick id rule).1 = _
      rw [fst_register, build_eq_parseRule h]
    · rw [← config_handle e pick request]
      exact ih (h.handle pick request) hlater

/-- Handing in a tree is answered with the tree that it takes the place of, or refused. -/
theorem fst_insert (e : Engine) (tree : Tree) (id : String) :
    (e.insert tree id).1 =
      if tree.depth ≤ e.config.maxDepth then .ok (e.rule? id)
      else .error (.limit (.depth tree.depth e.config.maxDepth)) := by
  by_cases hdepth : tree.depth ≤ e.config.maxDepth
  · rw [insert_of_depth_le hdepth, if_pos hdepth]
  · rw [insert_of_not_depth_le hdepth, if_neg hdepth]

theorem mem_ids_iff : id ∈ e.ids ↔ e.rule? id ≠ none := by
  rw [ids, Std.ExtTreeMap.mem_keys, rule?, Std.ExtTreeMap.mem_iff_isSome_getElem?,
    Option.isSome_iff_ne_none]

/-- The names are in the order of their bytes, each of them once. -/
theorem pairwise_ids (e : Engine) : e.ids.Pairwise fun a b => Text.utf8 a < Text.utf8 b :=
  Std.ExtTreeMap.ordered_keys.imp fun h => Text.utf8_lt_utf8_iff.mpr (compare_lt_iff_lt.mp h)

/-- A rule is not found exactly if the name has none. -/
theorem evaluateRule_eq_ruleNotFound_iff {record : Record} :
    e.evaluateRule record id = .error (.ruleNotFound id) ↔ e.rule? id = none := by
  rcases hrule : e.rule? id with _ | tree
  · rw [evaluateRule, lookup, hrule]
    exact iff_of_true rfl rfl
  · rw [evaluateRule_of_rule? hrule]
    refine iff_of_false (fun h => ?_) (Option.some_ne_none tree)
    rcases Tree.error_of_evaluate h with hkind | hkind
    · cases hkind
    · cases hkind

/-! ## Histories -/

/-- The rules of a new engine are what its history makes of them.  A name has the tree that was last
put under it, unless the name was given up after that; the tree of a rule that was registered is
what the rule parses to under the limits.  Handing in a tree and giving up a name are answered with
the tree that the name had; the names are listed in the order of their bytes; and a rule evaluates
as its tree does, or is not found if the name has none. -/
theorem run_new_registry (config : Config) (history : List (Nat × Request)) :
    let log := (new config).log history
    let e := ((new config).run history).2
    (∀ id tree, e.rule? id = some tree ↔ LastKept log id tree) ∧
      (∀ id rule reply, (.register id rule, reply) ∈ log →
        reply = .tree (config.parseRule rule)) ∧
      (∀ tree id, (e.insert tree id).1 =
        if tree.depth ≤ config.maxDepth then .ok (e.rule? id)
        else .error (.limit (.depth tree.depth config.maxDepth))) ∧
      (∀ id, (e.remove id).1 = e.rule? id) ∧
      (e.ids.Pairwise (fun a b => Text.utf8 a < Text.utf8 b) ∧
        (∀ id, id ∈ e.ids ↔ e.rule? id ≠ none) ∧
        e.size = e.ids.length ∧ (e.isEmpty = true ↔ e.ids = [])) ∧
      ∀ record id, (e.evaluateRule record id = .error (.ruleNotFound id) ↔ e.rule? id = none) ∧
        ∀ tree, e.rule? id = some tree → e.evaluateRule record id = tree.evaluate record := by
  intro log e
  have hconfig : e.config = config := config_run (new config) history
  refine ⟨fun id tree => ?_, fun id rule reply hmem => ?_, fun tree id => ?_, fun id => rfl,
    ⟨pairwise_ids e, fun id => mem_ids_iff, ?_, ?_⟩, fun record id => ?_⟩
  · have hnew : (new config).rule? id ≠ some tree := by simp [new, rule?]
    have hrun : e.rule? id = some tree ↔ _ := rule?_run_iff (new config) history
    simpa [hnew] using hrun
  · exact register_of_mem_log (cacheAgrees_new config) hmem
  · rw [fst_insert, hconfig]
  · exact Std.ExtTreeMap.length_keys.symm
  · rw [← List.isEmpty_iff, ids, Std.ExtTreeMap.isEmpty_keys]
    rfl
  · exact ⟨evaluateRule_eq_ruleNotFound_iff, fun tree hrule => evaluateRule_of_rule? hrule record⟩

/-- A name keeps its tree when a rule for it fails and other names come and go. -/
theorem run_new_registry_after_failure :
    let history : List (Nat × Request) := [(0, .register "b" "x='1'"), (0, .register "a" "x='2'"),
      (0, .register "a" "x="), (0, .remove "b")]
    let e := ((new .default).run history).2
    LastKept ((new .default).log history) "a" (.leaf ⟨"x", .equal, .text "2", "x='2'"⟩) ∧
      ∀ record, e.evaluateRule record "b" = .error (.ruleNotFound "b") := by
  intro history e
  obtain ⟨hrules, -, -, -, -, hevaluate⟩ := run_new_registry .default history
  have hkept : e.rule? "a" = some (.leaf ⟨"x", .equal, .text "2", "x='2'"⟩) := by decide +kernel
  have hgone : e.rule? "b" = none := by decide +kernel
  exact ⟨(hrules _ _).mp hkept, fun record => (hevaluate record "b").1.mpr hgone⟩

end Engine

end Rulebook
