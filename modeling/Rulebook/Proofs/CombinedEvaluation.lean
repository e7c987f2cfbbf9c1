import Rulebook.Engine
import Rulebook.Proofs.Combine

/-!
# Evaluating combined rules

A combined rule is one tree, and asking it is asking the rules it was made from, one after the
other.  The tree leans to the right, so evaluation meets the first rule first, and the connective of
each node decides whether the rules after it are asked at all.  `Connective.overall` describes the
answer without a tree: of the answers in the order of the rules, the first that settles the matter.
An error settles the matter too.  So the rules must have the order of the list, and not only the
same set of answers: which error comes out, or whether one does, depends on it.

* `evaluate_join`: a joined tree answers as its parts do in order.
* `mapM_lookup_of_trees`, `mapM_lookup_of_find?`: looking up several names.
* `combine_in_order`: what combining rules of an engine gives, and what the combined rule answers.
-/

namespace Rulebook

/-- The answer after which a connective still asks for the next one. -/
def Connective.neutral : Connective → Bool
  | .and => true
  | .or => false

/-- The answer to several questions asked in order: the first answer that is not neutral, be it an
error or not, and the neutral one if there is no other. -/
def Connective.overall (c : Connective) (answers : List (Except RuleError Bool)) :
    Except RuleError Bool :=
  (answers.find? fun answer => answer ≠ .ok c.neutral).getD (.ok c.neutral)

/-! ## Joined trees -/

/-- The right side of a node is asked if the left one is neutral. -/
theorem Connective.settle_eq (c : Connective) (left : Except RuleError Bool)
    (right : Unit → Except RuleError Bool) :
    c.settle left right = if left = .ok c.neutral then right () else left := by
  rcases left with err | _ | _
  · cases c <;> rfl
  · cases c <;> rfl
  · cases c <;> rfl

theorem Connective.overall_cons (c : Connective) (answer : Except RuleError Bool)
    (answers : List (Except RuleError Bool)) :
    c.overall (answer :: answers) =
      if answer = .ok c.neutral then c.overall answers else answer := by
  by_cases h : answer = .ok c.neutral
  · simp [overall, h]
  · simp [overall, h]

/-- Joined trees answer as the trees do when they are asked in order. -/
theorem Tree.evaluate_join (c : Connective) (r : Record) (first : Tree) (others : List Tree) :
    (join c first others).evaluate r =
      c.overall ((first :: others).map fun tree => tree.evaluate r) := by
  induction others generalizing first with
  | nil =>
    rw [join_nil, List.map_cons, List.map_nil, Connective.overall_cons]
    split
    · next h => exact h
    · rfl
  | cons next others ih =>
    rw [join_cons, evaluate_node, Connective.settle_eq, List.map_cons, Connective.overall_cons,
      ih next]

namespace Engine

variable {e : Engine} {ids : List String} {trees : List Tree}

/-! ## Looking up several names -/

theorem lookup_eq_ok_iff {id : String} {tree : Tree} :
    e.lookup id = .ok tree ↔ e.rule? id = some tree := by
  rw [lookup]
  cases e.rule? id with
  | some found => simp
  | none => simp

/-- Names that all have rules are looked up with success, in order. -/
theorem mapM_lookup_of_trees (h : ids.map e.rule? = trees.map some) :
    ids.mapM e.lookup = .ok trees := by
  induction ids generalizing trees with
  | nil =>
    rw [List.map_eq_nil_iff.mp h.symm]
    rfl
  | cons id ids ih =>
    obtain ⟨tree, rest, rfl, hid, hids⟩ := List.map_eq_cons_iff.mp h.symm
    rw [List.mapM_cons, lookup_eq_ok_iff.mpr hid.symm, ih hids.symm]
    rfl

/-- The first name without a rule is the error. -/
theorem mapM_lookup_of_find? {id : String}
    (h : ids.find? (fun id => (e.rule? id).isNone) = some id) :
    ids.mapM e.lookup = .error (.ruleNotFound id) := by
  induction ids with
  | nil => cases h
  | cons first ids ih =>
    rw [List.mapM_cons]
    rcases hfirst : e.rule? first with _ | tree
    · rw [List.find?_cons_of_pos (by rw [hfirst]; rfl)] at h
      cases h
      rw [lookup, hfirst]
      rfl
    · rw [List.find?_cons_of_neg (by rw [hfirst]; nofun)] at h
      rw [lookup_eq_ok_iff.mpr hfirst, ih h]
      rfl

theorem exists_trees_of_find? (h : ids.find? (fun id => (e.rule? id).isNone) = none) :
    ∃ trees : List Tree, ids.map e.rule? = trees.map some := by
  induction ids with
  | nil => exact ⟨[], rfl⟩
  | cons id ids ih =>
    rcases hid : e.rule? id with _ | tree
    · rw [List.find?_cons_of_pos (by rw [hid]; rfl)] at h
      cases h
    · rw [List.find?_cons_of_neg (by rw [hid]; nofun)] at h
      obtain ⟨trees, htrees⟩ := ih h
      exact ⟨tree :: trees, by rw [List.map_cons, List.map_cons, hid, htrees]⟩

theorem evaluateRule_of_rule? {id : String} {tree : Tree} (h : e.rule? id = some tree)
    (record : Record) : e.evaluateRule record id = tree.evaluate record := by
  rw [evaluateRule, lookup_eq_ok_iff.mpr h]
  rfl

/-- The answers of rules are the answers of their trees. -/
theorem map_evaluateRule (h : ids.map e.rule? = trees.map some) (record : Record) :
    ids.map (e.evaluateRule record) = trees.map fun tree => tree.evaluate record := by
  induction ids generalizing trees with
  | nil =>
    rw [List.map_eq_nil_iff.mp h.symm]
    rfl
  | cons id ids ih =>
    obtain ⟨tree, rest, rfl, hid, hids⟩ := List.map_eq_cons_iff.mp h.symm
    rw [List.map_cons, List.map_cons, evaluateRule_of_rule? hid.symm, ih hids.symm]

/-! ## Combining -/

theorem combine_of_find? {id : String} (h : ids.find? (fun id => (e.rule? id).isNone) = some id)
    (connective? : Option Connective) :
    e.combine connective? ids = .error (.ruleNotFound id) := by
  rw [combine, mapM_lookup_of_find? h]
  rfl

theorem combine_of_trees (h : ids.map e.rule? = trees.map some)
    (connective? : Option Connective) :
    e.combine connective? ids =
      Tree.combine trees (connective?.getD e.config.defaultConnective) e.config.maxDepth := by
  rw [combine, mapM_lookup_of_trees h]
  rfl

/-- Names that all have rules combine to the joined tree, unless it is too deep. -/
theorem exists_combine_eq (hfound : ids.find? (fun id => (e.rule? id).isNone) = none)
    (hne : ids ≠ []) (connective? : Option Connective) :
    ∃ first others, ids.map e.rule? = (first :: others).map some ∧
      let joined := Tree.join (connective?.getD e.config.defaultConnective) first others
      e.combine connective? ids =
        if joined.depth ≤ e.config.maxDepth then .ok joined
        else .error (.limit (.combined ids.length joined.depth e.config.maxDepth)) := by
  obtain ⟨trees, htrees⟩ := exists_trees_of_find? hfound
  have hlength := congrArg List.length htrees
  rw [List.length_map, List.length_map] at hlength
  cases trees with
  | nil => exact absurd (List.eq_nil_of_length_eq_zero hlength) hne
  | cons first others =>
    refine ⟨first, others, htrees, ?_⟩
    rw [combine_of_trees htrees, Tree.combine_cons, hlength, List.length_cons]

/-- A combined rule answers as its parts do when they are asked in order. -/
theorem evaluate_of_combine {connective? : Option Connective} {t : Tree}
    (h : e.combine connective? ids = .ok t) (record : Record) :
    t.evaluate record = (connective?.getD e.config.defaultConnective).overall
      (ids.map (e.evaluateRule record)) := by
  rcases hfound : ids.find? (fun id => (e.rule? id).isNone) with _ | id
  · by_cases hnil : ids = []
    · rw [hnil] at h
      cases h
    · obtain ⟨first, others, htrees, hcombine⟩ := exists_combine_eq hfound hnil connective?
      dsimp only at hcombine
      rw [h] at hcombine
      split at hcombine
      · cases hcombine
        rw [Tree.evaluate_join, map_evaluateRule htrees]
      · cases hcombine
  · rw [combine_of_find? hfound] at h
    cases h

/-- Combining rules of an engine gives the first name without a rule as the error, refuses an empty
list, and otherwise gives the joined tree or refuses it for its depth.  The combined rule answers as
the rules do when they are asked one after the other: with the first answer that is an error or that
the connective does not pass over. -/
theorem combine_in_order (e : Engine) (connective? : Option Connective) (ids : List String)
    (record : Record) :
    let connective := connective?.getD e.config.defaultConnective
    let missing? := ids.find? fun id => (e.rule? id).isNone
    (∀ id, missing? = some id → e.combine connective? ids = .error (.ruleNotFound id)) ∧
      (missing? = none → ids = [] → e.combine connective? ids = .error .emptyInput) ∧
      (missing? = none → ids ≠ [] → ∃ first others,
        ids.map e.rule? = (first :: others).map some ∧
        let joined := Tree.join connective first others
        e.combine connective? ids =
          if joined.depth ≤ e.config.maxDepth then .ok joined
          else .error (.limit (.combined ids.length joined.depth e.config.maxDepth))) ∧
      ∀ t, e.combine connective? ids = .ok t →
        t.evaluate record = connective.overall (ids.map (e.evaluateRule record)) := by
  intro connective missing?
  refine ⟨fun id hid => combine_of_find? hid connective?, fun _ hnil => ?_,
    fun hfound hne => exists_combine_eq hfound hne connective?,
    fun t ht => evaluate_of_combine ht record⟩
  rw [hnil]
  rfl

/-- A rule that holds, one about a field that is not there, and one that does not hold: the order
decides between the error and the answer. -/
theorem combine_in_order_missing_field :
    let e := ((new .default).run [(0, .register "holds" "a='x'"), (0, .register "lost" "b='x'"),
      (0, .register "fails" "a='y'")]).2
    let record := Record.ofList [("a", .text "x")]
    (∃ t, e.combine none ["holds", "lost", "fails"] = .ok t ∧
        t.evaluate record = .error (.unknownField "b")) ∧
      ∃ t, e.combine none ["holds", "fails", "lost"] = .ok t ∧ t.evaluate record = .ok false := by
  intro e record
  have hlost : ∃ t, e.combine none ["holds", "lost", "fails"] = .ok t :=
    ⟨.node .and (.leaf ⟨"a", .equal, .text "x", "a='x'"⟩)
      (.node .and (.leaf ⟨"b", .equal, .text "x", "b='x'"⟩)
        (.leaf ⟨"a", .equal, .text "y", "a='y'"⟩)), by decide +kernel⟩
  have hfails : ∃ t, e.combine none ["holds", "fails", "lost"] = .ok t :=
    ⟨.node .and (.leaf ⟨"a", .equal, .text "x", "a='x'"⟩)
      (.node .and (.leaf ⟨"a", .equal, .text "y", "a='y'"⟩)
        (.leaf ⟨"b", .equal, .text "x", "b='x'"⟩)), by decide +kernel⟩
  obtain ⟨t, ht⟩ := hlost
  obtain ⟨u, hu⟩ := hfails
  refine ⟨⟨t, ht, ?_⟩, ⟨u, hu, ?_⟩⟩
  · rw [(combine_in_order e none _ record).2.2.2 t ht]
    decide +kernel
  · rw [(combine_in_order e none _ record).2.2.2 u hu]
    decide +kernel

end Engine

end Rulebook
