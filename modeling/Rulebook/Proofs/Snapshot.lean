import Rulebook.Proofs.EngineDepth
import Rulebook.Proofs.KeywordCondition
import Rulebook.Proofs.Registry

/-!
# Taking an engine down and putting it up again

An engine keeps its rules in memory only.  Whoever wants to keep them longer takes the stored form
of each rule by its name, a snapshot, and hands the trees in to a new engine later.  Two things can
go wrong on the way.  A text may not read as the tree it was written from, and a tree may be
refused.  Neither happens to a tree that an engine keeps: its conditions have been read from text,
whichever way it came in, and it is within the depth limit, which must be one that stored trees can
have.

It does not matter in which order the rules are handed in, as each name occurs only once.

* `isRead_of_rule?_run`: the conditions of every tree that an engine keeps.
* `exists_foldlM_restoreEntry`: handing in any entries of a snapshot.
* `restore_snapshot`: the new engine is the old one as far as rules are concerned.
-/

namespace Rulebook

theorem Config.isRead_of_parseRule {config : Config} {rule : String} {t : Tree}
    (h : config.parseRule rule = .ok t) : t.IsRead := by
  rw [parseRule] at h
  obtain ⟨⟨⟩, -, hparse⟩ := exists_of_bind_eq_ok h
  exact Rule.isRead_of_parse hparse

namespace Engine

variable {e : Engine} {id : String} {tree : Tree}

/-! ## Snapshots -/

/-- The rules of an engine as texts, each with its name. -/
def snapshot (e : Engine) : List (String × String) :=
  e.ids.filterMap fun id => (e.rule? id).map fun tree => (id, tree.write)

/-- The engine after one entry of a snapshot has been read and handed in. -/
def restoreEntry (e : Engine) (entry : String × String) : Except RuleError Engine := do
  let tree ← Tree.ofText entry.2
  match e.insert tree entry.1 with
  | (.ok _, after) => .ok after
  | (.error err, _) => .error err

/-- A new engine to which all entries of a snapshot have been handed in, or the first error. -/
def restore (config : Config) (entries : List (String × String)) : Except RuleError Engine :=
  entries.foldlM restoreEntry (new config)

theorem mem_snapshot_iff {text : String} :
    (id, text) ∈ e.snapshot ↔ ∃ tree, e.rule? id = some tree ∧ tree.write = text := by
  rw [snapshot, List.mem_filterMap]
  constructor
  · rintro ⟨name, -, hentry⟩
    obtain ⟨tree, hrule, heq⟩ := Option.map_eq_some_iff.mp hentry
    cases heq
    exact ⟨tree, hrule, rfl⟩
  · rintro ⟨tree, hrule, rfl⟩
    refine ⟨id, mem_ids_iff.mpr (by rw [hrule]; nofun), ?_⟩
    rw [hrule]
    rfl

/-- The names of a snapshot are those of the engine. -/
theorem map_fst_snapshot (e : Engine) : e.snapshot.map Prod.fst = e.ids := by
  rw [snapshot, List.map_filterMap]
  refine (List.filterMap_congr fun id hid => ?_).trans List.filterMap_some
  obtain ⟨tree, hrule⟩ := Option.ne_none_iff_exists'.mp (mem_ids_iff.mp hid)
  rw [hrule]
  rfl

/-! ## Handing in -/

/-- An entry that reads as a tree within the limit is handed in. -/
theorem restoreEntry_of_ofText (id : String) {text : String} (hread : Tree.ofText text = .ok tree)
    (hdepth : tree.depth ≤ e.config.maxDepth) :
    e.restoreEntry (id, text) = .ok { e with rules := e.rules.insert id tree } := by
  rw [restoreEntry, hread]
  show (match e.insert tree id with
    | (.ok _, after) => Except.ok after
    | (.error err, _) => Except.error err) = _
  rw [insert_of_depth_le hdepth]

/-- Entries of the snapshot of an engine are all handed in, and their names then have the trees that
they have in that engine. -/
theorem exists_foldlM_restoreEntry {source : Engine}
    (hsource : ∀ id tree, source.rule? id = some tree →
      tree.IsRead ∧ tree.depth ≤ Json.maxNesting ∧ tree.depth ≤ e.config.maxDepth)
    {entries : List (String × String)} (hentries : ∀ entry ∈ entries, entry ∈ source.snapshot) :
    ∃ after, entries.foldlM restoreEntry e = .ok after ∧ after.config = e.config ∧
      ∀ id, after.rule? id =
        if id ∈ entries.map Prod.fst then source.rule? id else e.rule? id := by
  induction entries generalizing e with
  | nil => exact ⟨e, rfl, rfl, fun id => by simp⟩
  | cons entry entries ih =>
    obtain ⟨name, text⟩ := entry
    obtain ⟨tree, hrule, rfl⟩ := mem_snapshot_iff.mp (hentries _ (List.mem_cons_self ..))
    obtain ⟨hisRead, hnesting, hdepth⟩ := hsource name tree hrule
    obtain ⟨after, hafter, hconfig, hrules⟩ :=
      ih (e := { e with rules := e.rules.insert name tree }) hsource
        fun entry hentry => hentries entry (List.mem_cons_of_mem _ hentry)
    refine ⟨after, ?_, hconfig, fun id => ?_⟩
    · rw [List.foldlM_cons, restoreEntry_of_ofText name (hisRead.ofText_write hnesting) hdepth]
      exact hafter
    · rw [hrules id, List.map_cons]
      by_cases hlater : id ∈ entries.map Prod.fst
      · rw [if_pos hlater, if_pos (List.mem_cons_of_mem _ hlater)]
      · rw [if_neg hlater, rule?, Std.ExtTreeMap.getElem?_insert]
        by_cases hname : name = id
        · subst hname
          simp [hrule]
        · simp [hname, Ne.symm hname, hlater, rule?]

/-! ## Where trees come from -/

/-- A tree that an engine keeps under a name was there from the start, is what a rule parses to, or
has been handed in. -/
theorem origin_of_rule?_run (h : e.CacheAgrees) {history : List (Nat × Request)}
    (hrule : (e.run history).2.rule? id = some tree) :
    e.rule? id = some tree ∨ (∃ rule, e.config.parseRule rule = .ok tree) ∨
      ∃ pick, (pick, .insert tree id) ∈ history ∧ tree.depth ≤ e.config.maxDepth := by
  induction history generalizing e with
  | nil => exact Or.inl hrule
  | cons entry history ih =>
    obtain ⟨pick, request⟩ := entry
    have horigin := ih (h.handle pick request) hrule
    rw [config_handle, rule?_handle_iff] at horigin
    rcases horigin with (hkept | ⟨-, hold⟩) | hparse | ⟨pick', hmem, hdepth⟩
    · rcases kept?_handle_cases hkept with ⟨rule, -, hbuild⟩ | ⟨rfl, hdepth⟩
      · rw [build_eq_parseRule h] at hbuild
        exact Or.inr (Or.inl ⟨rule, hbuild⟩)
      · exact Or.inr (Or.inr ⟨pick, List.mem_cons_self .., hdepth⟩)
    · exact Or.inl hold
    · exact Or.inr (Or.inl hparse)
    · exact Or.inr (Or.inr ⟨pick', List.mem_cons_of_mem _ hmem, hdepth⟩)

/-- The conditions of all trees that an engine keeps have been read from text, if this is so of the
trees that were handed in. -/
theorem isRead_of_rule?_run {config : Config} {history : List (Nat × Request)}
    (hread : ∀ pick tree id, (pick, .insert tree id) ∈ history →
      tree.depth ≤ config.maxDepth → tree.IsRead)
    (hrule : ((new config).run history).2.rule? id = some tree) : tree.IsRead := by
  rcases origin_of_rule?_run (cacheAgrees_new config) hrule with
    hnew | ⟨rule, hparse⟩ | ⟨pick, hmem, hdepth⟩
  · rw [rule?, new, Std.ExtTreeMap.getElem?_empty] at hnew
    cases hnew
  · exact Config.isRead_of_parseRule hparse
  · exact hread pick tree id hmem hdepth

/-- Take down the rules of an engine with their names, and hand them in to a new engine of the same
configuration, in any order.  If the depth limit is one that stored trees can have, and the
conditions of all trees that were handed in to the first engine have been read from text, then
nothing fails on the way, and the second engine has the names and the trees of the first and answers
as the first does. -/
theorem restore_snapshot (config : Config) (hmax : config.maxDepth ≤ 127)
    (history : List (Nat × Request))
    (hread : ∀ pick tree id, (pick, .insert tree id) ∈ history →
      tree.depth ≤ config.maxDepth → tree.IsRead) :
    let e := ((new config).run history).2
    e.snapshot.map Prod.fst = e.ids ∧
      ∀ entries, entries.Perm e.snapshot → ∃ restored, restore config entries = .ok restored ∧
        restored.ids = e.ids ∧ (∀ id, restored.rule? id = e.rule? id) ∧
        (∀ record id, restored.evaluateRule record id = e.evaluateRule record id) ∧
        ∀ connective? ids, restored.combine connective? ids = e.combine connective? ids := by
  intro e
  have hconfig : e.config = config := config_run (new config) history
  have hbounded : e.Bounded := (bounded_new config).run history
  refine ⟨map_fst_snapshot e, fun entries hperm => ?_⟩
  have hsource : ∀ id tree, e.rule? id = some tree →
      tree.IsRead ∧ tree.depth ≤ Json.maxNesting ∧ tree.depth ≤ (new config).config.maxDepth := by
    intro id tree hrule
    have hdepth : tree.depth ≤ config.maxDepth := hconfig ▸ hbounded.depth_le id tree hrule
    exact ⟨isRead_of_rule?_run hread hrule, hdepth.trans hmax, hdepth⟩
  obtain ⟨restored, hrestored, hsame, hrules⟩ :=
    exists_foldlM_restoreEntry hsource fun entry hentry => hperm.mem_iff.mp hentry
  have hrule : ∀ id, restored.rule? id = e.rule? id := by
    intro id
    have hnames : id ∈ entries.map Prod.fst ↔ e.rule? id ≠ none := by
      rw [(hperm.map Prod.fst).mem_iff, map_fst_snapshot, mem_ids_iff]
    rw [hrules id]
    by_cases hnone : e.rule? id = none
    · rw [if_neg (by rw [hnames, hnone]; simp), hnone, rule?, new, Std.ExtTreeMap.getElem?_empty]
    · rw [if_pos (hnames.mpr hnone)]
  have hmap : restored.rules = e.rules := Std.ExtTreeMap.ext_getElem? hrule
  have hlookup : restored.lookup = e.lookup := funext fun id => by rw [lookup, lookup, hrule]
  refine ⟨restored, hrestored, ?_, hrule, fun record id => ?_, fun connective? ids => ?_⟩
  · rw [ids, ids, hmap]
  · rw [evaluateRule, evaluateRule, hlookup]
  · rw [combine, combine, hlookup, hsame, hconfig]
    rfl

/-- A rule and a tree with a quote in its text, put up again in the other order. -/
theorem restore_snapshot_reverse :
    let history : List (Nat × Request) :=
      [(0, .register "b" "a='x' OR c='y'"), (0, .insert (.leaf quotedCondition) "a")]
    let e := ((new .default).run history).2
    e.ids = ["a", "b"] ∧ ∃ restored, restore .default e.snapshot.reverse = .ok restored ∧
      restored.ids = ["a", "b"] ∧ restored.rule? "a" = some (.leaf quotedCondition) := by
  intro history e
  have hids : e.ids = ["a", "b"] := by decide +kernel
  have hread : ∀ pick tree id, (pick, .insert tree id) ∈ history →
      tree.depth ≤ Config.default.maxDepth → tree.IsRead := by
    intro pick tree id hmem _ c hc
    obtain ⟨-, rfl, -⟩ : pick = 0 ∧ tree = .leaf quotedCondition ∧ id = "a" := by
      simpa [history] using hmem
    rw [List.mem_singleton.mp hc]
    exact ⟨_, ofString_quotedCondition⟩
  obtain ⟨-, hrestore⟩ := restore_snapshot .default (by decide) history hread
  obtain ⟨restored, hrestored, hsame, hrule, -⟩ := hrestore _ (List.reverse_perm e.snapshot)
  exact ⟨hids, restored, hrestored, hsame.trans hids, (hrule "a").trans (by decide +kernel)⟩

end Engine

end Rulebook
