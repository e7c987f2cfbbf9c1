import Rulebook.Json.RoundTrip
import Rulebook.Proofs.ConditionText
import Rulebook.Proofs.JsonTokens
import Rulebook.Stored.Json
import Rulebook.Tree.Combine

/-!
# Reading stored trees back

A tree is written as one JSON object for each of its nodes, an object inside the object of the node
above.  So the objects are nested as deeply as the tree is high, and a reader that allows so many
open objects and no more reads exactly the trees up to this depth.  What is read is a stored node,
whose texts have to be read again; the text kept with a condition reads as the same condition, so
nothing of the tree is lost.

* `StoredNode.nesting_tokens`: the nesting of a stored node is its depth.
* `StoredNode.ofText_write`: the text of a stored node reads as this node or is nested too deeply.
* `StoredNode.toTree_ofTree`: a stored tree is the tree.
* `Tree.IsRead`: what `toTree_ofTree` asks of a tree, and what all trees from stored nodes have.
* `Tree.ofText_write_of_conditions`: the text of a tree reads as this tree or is nested too deeply.
-/

namespace Rulebook

namespace StoredNode

/-- The height. -/
def depth : StoredNode → Nat
  | operand _ => 1
  | operator _ left right => 1 + max left.depth right.depth

@[simp] theorem depth_ofTree (t : Tree) : (ofTree t).depth = t.depth := by
  induction t with
  | leaf => rfl
  | node _ _ _ ihl ihr => rw [ofTree_node, depth, ihl, ihr, Tree.depth]

/-! ## The tokens of a node -/

/-- Each node is an object of its own, inside the object of the node above. -/
theorem height_toJson (node : StoredNode) : node.toJson.height = node.depth := by
  induction node with
  | operand value => rfl
  | operator value left right ihl ihr =>
    simp only [toJson, Json.height, Json.membersHeight, ihl, ihr, depth]
    omega

theorem nesting_tokens (node : StoredNode) : Json.nesting node.toJson.tokens = node.depth := by
  rw [Json.nesting_tokens, height_toJson]

/-- No numbers stand in a node. -/
theorem number_notMem_tokens (node : StoredNode) (n : Decimal.Numeral) :
    .number n ∉ node.toJson.tokens := by
  induction node with
  | operand value => simp [toJson, Json.tokens, Json.memberTokens, Json.moreMemberTokens]
  | operator value left right ihl ihr =>
    simp [toJson, Json.tokens, Json.memberTokens, Json.moreMemberTokens, ihl, ihr]

/-! ## Reading -/

/-- The text of a node reads as its JSON value if the node is not too high. -/
theorem read?_writeChars_toJson (node : StoredNode) :
    Json.read? node.toJson.writeChars =
      if node.depth ≤ Json.maxNesting then some node.toJson else none := by
  have hnumerals : Json.HasNumerals node.toJson.tokens :=
    fun n hn => absurd hn (number_notMem_tokens node n)
  have hstrict : (node.toJson.tokens.map Json.Token.written).mapM Json.Token.strict? =
      some node.toJson.tokens :=
    Json.mapM_strict?_written fun n hn => absurd hn (number_notMem_tokens node n)
  simp only [Json.read?, Json.lex?_writeChars hnumerals, Option.bind_eq_bind, Option.bind_some,
    hstrict, nesting_tokens, Json.ofTokens?_tokens]

/-- The text of a node reads as the node if it is not too high. -/
theorem ofText_write (node : StoredNode) :
    ofText node.write =
      if node.depth ≤ Json.maxNesting then .ok node else .error .deserialization := by
  rw [ofText, write, Json.write, String.toList_ofList, read?_writeChars_toJson]
  by_cases hdepth : node.depth ≤ Json.maxNesting
  · rw [if_pos hdepth, if_pos hdepth, Option.bind_some, ofJson?_toJson]
  · rw [if_neg hdepth, if_neg hdepth, Option.bind_none]

/-- The stored form of a tree describes the tree, if its conditions have been read from text. -/
theorem toTree_ofTree {t : Tree}
    (h : ∀ c ∈ t.conditions, ∃ s, Condition.ofString s = .ok c) : (ofTree t).toTree = .ok t := by
  induction t with
  | leaf c =>
    obtain ⟨s, hs⟩ := h c (List.mem_singleton_self c)
    rw [ofTree_leaf, toTree, ofString_raw hs]
    rfl
  | node k left right ihl ihr =>
    have hleft := ihl fun c hc => h c (List.mem_append_left _ hc)
    have hright := ihr fun c hc => h c (List.mem_append_right _ hc)
    have hkeyword : Connective.read k.keyword = .ok k := by
      rw [Connective.read, Connective.ofKeyword?_keyword]
    rw [ofTree_node, toTree, hkeyword, hleft, hright]
    rfl

end StoredNode

/-! ## Trees -/

/-- All conditions of the tree have been read from text. -/
def Tree.IsRead (t : Tree) : Prop := ∀ c ∈ t.conditions, ∃ s, Condition.ofString s = .ok c

/-- The text of a tree reads as the tree, if stored trees may be so deep. -/
theorem Tree.IsRead.ofText_write {t : Tree} (h : t.IsRead) (hdepth : t.depth ≤ Json.maxNesting) :
    Tree.ofText t.write = .ok t := by
  rw [Tree.ofText, Tree.write, StoredNode.ofText_write, StoredNode.depth_ofTree, if_pos hdepth]
  exact StoredNode.toTree_ofTree h

/-- Whatever tree stored nodes describe, its conditions have been read from text. -/
theorem StoredNode.isRead_of_toTree {node : StoredNode} {t : Tree} (h : node.toTree = .ok t) :
    t.IsRead := by
  induction node generalizing t with
  | operand value =>
    rw [toTree] at h
    rcases hread : Condition.ofString value with err | c
    · rw [hread] at h
      cases h
    · rw [hread] at h
      cases h
      intro d hd
      rw [List.mem_singleton.mp hd]
      exact ⟨value, hread⟩
  | operator value left right ihl ihr =>
    rw [toTree] at h
    obtain ⟨k, -, h⟩ := exists_of_bind_eq_ok h
    obtain ⟨leftTree, hleft, h⟩ := exists_of_bind_eq_ok h
    obtain ⟨rightTree, hright, h⟩ := exists_of_bind_eq_ok h
    cases h
    intro d hd
    exact (List.mem_append.mp hd).elim (ihl hleft d) (ihr hright d)

/-- A condition whose text holds a quote, a backslash and a line feed. -/
def quotedCondition : Condition :=
  ⟨"name", .equal, .text "O'Brien \\ \n", "name = \x22O'Brien \\ \n\x22"⟩

theorem ofString_quotedCondition :
    Condition.ofString quotedCondition.raw = .ok quotedCondition :=
  read_eq_ok_iff.mpr (by decide)

/-- The text of a tree reads as the tree, with all that its conditions hold, if at most 127 objects
are nested in it; otherwise the text cannot be read. -/
theorem Tree.ofText_write_of_conditions (t : Tree)
    (h : ∀ c ∈ t.conditions, ∃ s, Condition.ofString s = .ok c) :
    (t.depth ≤ 127 → Tree.ofText t.write = .ok t) ∧
      (128 ≤ t.depth → Tree.ofText t.write = .error .deserialization) := by
  have htext : Tree.ofText t.write =
      if t.depth ≤ Json.maxNesting then .ok t else .error .deserialization := by
    rw [Tree.ofText, Tree.write, StoredNode.ofText_write, StoredNode.depth_ofTree]
    by_cases hdepth : t.depth ≤ Json.maxNesting
    · rw [if_pos hdepth, if_pos hdepth]
      exact StoredNode.toTree_ofTree h
    · rw [if_neg hdepth, if_neg hdepth]
      rfl
  rw [htext]
  refine ⟨fun hdepth => if_pos hdepth, fun hdepth => if_neg ?_⟩
  have hmax : Json.maxNesting = 127 := rfl
  omega

/-- A single condition is read back, and 128 of them in a chain are not. -/
theorem Tree.ofText_write_quotedCondition :
    Tree.ofText (Tree.leaf quotedCondition).write = .ok (Tree.leaf quotedCondition) ∧
      Tree.ofText (Tree.join .and (.leaf quotedCondition)
        (List.replicate 127 (.leaf quotedCondition))).write = .error .deserialization := by
  constructor
  · refine (Tree.ofText_write_of_conditions _ fun c hc => ?_).1 (by decide)
    rw [List.mem_singleton.mp hc]
    exact ⟨_, ofString_quotedCondition⟩
  · refine (Tree.ofText_write_of_conditions _ fun c hc => ?_).2 (by decide +kernel)
    have hall : ∀ d ∈ (Tree.join .and (.leaf quotedCondition)
        (List.replicate 127 (.leaf quotedCondition))).conditions, d = quotedCondition := by
      decide +kernel
    rw [hall c hc]
    exact ⟨_, ofString_quotedCondition⟩

end Rulebook
