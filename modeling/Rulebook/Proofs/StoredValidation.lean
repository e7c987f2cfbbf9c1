import Rulebook.Proofs.StoredRoundTrip

/-!
# What is checked in a stored tree

Stored nodes are not trusted, and turning them into a tree is a check of each of them by its own
text: an operator must hold the word of a connective, an operand the text of a condition.  The nodes
are met in preorder, an operator before the two parts it joins and the left part before the right,
and the first one that fails the check gives the error.  Nothing else can go wrong, and nothing but
the blanks around conditions gets lost.

For trees in JSON text the depth has to be looked at as well.  Each node is read from a container of
its own, so a text that has been read is nested at least as deeply as its tree, and what is written
for the tree is then not nested too deeply to be read again.

* `preorder`, `IsSound`, `fault`: the nodes in the order in which they are met, and the check.
* `toTree_of_firstUnsound?`, `exists_toTree_of_firstUnsound?_eq_none`: the outcome from the first
  node that fails.
* `depth_le_height_of_ofJson?`: a stored node is at most as deep as the JSON value it comes from.
* `toTree_checks_preorder`: all of this as one statement.
-/

namespace Rulebook

open Text (trim)

namespace StoredNode

/-! ## The check of a node -/

/-- A node and all nodes below it: an operator before the parts it joins, left before right. -/
def preorder : StoredNode → List StoredNode
  | operand value => [operand value]
  | operator value left right => operator value left right :: (left.preorder ++ right.preorder)

/-- The text of the node itself can be read. -/
def IsSound : StoredNode → Prop
  | operand value => ∃ c, Condition.ofString value = .ok c
  | operator value _ _ => value = "AND" ∨ value = "OR"

instance : DecidablePred IsSound
  | operand value =>
    match h : Condition.ofString value with
    | .ok c => isTrue ⟨c, h⟩
    | .error e => isFalse fun ⟨c, hc⟩ => by rw [h] at hc; cases hc
  | operator value _ _ => inferInstanceAs (Decidable (value = "AND" ∨ value = "OR"))

/-- The error that the text of a node gives if it cannot be read. -/
def fault : StoredNode → RuleError
  | operand value => .condition (.noComparison (String.ofList (trim value.toList)))
  | operator value _ _ => .unknownOperator value

/-- The first node, in preorder, whose text cannot be read. -/
def firstUnsound? (node : StoredNode) : Option StoredNode := node.preorder.find? (¬ ·.IsSound)

/-- The node with the blanks around the texts of its operands cut off. -/
def trimmed : StoredNode → StoredNode
  | operand value => operand (String.ofList (trim value.toList))
  | operator value left right => operator value left.trimmed right.trimmed

@[simp] theorem depth_trimmed (node : StoredNode) : node.trimmed.depth = node.depth := by
  induction node with
  | operand => rfl
  | operator _ _ _ ihl ihr => rw [trimmed, depth, depth, ihl, ihr]

theorem firstUnsound?_eq_none_iff {node : StoredNode} :
    node.firstUnsound? = none ↔ ∀ n ∈ node.preorder, n.IsSound := by
  simp [firstUnsound?]

/-- The operator itself comes first, then its left part, then its right part. -/
theorem firstUnsound?_operator (value : String) (left right : StoredNode) :
    (operator value left right).firstUnsound? =
      if (operator value left right).IsSound then left.firstUnsound?.or right.firstUnsound?
      else some (operator value left right) := by
  by_cases h : (operator value left right).IsSound
  · simp [firstUnsound?, preorder, h]
  · simp [firstUnsound?, preorder, h]

/-! ## The outcome -/

theorem read_of_not_isSound {value : String} {left right : StoredNode}
    (h : ¬ (operator value left right).IsSound) :
    Connective.read value = .error (.unknownOperator value) := by
  have hand : value ≠ "AND" := fun heq => h (Or.inl heq)
  have hor : value ≠ "OR" := fun heq => h (Or.inr heq)
  simp [Connective.read, Connective.ofKeyword?, hand, hor]

theorem exists_read_of_isSound {value : String} {left right : StoredNode}
    (h : (operator value left right).IsSound) :
    ∃ k : Connective, Connective.read value = .ok k ∧ k.keyword = value := by
  rcases h with rfl | rfl
  · exact ⟨.and, rfl, rfl⟩
  · exact ⟨.or, rfl, rfl⟩

/-- If no text is refused, there is a tree, and its stored form is the node up to blanks. -/
theorem exists_toTree_of_firstUnsound?_eq_none {node : StoredNode}
    (h : node.firstUnsound? = none) :
    ∃ t, node.toTree = .ok t ∧ ofTree t = node.trimmed := by
  induction node with
  | operand value =>
    obtain ⟨c, hc⟩ := firstUnsound?_eq_none_iff.mp h _ (List.mem_singleton_self _)
    refine ⟨.leaf c, by rw [toTree, hc]; rfl, ?_⟩
    rw [ofTree_leaf, raw_of_read hc, trimmed]
  | operator value left right ihl ihr =>
    rw [firstUnsound?_operator] at h
    split at h
    · next hsound =>
      obtain ⟨hleft, hright⟩ := Option.or_eq_none_iff.mp h
      obtain ⟨k, hk, rfl⟩ := exists_read_of_isSound hsound
      obtain ⟨leftTree, hleftTree, hleftNode⟩ := ihl hleft
      obtain ⟨rightTree, hrightTree, hrightNode⟩ := ihr hright
      refine ⟨.node k leftTree rightTree, ?_, ?_⟩
      · rw [toTree, hk, hleftTree, hrightTree]
        rfl
      · rw [ofTree_node, hleftNode, hrightNode, trimmed]
    · cases h

/-- The first text that is refused gives the error. -/
theorem toTree_of_firstUnsound? {node bad : StoredNode} (h : node.firstUnsound? = some bad) :
    node.toTree = .error bad.fault := by
  induction node with
  | operand value =>
    obtain rfl : bad = operand value := List.mem_singleton.mp (List.mem_of_find?_eq_some h)
    have hunsound : ¬ (operand value).IsSound := by simpa using List.find?_some h
    rcases hread : Condition.ofString value with err | c
    · rw [toTree, hread, eq_of_read_eq_error hread]
      rfl
    · exact absurd ⟨c, hread⟩ hunsound
  | operator value left right ihl ihr =>
    rw [firstUnsound?_operator] at h
    split at h
    · next hsound =>
      obtain ⟨k, hk, -⟩ := exists_read_of_isSound hsound
      rcases hleft : left.firstUnsound? with _ | badLeft
      · rw [hleft, Option.none_or] at h
        obtain ⟨leftTree, hleftTree, -⟩ := exists_toTree_of_firstUnsound?_eq_none hleft
        rw [toTree, hk, hleftTree, ihr h]
        rfl
      · rw [hleft, Option.some_or] at h
        cases h
        rw [toTree, hk, ihl hleft]
        rfl
    · next hunsound =>
      cases h
      rw [toTree, read_of_not_isSound hunsound]
      rfl

/-! ## Depth -/

/-- The node that a part is, if it is one, is at most so deep. -/
def Part.Within (n : Nat) (p : Part) : Prop := ∀ node, p.node? = some node → node.depth ≤ n

theorem Part.Within.mono {p : Part} {m n : Nat} (h : p.Within m) (hle : m ≤ n) : p.Within n :=
  fun node hnode => Nat.le_trans (h node hnode) hle

theorem depth_operator_le {left right : StoredNode} {n : Nat} (hleft : left.depth ≤ n)
    (hright : right.depth ≤ n) (value : String) : (operator value left right).depth ≤ n + 1 := by
  rw [depth]
  omega

theorem depth_le_of_ofItems? {inner : Bool} {parts : List Part} {node : StoredNode} {n : Nat}
    (hparts : ∀ p ∈ parts, p.Within n) (h : ofItems? inner parts = some node) :
    node.depth ≤ n + 1 := by
  unfold ofItems? at h
  split at h
  · obtain ⟨type, -, h⟩ := Option.bind_eq_some_iff.mp h
    split at h
    · obtain ⟨value, -, h⟩ := Option.bind_eq_some_iff.mp h
      cases h
      exact Nat.le_add_left ..
    · cases h
  · obtain ⟨type, -, h⟩ := Option.bind_eq_some_iff.mp h
    split at h
    · obtain ⟨value, -, h⟩ := Option.bind_eq_some_iff.mp h
      obtain ⟨left, hleft, h⟩ := Option.bind_eq_some_iff.mp h
      obtain ⟨right, hright, h⟩ := Option.bind_eq_some_iff.mp h
      cases h
      exact depth_operator_le (hparts _ (by simp) _ hleft) (hparts _ (by simp) _ hright) value
    · cases h
  · cases h

theorem mem_of_only? {members : List (String × Part)} {key : String} {p : Part}
    (h : only? members key = some p) : (key, p) ∈ members := by
  unfold only? at h
  split at h
  · next key' part hfilter =>
    cases h
    have hmem : (key', p) ∈ members.filter (·.1 = key) := by simp [hfilter]
    obtain ⟨hmem, hkey⟩ := List.mem_filter.mp hmem
    rwa [show key' = key from of_decide_eq_true hkey] at hmem
  · cases h

theorem depth_le_of_ofMembers? {inner : Bool} {members : List (String × Part)}
    {node : StoredNode} {n : Nat} (hmembers : ∀ entry ∈ members, entry.2.Within n)
    (h : ofMembers? inner members = some node) : node.depth ≤ n + 1 := by
  unfold ofMembers? at h
  obtain ⟨typePart, -, h⟩ := Option.bind_eq_some_iff.mp h
  obtain ⟨type, -, h⟩ := Option.bind_eq_some_iff.mp h
  cases type with
  | operand =>
    obtain ⟨valuePart, -, h⟩ := Option.bind_eq_some_iff.mp h
    obtain ⟨value, -, h⟩ := Option.bind_eq_some_iff.mp h
    cases h
    exact Nat.le_add_left ..
  | operator =>
    obtain ⟨valuePart, -, h⟩ := Option.bind_eq_some_iff.mp h
    obtain ⟨value, -, h⟩ := Option.bind_eq_some_iff.mp h
    obtain ⟨leftPart, hleftPart, h⟩ := Option.bind_eq_some_iff.mp h
    obtain ⟨left, hleft, h⟩ := Option.bind_eq_some_iff.mp h
    obtain ⟨rightPart, hrightPart, h⟩ := Option.bind_eq_some_iff.mp h
    obtain ⟨right, hright, h⟩ := Option.bind_eq_some_iff.mp h
    cases h
    exact depth_operator_le (hmembers _ (mem_of_only? hleftPart) _ hleft)
      (hmembers _ (mem_of_only? hrightPart) _ hright) value

mutual

/-- A node is at most as deep as the JSON value that describes it is high. -/
theorem depth_le_height_of_ofJson? {inner : Bool} {node : StoredNode} :
    ∀ v : Json String, ofJson? inner v = some node → node.depth ≤ v.height
  | .array items, h => depth_le_of_ofItems? (within_itemParts items) h
  | .object members, h => depth_le_of_ofMembers? (within_memberParts members) h
  | .null, h | .bool _, h | .number _, h | .string _, h => by simp [ofJson?] at h

theorem within_itemParts : ∀ items : List (Json String),
    ∀ p ∈ itemParts items, p.Within (Json.itemsHeight items)
  | [], p, hp => absurd hp List.not_mem_nil
  | item :: rest, p, hp => by
    rw [itemParts, List.mem_cons] at hp
    rw [Json.itemsHeight]
    rcases hp with rfl | hp
    · exact Part.Within.mono (fun node h => depth_le_height_of_ofJson? item h) (Nat.le_max_left ..)
    · exact (within_itemParts rest p hp).mono (Nat.le_max_right ..)

theorem within_memberParts : ∀ members : List (String × Json String),
    ∀ entry ∈ memberParts members, entry.2.Within (Json.membersHeight members)
  | [], entry, hentry => absurd hentry List.not_mem_nil
  | (key, value) :: rest, entry, hentry => by
    rw [memberParts, List.mem_cons] at hentry
    rw [Json.membersHeight]
    rcases hentry with rfl | hentry
    · exact Part.Within.mono (fun node h => depth_le_height_of_ofJson? value h)
        (Nat.le_max_left ..)
    · exact (within_memberParts rest entry hentry).mono (Nat.le_max_right ..)

end

/-- A node that is read from text is not too deep to be written and read again. -/
theorem depth_le_of_ofText {s : String} {node : StoredNode} (h : ofText s = .ok node) :
    node.depth ≤ Json.maxNesting := by
  unfold ofText at h
  split at h
  · next read hread =>
    cases h
    obtain ⟨v, hv, hnode⟩ := Option.bind_eq_some_iff.mp hread
    exact Nat.le_trans (depth_le_height_of_ofJson? v hnode) (Json.height_le_of_read? hv)
  · cases h

/-! ## The whole tree -/

/-- The stored form of the tree is the node up to blanks. -/
theorem ofTree_of_toTree {node : StoredNode} {t : Tree} (h : node.toTree = .ok t) :
    ofTree t = node.trimmed := by
  rcases hfirst : node.firstUnsound? with _ | bad
  · obtain ⟨t', ht', hnode⟩ := exists_toTree_of_firstUnsound?_eq_none hfirst
    rw [h] at ht'
    cases ht'
    exact hnode
  · rw [toTree_of_firstUnsound? hfirst] at h
    cases h

theorem exists_toTree_iff {node : StoredNode} :
    (∃ t, node.toTree = .ok t) ↔ ∀ n ∈ node.preorder, n.IsSound := by
  rw [← firstUnsound?_eq_none_iff]
  constructor
  · rintro ⟨t, ht⟩
    rcases hfirst : node.firstUnsound? with _ | bad
    · rfl
    · rw [toTree_of_firstUnsound? hfirst] at ht
      cases ht
  · intro hfirst
    obtain ⟨t, ht, -⟩ := exists_toTree_of_firstUnsound?_eq_none hfirst
    exact ⟨t, ht⟩

/-- Every error is that of a node. -/
theorem exists_fault_of_toTree {node : StoredNode} {e : RuleError} (h : node.toTree = .error e) :
    ∃ bad : StoredNode, e = bad.fault := by
  rcases hfirst : node.firstUnsound? with _ | bad
  · obtain ⟨t, ht, -⟩ := exists_toTree_of_firstUnsound?_eq_none hfirst
    rw [h] at ht
    cases ht
  · rw [toTree_of_firstUnsound? hfirst] at h
    cases h
    exact ⟨bad, rfl⟩

end StoredNode

/-- A tree that has been read from text can be written and read again. -/
theorem Tree.ofText_write_of_ofText {s : String} {t : Tree} (h : Tree.ofText s = .ok t) :
    Tree.ofText t.write = .ok t := by
  obtain ⟨node, hnode, htree⟩ := exists_of_bind_eq_ok h
  have hdepth : t.depth ≤ Json.maxNesting := by
    rw [← StoredNode.depth_ofTree, StoredNode.ofTree_of_toTree htree, StoredNode.depth_trimmed]
    exact StoredNode.depth_le_of_ofText hnode
  exact (StoredNode.isRead_of_toTree htree).ofText_write hdepth

namespace StoredNode

/-- Stored nodes describe a tree exactly if each operator holds the word of a connective and each
operand the text of a condition.  Otherwise the first node in preorder that does not gives the
error.  The stored form of the tree is what was stored, with the blanks around the texts of the
operands cut off; so a tree that has been read from text is read again from its own text. -/
theorem toTree_checks_preorder (node : StoredNode) :
    ((∃ t, node.toTree = .ok t) ↔ ∀ n ∈ node.preorder, n.IsSound) ∧
      (∀ bad, node.firstUnsound? = some bad → node.toTree = .error bad.fault) ∧
      (∀ t, node.toTree = .ok t → ofTree t = node.trimmed) ∧
      ∀ s t, Tree.ofText s = .ok t → Tree.ofText t.write = .ok t :=
  ⟨exists_toTree_iff, fun _ => toTree_of_firstUnsound?, fun _ => ofTree_of_toTree,
    fun _ _ => Tree.ofText_write_of_ofText⟩

/-- A tree as an array, with an object in it that names its type last and has a member that nobody
asks for, and with an array in it that gives its type by number. -/
def mixedForms : Json String :=
  .array [.string "operator", .string "OR",
    .object [("value", .string " a>1\n"), ("note", .null), ("type", .string "operand")],
    .array [.number (.ofNat 0), .string "b = ' c '"]]

theorem read?_mixedForms : Json.read? mixedForms.write.toList = some mixedForms := by
  have hnumber : ∀ n, .number n ∈ mixedForms.tokens → n = .ofNat 0 := by
    intro n hn
    simpa [mixedForms, Json.tokens, Json.itemTokens, Json.moreItemTokens, Json.memberTokens,
      Json.moreMemberTokens] using hn
  rw [Json.write, String.toList_ofList]
  refine Json.read?_writeChars (fun n hn => ?_) (fun n hn => ?_) (by decide)
  · rw [hnumber n hn]
    exact ⟨Decimal.Numeral.isNumeric_ofNat 0, by decide⟩
  · rw [hnumber n hn]
    decide +kernel

theorem ofText_mixedForms : ofText mixedForms.write =
    .ok (operator "OR" (operand " a>1\n") (operand "b = ' c '")) := by
  rw [ofText, read?_mixedForms]
  rfl

/-- Of three texts that cannot be read, the word of the inner operator comes first.  A text without
faults loses nothing but blanks, in whatever form it is given. -/
theorem toTree_checks_preorder_three_faults :
    (operator "AND" (operator "and" (operand "a") (operand "b=1")) (operand "c")).toTree =
        .error (.unknownOperator "and") ∧
      ∃ t, Tree.ofText mixedForms.write = .ok t ∧
        ofTree t = operator "OR" (operand "a>1") (operand "b = ' c '") ∧
        Tree.ofText t.write = .ok t := by
  obtain ⟨-, hfault, -⟩ := toTree_checks_preorder
    (operator "AND" (operator "and" (operand "a") (operand "b=1")) (operand "c"))
  refine ⟨hfault (operator "and" (operand "a") (operand "b=1")) (by decide), ?_⟩
  obtain ⟨hok, -, hform, hagain⟩ :=
    toTree_checks_preorder (operator "OR" (operand " a>1\n") (operand "b = ' c '"))
  obtain ⟨t, ht⟩ := hok.mpr (by decide)
  have htext : Tree.ofText mixedForms.write = .ok t := by
    rw [Tree.ofText, ofText_mixedForms]
    exact ht
  exact ⟨t, htext, (hform t ht).trans (by decide), hagain _ t htext⟩

end StoredNode

end Rulebook
