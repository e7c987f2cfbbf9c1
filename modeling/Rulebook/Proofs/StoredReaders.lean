import Rulebook.Proofs.StoredValidation

/-!
# Three ways to read a stored tree

A stored tree can be read from JSON text in one go, or from a JSON value into which the text has
been read first, or by a caller who is only told that there is no tree.  The value is the doubtful
case: an object in it is a map, which keeps the last one of repeated keys and no order.

Reading a node looks members up by their keys, so their order does not matter, neither here nor in
the parts (`Reorders.ofJson?_eq`).  What it sees of a part is little: the text or the number that
the part is, or else the node that it describes (`Part.seen`); so a part may be replaced by another
one with the same node.  Where no object repeats a key, nothing gets lost in a map either
(`withLastMembers_eq_self`), and all ways lead to the same tree or the same error.

* `Json.KeysOnce`: no object repeats a key.
* `Json.Reorders`: two values that differ in the order of members only.
* `Tree.ofValue_eq_ofText`: a text and the value that it reads as.
* `Tree.readers_agree`: all three ways, with the errors that there are.
-/

namespace Rulebook

namespace Json

/-! ## Keys -/

section KeysOnce

variable {σ : Type}

mutual

/-- No object repeats a key, neither the value nor any of its parts. -/
def KeysOnce : Json σ → Prop
  | array items => ItemsKeysOnce items
  | object members => (members.map Prod.fst).Nodup ∧ MembersKeysOnce members
  | _ => True

/-- No object in the items of an array repeats a key. -/
def ItemsKeysOnce : List (Json σ) → Prop
  | [] => True
  | item :: rest => item.KeysOnce ∧ ItemsKeysOnce rest

/-- No object under the keys of an object repeats a key. -/
def MembersKeysOnce : List (σ × Json σ) → Prop
  | [] => True
  | (_, value) :: rest => value.KeysOnce ∧ MembersKeysOnce rest

end

theorem itemsKeysOnce_iff {items : List (Json σ)} :
    ItemsKeysOnce items ↔ ∀ item ∈ items, item.KeysOnce := by
  induction items with
  | nil => simp [ItemsKeysOnce]
  | cons item rest ih => rw [ItemsKeysOnce, ih, List.forall_mem_cons]

theorem membersKeysOnce_iff {members : List (σ × Json σ)} :
    MembersKeysOnce members ↔ ∀ entry ∈ members, entry.2.KeysOnce := by
  induction members with
  | nil => simp [MembersKeysOnce]
  | cons entry rest ih => rw [MembersKeysOnce, ih, List.forall_mem_cons]

variable [DecidableEq σ]

theorem lastMembers_eq_self {members : List (σ × Json σ)} (h : (members.map Prod.fst).Nodup) :
    lastMembers members = members := by
  induction members with
  | nil => rfl
  | cons entry rest ih =>
    obtain ⟨key, value⟩ := entry
    rw [List.map_cons, List.nodup_cons] at h
    obtain ⟨hkey, hrest⟩ := h
    have hlater : ¬ rest.any (·.1 = key) = true := by
      rw [List.any_eq_true]
      rintro ⟨⟨other, w⟩, hmem, heq⟩
      exact hkey (List.mem_map.mpr ⟨(other, w), hmem, of_decide_eq_true heq⟩)
    rw [lastMembers, if_neg hlater, ih hrest]

mutual

/-- Where no key is repeated, each member is the last one of its key. -/
theorem withLastMembers_eq_self : ∀ v : Json σ, v.KeysOnce → v.withLastMembers = v
  | .null, _ | .bool _, _ | .number _, _ | .string _, _ => rfl
  | .array items, h => by rw [withLastMembers, itemsWithLastMembers_eq_self items h]
  | .object members, h => by
    rw [withLastMembers, membersWithLastMembers_eq_self members h.2, lastMembers_eq_self h.1]

theorem itemsWithLastMembers_eq_self : ∀ items : List (Json σ), ItemsKeysOnce items →
    itemsWithLastMembers items = items
  | [], _ => rfl
  | item :: rest, h => by
    rw [itemsWithLastMembers, withLastMembers_eq_self item h.1,
      itemsWithLastMembers_eq_self rest h.2]

theorem membersWithLastMembers_eq_self : ∀ members : List (σ × Json σ), MembersKeysOnce members →
    membersWithLastMembers members = members
  | [], _ => rfl
  | (_, value) :: rest, h => by
    rw [membersWithLastMembers, withLastMembers_eq_self value h.1,
      membersWithLastMembers_eq_self rest h.2]

end

end KeysOnce

/-! ## Order -/

/-- Two values differ at most in the order of the members of objects, at the top or in parts. -/
inductive Reorders {σ : Type} : Json σ → Json σ → Prop
  | refl (v : Json σ) : Reorders v v
  | trans {u v w : Json σ} : Reorders u v → Reorders v w → Reorders u w
  | perm {members members' : List (σ × Json σ)} :
    members.Perm members' → Reorders (.object members) (.object members')
  | item {v w : Json σ} (before after : List (Json σ)) :
    Reorders v w → Reorders (.array (before ++ v :: after)) (.array (before ++ w :: after))
  | member {v w : Json σ} (before after : List (σ × Json σ)) (key : σ) :
    Reorders v w →
      Reorders (.object (before ++ (key, v) :: after)) (.object (before ++ (key, w) :: after))

/-- Whether a value has parts. -/
def isContainer {σ : Type} : Json σ → Bool
  | .array _ | .object _ => true
  | _ => false

namespace Reorders

variable {σ : Type} {v w : Json σ}

/-- Values without parts are not changed. -/
theorem eq_or_isContainer (h : Reorders v w) :
    v = w ∨ v.isContainer = true ∧ w.isContainer = true := by
  induction h with
  | refl v => exact Or.inl rfl
  | trans _ _ ih ih' =>
    rcases ih with rfl | ⟨hu, hv⟩
    · exact ih'
    · rcases ih' with rfl | ⟨-, hw⟩
      · exact Or.inr ⟨hu, hv⟩
      · exact Or.inr ⟨hu, hw⟩
  | perm | item | member => exact Or.inr ⟨rfl, rfl⟩

theorem keysOnce (h : Reorders v w) (hv : v.KeysOnce) : w.KeysOnce := by
  induction h with
  | refl => exact hv
  | trans _ _ ih ih' => exact ih' (ih hv)
  | perm hperm =>
    rw [KeysOnce, membersKeysOnce_iff] at hv ⊢
    exact ⟨(hperm.map Prod.fst).nodup_iff.mp hv.1, fun entry hentry =>
      hv.2 entry (hperm.mem_iff.mpr hentry)⟩
  | item before after _ ih =>
    rw [KeysOnce, itemsKeysOnce_iff, List.forall_mem_append, List.forall_mem_cons] at hv ⊢
    exact ⟨hv.1, ih hv.2.1, hv.2.2⟩
  | member before after key _ ih =>
    rw [KeysOnce, membersKeysOnce_iff, List.forall_mem_append, List.forall_mem_cons,
      List.map_append, List.map_cons] at hv ⊢
    exact ⟨hv.1, hv.2.1, ih hv.2.2.1, hv.2.2.2⟩

end Reorders

end Json

/-! ## What a reader sees -/

namespace StoredNode

/-- An item of an array or a member of an object as a part. -/
def part (v : Json String) : Part := ⟨v, ofJson? true v⟩

theorem itemParts_eq_map (items : List (Json String)) : itemParts items = items.map part := by
  induction items with
  | nil => rfl
  | cons item rest ih => rw [itemParts, ih, List.map_cons, part]

theorem memberParts_eq_map (members : List (String × Json String)) :
    memberParts members = members.map (Prod.map id part) := by
  induction members with
  | nil => rfl
  | cons entry rest ih => rw [memberParts, ih, List.map_cons, Prod.map_apply, id, part]

/-- What is seen of a part: a value without parts itself, and otherwise only the node. -/
def Part.seen (p : Part) : Part := if p.value.isContainer then ⟨.null, p.node?⟩ else p

@[simp] theorem node?_seen (p : Part) : p.seen.node? = p.node? := by
  unfold Part.seen
  split <;> rfl

@[simp] theorem text?_seen (p : Part) : p.seen.text? = p.text? := by
  obtain ⟨value, node?⟩ := p
  cases value <;> rfl

@[simp] theorem type_seen (inner : Bool) (p : Part) :
    NodeType.ofJson? inner p.seen.value = NodeType.ofJson? inner p.value := by
  obtain ⟨value, node?⟩ := p
  cases value <;> rfl

theorem ofItems?_map_seen (inner : Bool) (parts : List Part) :
    ofItems? inner (parts.map Part.seen) = ofItems? inner parts := by
  match parts with
  | [] | [_] | [_, _, _] | _ :: _ :: _ :: _ :: _ :: _ => rfl
  | [type, value] => simp [ofItems?]
  | [type, value, left, right] => simp [ofItems?]

/-- Items of which the same is seen describe the same node. -/
theorem ofItems?_congr {parts parts' : List Part}
    (h : parts.map Part.seen = parts'.map Part.seen) (inner : Bool) :
    ofItems? inner parts = ofItems? inner parts' := by
  rw [← ofItems?_map_seen, h, ofItems?_map_seen]

theorem only?_map_seen (members : List (String × Part)) (key : String) :
    only? (members.map (Prod.map id Part.seen)) key = (only? members key).map Part.seen := by
  have hfilter : (members.map (Prod.map id Part.seen)).filter (·.1 = key) =
      (members.filter (·.1 = key)).map (Prod.map id Part.seen) := by
    rw [List.filter_map]
    rfl
  rw [only?, only?, hfilter]
  generalize members.filter (·.1 = key) = found
  rcases found with _ | ⟨entry, _ | ⟨second, rest⟩⟩ <;> rfl

theorem ofMembers?_map_seen (inner : Bool) (members : List (String × Part)) :
    ofMembers? inner (members.map (Prod.map id Part.seen)) = ofMembers? inner members := by
  simp only [ofMembers?, only?_map_seen, Option.pure_def, Option.bind_eq_bind, Option.bind_map,
    Function.comp_def, text?_seen, node?_seen, type_seen]

/-- Members with the same keys, of whose values the same is seen, describe the same node. -/
theorem ofMembers?_congr {members members' : List (String × Part)}
    (h : members.map (Prod.map id Part.seen) = members'.map (Prod.map id Part.seen))
    (inner : Bool) : ofMembers? inner members = ofMembers? inner members' := by
  rw [← ofMembers?_map_seen, h, ofMembers?_map_seen]

/-- The part under a key does not depend on the order. -/
theorem only?_perm {members members' : List (String × Part)} (h : members.Perm members')
    (key : String) : only? members key = only? members' key := by
  have hfilter := h.filter (·.1 = key)
  rw [only?, only?]
  generalize members.filter (·.1 = key) = found, members'.filter (·.1 = key) = found' at hfilter
  rcases found with _ | ⟨entry, _ | ⟨second, rest⟩⟩
  · rw [hfilter.nil_eq]
  · rw [List.singleton_perm.mp hfilter]
  · have hlength := hfilter.length_eq
    rcases found' with _ | ⟨entry', _ | ⟨second', rest'⟩⟩
    · exact absurd hlength (by simp)
    · exact absurd hlength (by simp)
    · rfl

theorem ofMembers?_perm {members members' : List (String × Part)} (h : members.Perm members')
    (inner : Bool) : ofMembers? inner members = ofMembers? inner members' := by
  simp only [ofMembers?, only?_perm h]

end StoredNode

namespace Json.Reorders

variable {v w : Json String}

/-! ## Reading a value -/

/-- If two values that differ in the order of members describe the same node, nothing else is seen
of them. -/
theorem seen_part (h : Reorders v w)
    (hnode : StoredNode.ofJson? true v = StoredNode.ofJson? true w) :
    (StoredNode.part v).seen = (StoredNode.part w).seen := by
  rcases h.eq_or_isContainer with rfl | ⟨hv, hw⟩
  · rfl
  · have hpart : ∀ u : Json String, u.isContainer = true →
        (StoredNode.part u).seen = ⟨.null, StoredNode.ofJson? true u⟩ := fun u hu => if_pos hu
    rw [hpart v hv, hpart w hw, hnode]

/-- The order of members does not matter. -/
theorem ofJson?_eq (h : Reorders v w) (inner : Bool) :
    StoredNode.ofJson? inner v = StoredNode.ofJson? inner w := by
  induction h generalizing inner with
  | refl => rfl
  | trans _ _ ih ih' => rw [ih, ih']
  | perm hperm =>
    simp only [StoredNode.ofJson?, StoredNode.memberParts_eq_map]
    exact StoredNode.ofMembers?_perm (hperm.map _) inner
  | item before after hvw ih =>
    simp only [StoredNode.ofJson?, StoredNode.itemParts_eq_map]
    exact StoredNode.ofItems?_congr (by simp [seen_part hvw (ih true)]) inner
  | member before after key hvw ih =>
    simp only [StoredNode.ofJson?, StoredNode.memberParts_eq_map]
    exact StoredNode.ofMembers?_congr (by simp [seen_part hvw (ih true)]) inner

end Json.Reorders

namespace Tree

/-- Where no object repeats a key, a tree read from the value is the tree read from the text,
whatever the order of members in the value. -/
theorem ofValue_eq_ofText {s : String} {v w : Json String} (hread : Json.read? s.toList = some v)
    (hkeys : v.KeysOnce) (h : v.Reorders w) : ofValue w = ofText s := by
  rw [ofValue, Json.withLastMembers_eq_self w (h.keysOnce hkeys), ← h.ofJson?_eq, ofText,
    StoredNode.ofText, hread, Option.bind_some]
  rcases StoredNode.ofJson? false v with _ | node
  · rfl
  · rfl

theorem ofValueText_eq_ofText {s : String}
    (h : ∀ v, Json.read? s.toList = some v → v.KeysOnce) : ofValueText s = ofText s := by
  unfold ofValueText
  split
  · next v hread => exact ofValue_eq_ofText hread (h v hread) (.refl v)
  · next hread => rw [ofText, StoredNode.ofText, hread]; rfl

theorem decode_eq_ok_iff {s : String} {t : Tree} : decode s = .ok t ↔ ofText s = .ok t := by
  unfold decode
  rcases ofText s with e | t'
  · simp
  · simp

/-- What can be wrong with a text is its form, the word of an operator or the text of a condition. -/
theorem kind_of_ofText {s : String} {e : RuleError} (h : ofText s = .error e) :
    e.kind = .unknownOperator ∨ e.kind = .condition ∨ e = .deserialization := by
  rw [ofText] at h
  rcases hnode : StoredNode.ofText s with e' | node
  · rw [hnode] at h
    cases h
    unfold StoredNode.ofText at hnode
    split at hnode
    · cases hnode
    · cases hnode
      exact Or.inr (Or.inr rfl)
  · rw [hnode] at h
    obtain ⟨bad, rfl⟩ := StoredNode.exists_fault_of_toTree h
    cases bad with
    | operand => exact Or.inr (Or.inl rfl)
    | operator => exact Or.inl rfl

/-- A text in which no object repeats a key is read the same way in one go and through a JSON value,
whether or not the value keeps the order of members: the tree is the same, or the error is.  A
caller who is told of no causes gets the same tree, and the error of texts of the wrong form where
there is none. -/
theorem readers_agree (s : String) (h : ∀ v, Json.read? s.toList = some v → v.KeysOnce) :
    ofValueText s = ofText s ∧
      (∀ v w, Json.read? s.toList = some v → v.Reorders w → ofValue w = ofText s) ∧
      (∀ t, decode s = .ok t ↔ ofText s = .ok t) ∧
      ((∀ t, ofText s ≠ .ok t) → decode s = .error .deserialization) ∧
      ∀ e, ofText s = .error e →
        e.kind = .unknownOperator ∨ e.kind = .condition ∨ e = .deserialization := by
  refine ⟨ofValueText_eq_ofText h, fun v w hread hvw => ofValue_eq_ofText hread (h v hread) hvw,
    fun t => decode_eq_ok_iff, fun hnone => ?_, fun e => kind_of_ofText⟩
  unfold decode
  split
  · next t ht => exact absurd ht (hnone t)
  · rfl

/-- A text with nodes of all forms, and its value with an object turned round. -/
theorem readers_agree_mixedForms :
    let reordered : Json String := .array [.string "operator", .string "OR",
      .object [("type", .string "operand"), ("note", .null), ("value", .string " a>1\n")],
      .array [.number (.ofNat 0), .string "b = ' c '"]]
    (∀ v, Json.read? StoredNode.mixedForms.write.toList = some v → v.KeysOnce) ∧
      ofValueText StoredNode.mixedForms.write = ofText StoredNode.mixedForms.write ∧
      ofValue reordered = ofText StoredNode.mixedForms.write ∧
      ∃ t, decode StoredNode.mixedForms.write = .ok t := by
  intro reordered
  have hkeys : ∀ v, Json.read? StoredNode.mixedForms.write.toList = some v → v.KeysOnce := by
    intro v hv
    rw [StoredNode.read?_mixedForms] at hv
    cases hv
    simp [StoredNode.mixedForms, Json.KeysOnce, Json.ItemsKeysOnce, Json.MembersKeysOnce]
  obtain ⟨hvalueText, hvalue, hdecode, -⟩ := readers_agree StoredNode.mixedForms.write hkeys
  have hreorders : StoredNode.mixedForms.Reorders reordered :=
    .item [.string "operator", .string "OR"] _ (.perm (List.reverse_perm _).symm)
  obtain ⟨t, ht⟩ := StoredNode.exists_toTree_iff.mpr (by decide :
    ∀ n ∈ (StoredNode.operator "OR" (.operand " a>1\n") (.operand "b = ' c '")).preorder, n.IsSound)
  have htext : ofText StoredNode.mixedForms.write = .ok t := by
    rw [ofText, StoredNode.ofText_mixedForms]
    exact ht
  exact ⟨hkeys, hvalueText, hvalue _ _ StoredNode.read?_mixedForms hreorders,
    t, (hdecode t).mpr htext⟩

end Tree

end Rulebook
