import Rulebook.Proofs.Combine
import Rulebook.Proofs.Grammar.Parsing

/-!
# Rules joined by keywords

A rule can be built as a text, by writing keywords between parts, or as a tree, by combining the
trees of the parts.  This file compares the two.  A part is an item: a single condition, or any rule
in parentheses.  Either is an atom of the grammar, so no keyword inside an item counts, and the
joined text has the derivation that its items and keywords suggest.

The keywords may be mixed.  A joined text is then cut at each `AND`, and the pieces lean to the
right, as their items do.  In the induction on the items, what has been read of the first piece and
what follows the piece have to be kept apart, since an `OR` prolongs the piece and an `AND` ends it;
`MoreSegments` describes what follows.

* `isRule_joinText`: the tree of a joined text.
* `parse_joinText`: a joined text parses to this tree or is too deep, and joins by one keyword
  parse if and only if their trees combine.
-/

namespace Rulebook.Rule

/-! ## Items -/

/-- A text that may stand between keywords: a single condition, or a rule in parentheses. -/
structure Item where
  text : String
  tree : Tree
  reads : parse 1 text = .ok tree ∨
    ∃ (inside : String) (maxDepth : Nat), text = "(" ++ inside ++ ")" ∧
      parse maxDepth inside = .ok tree

/-- Items with keywords between them. -/
def joinText (first : Item) : List (Connective × Item) → String
  | [] => first.text
  | (k, next) :: links => first.text ++ " " ++ k.keyword ++ " " ++ joinText next links

/-- The trees between one `AND` and the next, which are joined by `OR`. -/
structure Segment where
  first : Tree
  others : List Tree

/-- The tree of a segment. -/
def Segment.tree (s : Segment) : Tree := Tree.join .or s.first s.others

/-- The segments of trees with connectives between them, the first one apart. -/
def segments (first : Tree) : List (Connective × Tree) → Segment × List Segment
  | [] => (⟨first, []⟩, [])
  | (.and, next) :: links =>
    let (segment, more) := segments next links
    (⟨first, []⟩, segment :: more)
  | (.or, next) :: links =>
    let (segment, more) := segments next links
    (⟨first, segment.first :: segment.others⟩, more)

/-- The tree of joined items: the segments joined by `AND`. -/
def joinTree (first : Item) (links : List (Connective × Item)) : Tree :=
  let (segment, more) := segments first.tree (links.map fun (k, item) => (k, item.tree))
  Tree.join .and segment.tree (more.map Segment.tree)

variable {level : Level} {k : Connective} {cs ds : List Char} {t : Tree}

/-- A derived text with a tree of depth one is an atom. -/
theorem Derives.atom_of_depth (h : Derives level cs t) (hdepth : t.depth ≤ 1) :
    Derives .atom cs t := by
  induction h with
  | leaf h => exact .leaf h
  | group hw h hw' => exact .group hw h hw'
  | operand _ ih => exact ih hdepth
  | @chain k cs w w' ds left right =>
    have hleft := (depth_node_le_succ_iff.mp hdepth).1
    have hpos := left.depth_pos
    omega

/-- An item is an atom between blanks. -/
theorem Item.exists_atom (item : Item) : ∃ w cs w', item.text.toList = w ++ cs ++ w' ∧
    Blank w ∧ Blank w' ∧ Derives .atom cs item.tree := by
  obtain ⟨text, tree, reads⟩ := item
  rcases reads with hparse | ⟨inside, maxDepth, rfl, hparse⟩
  · obtain ⟨w, cs, w', htext, hw, hw', hderives⟩ := isRule_of_parse hparse
    exact ⟨w, cs, w', htext, hw, hw', hderives.atom_of_depth (depth_le_of_parse hparse)⟩
  · obtain ⟨w, cs, w', htext, hw, hw', hderives⟩ := isRule_of_parse hparse
    have hnil : Blank [] := fun c hc => absurd hc List.not_mem_nil
    refine ⟨[], '(' :: (w ++ cs ++ w' ++ [')']), [], ?_, hnil, hnil, .group hw hderives hw'⟩
    rw [String.toList_append, String.toList_append, htext]
    simp

/-! ## Joining by one keyword -/

theorem blank_space : Blank [' '] := List.forall_mem_singleton.mpr rfl

/-- A keyword between spaces joins what stands on its sides. -/
theorem Derives.chain_of_spaces {w w' : List Char} {left right : Tree}
    (hleft : Derives (operandLevel k) cs left) (hw : Blank w) (hw' : Blank w')
    (hright : Derives (.chain k) ds right) :
    Derives (.chain k) (cs ++ (w ++ [' ']) ++ k.keyword.toList ++ (' ' :: w' ++ ds))
      (.node k left right) := by
  refine .chain hleft (hw.append blank_space) ⟨' ', ?_, rfl⟩ ⟨' ', rfl, rfl⟩
    (blank_space.append hw') hright
  rw [← List.append_assoc, List.getLast?_concat]
  rfl

/-! ## Segments -/

/-- What follows a segment: blanks, or an `AND` between spaces and a further segment. -/
inductive MoreSegments : List Char → List Tree → Prop where
  | nil {w : List Char} (hw : Blank w) : MoreSegments w []
  | cons {w w' cs ds : List Char} {t : Tree} {ts : List Tree} (hw : Blank w) (hw' : Blank w')
      (h : Derives (.chain .or) cs t) (hmore : MoreSegments ds ts) :
      MoreSegments (w ++ [' '] ++ Connective.and.keyword.toList ++ (' ' :: w' ++ (cs ++ ds)))
        (t :: ts)

/-- A segment and the segments after it make up a rule, apart from blanks at the end. -/
theorem MoreSegments.derives_join {ts : List Tree} (hmore : MoreSegments ds ts)
    (h : Derives (.chain .or) cs t) :
    ∃ inner w, cs ++ ds = inner ++ w ∧ Blank w ∧
      Derives (.chain .and) inner (Tree.join .and t ts) := by
  induction hmore generalizing cs t with
  | @nil w hw => exact ⟨cs, w, rfl, hw, .operand h⟩
  | @cons w w' cs' ds' t' ts' hw hw' h' hmore ih =>
    obtain ⟨inner, v, heq, hv, hinner⟩ := ih h'
    refine ⟨_, v, ?_, hv, Derives.chain_of_spaces h hw hw' hinner⟩
    rw [heq]
    simp only [List.append_assoc]

/-- A joined text starts with its first segment, and goes on with the others. -/
theorem exists_segments_joinText (first : Item) (links : List (Connective × Item)) :
    ∃ w cs ds, (joinText first links).toList = w ++ cs ++ ds ∧ Blank w ∧
      Derives (.chain .or) cs
        (segments first.tree (links.map fun (k, item) => (k, item.tree))).1.tree ∧
      MoreSegments ds
        ((segments first.tree (links.map fun (k, item) => (k, item.tree))).2.map Segment.tree) := by
  obtain ⟨w, cs, w', htext, hw, hw', hatom⟩ := first.exists_atom
  induction links generalizing first w cs w' with
  | nil => exact ⟨w, cs, w', htext, hw, .operand hatom, .nil hw'⟩
  | cons link links ih =>
    obtain ⟨k, next⟩ := link
    obtain ⟨v, es, v', hnext, hv, hv', hnextAtom⟩ := next.exists_atom
    obtain ⟨u, fs, ds, hrest, hu, hsegment, hmore⟩ := ih next v es v' hnext hv hv' hnextAtom
    cases k with
    | and =>
      refine ⟨w, cs, _, ?_, hw, .operand hatom, .cons hw' hu hsegment hmore⟩
      simp [joinText, htext, hrest]
    | or =>
      refine ⟨w, _, ds, ?_, hw, Derives.chain_of_spaces hatom hw' hu hsegment, hmore⟩
      simp [joinText, htext, hrest]

/-- A joined text is a rule with the tree of its items. -/
theorem isRule_joinText (first : Item) (links : List (Connective × Item)) :
    IsRule (joinText first links).toList (joinTree first links) := by
  obtain ⟨w, cs, ds, htext, hw, hsegment, hmore⟩ := exists_segments_joinText first links
  obtain ⟨inner, w', heq, hw', hinner⟩ := hmore.derives_join hsegment
  exact ⟨w, inner, w', by rw [htext, List.append_assoc, heq, List.append_assoc], hw, hw', hinner⟩

example (a b c d : Item) : joinTree a [(.and, b), (.or, c), (.and, d)] =
    .node .and a.tree (.node .and (.node .or b.tree c.tree) d.tree) := rfl

/-! ## One keyword throughout -/

theorem segments_and (first : Tree) (others : List Tree) :
    segments first (others.map fun tree => (Connective.and, tree)) =
      (⟨first, []⟩, others.map fun tree => ⟨tree, []⟩) := by
  induction others generalizing first with
  | nil => rfl
  | cons next others ih => rw [List.map_cons, segments, ih next, List.map_cons]

theorem segments_or (first : Tree) (others : List Tree) :
    segments first (others.map fun tree => (Connective.or, tree)) = (⟨first, others⟩, []) := by
  induction others generalizing first with
  | nil => rfl
  | cons next others ih => rw [List.map_cons, segments, ih next]

/-- Where all keywords are the same, the trees are joined by this connective. -/
theorem joinTree_of_same (c : Connective) (first : Item) (others : List Item) :
    joinTree first (others.map fun item => (c, item)) =
      Tree.join c first.tree (others.map Item.tree) := by
  have hlinks : (others.map fun item => (c, item)).map (fun (k, item) => (k, item.tree)) =
      (others.map Item.tree).map fun tree => (c, tree) := by
    rw [List.map_map, List.map_map]
    rfl
  rw [joinTree, hlinks]
  cases c with
  | and =>
    rw [segments_and]
    show Tree.join .and first.tree (((others.map Item.tree).map fun tree => ⟨tree, []⟩).map
      Segment.tree) = _
    rw [List.map_map]
    exact congrArg (Tree.join .and first.tree) (List.map_id _)
  | or =>
    rw [segments_or]
    rfl

/-! ## Parsing and combining -/

/-- A joined text parses to the tree of its items under every limit that allows this tree, and is
refused for its depth under the others.  Where all keywords are the same, it parses exactly if the
trees of the items combine under the same limit, and to the combined tree. -/
theorem parse_joinText (first : Item) (maxDepth : Nat) :
    (∀ links : List (Connective × Item), parse maxDepth (joinText first links) =
      if (joinTree first links).depth ≤ maxDepth then .ok (joinTree first links)
      else .error (.limit (.nesting maxDepth))) ∧
    ∀ (c : Connective) (others : List Item),
      (∃ t, parse maxDepth (joinText first (others.map fun item => (c, item))) = .ok t ∧
        Tree.combine (first.tree :: others.map Item.tree) c maxDepth = .ok t) ∨
      ∃ fault fault', parse maxDepth (joinText first (others.map fun item => (c, item))) =
          .error (.limit fault) ∧
        Tree.combine (first.tree :: others.map Item.tree) c maxDepth = .error (.limit fault') := by
  have hparse : ∀ links : List (Connective × Item), parse maxDepth (joinText first links) =
      if (joinTree first links).depth ≤ maxDepth then .ok (joinTree first links)
      else .error (.limit (.nesting maxDepth)) :=
    fun links => parse_of_isRule (isRule_joinText first links) maxDepth
  refine ⟨hparse, fun c others => ?_⟩
  rw [hparse, joinTree_of_same, Tree.combine_cons]
  by_cases hdepth : (Tree.join c first.tree (others.map Item.tree)).depth ≤ maxDepth
  · rw [if_pos hdepth, if_pos hdepth]
    exact Or.inl ⟨_, rfl, rfl⟩
  · rw [if_neg hdepth, if_neg hdepth]
    exact Or.inr ⟨_, _, rfl, rfl⟩

/-- Three single conditions with both keywords between them are a rule of depth three. -/
theorem parse_joinText_mixed : ∃ item : Item, item.text = "a='x'" ∧
    parse 3 (joinText item [(.or, item), (.and, item)]) =
      .ok (.node .and (.node .or item.tree item.tree) item.tree) ∧
    parse 2 (joinText item [(.or, item), (.and, item)]) = .error (.limit (.nesting 2)) := by
  have hread : Condition.read "a='x'".toList = .ok ⟨"a", .equal, .text "x", "a='x'"⟩ :=
    read_eq_ok_iff.mpr (by decide)
  have hfind : Split.find? "a='x'".toList = none := by decide
  have hleaf := derivesWhereFree_leaf (by decide) hfind hread
  have hrule : IsRule "a='x'".toList (.leaf ⟨"a", .equal, .text "x", "a='x'"⟩) :=
    ⟨[], _, [], rfl, nofun, nofun, hleaf _ (by rintro (_ | _) ⟨⟩)⟩
  refine ⟨⟨"a='x'", _, Or.inl (parse_of_isRule hrule 1)⟩, rfl, ?_, ?_⟩
  · exact (parse_joinText _ 3).1 _
  · exact (parse_joinText _ 2).1 _

end Rulebook.Rule
