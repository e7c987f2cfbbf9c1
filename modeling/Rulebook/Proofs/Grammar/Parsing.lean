import Rulebook.Proofs.Grammar.Basic
import Rulebook.Rule.Parse

/-!
# The parser follows the grammar

`Rule.parse` and the grammar describe the same rules and give them the same trees.

From the grammar to the parser the statement is exact for every limit: a derived text parses to the
tree of its derivation if the tree is within the limit, and is refused for its depth otherwise
(`parseLevels_of_derives`, by induction on the derivation).  From the parser to the grammar the
level has to be found: a text that is taken apart at no keyword of a kind, save at its ends, belongs
to the level below this keyword (`derivesWhereFree_of_parseLevels`, by induction on the levels
allowed and, for the groups around a text, on its length).

* `parse_of_isRule`: what a rule of the grammar parses to.
* `parse_eq_ok_iff_isRule`: the texts that parse are the rules of the grammar, and no text is a rule
  in two ways.
-/

namespace Rulebook.Rule

open Text (isBlank isDelimiter trim)

variable {level : Level} {k : Connective} {cs : List Char} {t : Tree} {limit levels : Nat}

/-! ## Groups -/

/-- A text is a group if it is a balanced text between two parentheses. -/
theorem groupInterior?_eq_some_iff {inside : List Char} :
    groupInterior? cs = some inside ↔
      ∃ body, cs = '(' :: (body ++ [')']) ∧ Balanced body ∧ trim body = inside := by
  constructor
  · intro h
    unfold groupInterior? at h
    split at h
    · next rest =>
      split at h
      · next hgroup =>
        rw [Bool.and_eq_true, decide_eq_true_iff, isBalanced_iff] at hgroup
        cases h
        have hrest := List.dropLast_append_getLast? ')' hgroup.1
        exact ⟨rest.dropLast, by rw [hrest], hgroup.2, rfl⟩
      · cases h
    · cases h
  · rintro ⟨body, rfl, hbody, rfl⟩
    have hbalanced := isBalanced_iff.mpr hbody
    simp [groupInterior?, hbalanced]

/-- The inside of a group of the grammar. -/
theorem groupInterior?_group {w w' : List Char} (h : Derives level cs t) (hw : Blank w)
    (hw' : Blank w') : groupInterior? ('(' :: (w ++ cs ++ w' ++ [')'])) = some cs := by
  have hbody : Balanced (w ++ cs ++ w') :=
    ((balanced_of_isBlank hw).append h.balanced).append (balanced_of_isBlank hw')
  exact groupInterior?_eq_some_iff.mpr ⟨_, rfl, hbody, h.tight.trim_append hw hw'⟩

theorem groupInterior?_condition {c : Condition} (h : Condition.ofTrimmed? cs = some c) :
    groupInterior? cs = none := by
  obtain ⟨first, rest, rfl, hfirst⟩ := head?_ne_open_of_ofTrimmed? h
  rw [Option.eq_none_iff_forall_ne_some]
  intro inside hinside
  obtain ⟨body, heq, -⟩ := groupInterior?_eq_some_iff.mp hinside
  exact hfirst (List.cons.inj heq).1

/-- A text that goes on after a balanced part is no group. -/
theorem groupInterior?_append {ds : List Char} (hcs : Balanced cs) (hne : cs ≠ [])
    (hds : ds ≠ []) : groupInterior? (cs ++ ds) = none := by
  rw [Option.eq_none_iff_forall_ne_some]
  intro inside hinside
  obtain ⟨body, heq, hbody, -⟩ := groupInterior?_eq_some_iff.mp hinside
  obtain ⟨first, rest, rfl⟩ := List.exists_cons_of_ne_nil hne
  rw [List.cons_append] at heq
  obtain ⟨hfirst, hrest⟩ := List.cons.inj heq
  have hlast := congrArg List.dropLast hrest
  rw [List.dropLast_append_of_ne_nil hds, List.dropLast_concat] at hlast
  rw [hfirst] at hcs
  exact not_balanced_append hcs ds.dropLast (hlast ▸ hbody)

/-! ## From the grammar to the parser -/

/-- Groups around a text take no level. -/
theorem parseLevels_peelGroups (limit levels : Nat) (cs : List Char) :
    parseLevels limit levels (peelGroups cs) = parseLevels limit levels cs := by
  cases levels with
  | zero => rfl
  | succ levels => simp only [parseLevels, peelGroups_peelGroups]

theorem parseLevels_zero (limit : Nat) (cs : List Char) (t : Tree) :
    parseLevels limit 0 cs =
      if t.depth ≤ 0 then .ok t else .error (.limit (.nesting limit)) := by
  have hpos := t.depth_pos
  rw [if_neg (by omega)]
  rfl

theorem depth_node_le_succ_iff {left right : Tree} :
    (Tree.node k left right).depth ≤ levels + 1 ↔ left.depth ≤ levels ∧ right.depth ≤ levels := by
  rw [Tree.depth]
  omega

/-- A text that is split has the parts parsed with one level less, the left one first. -/
theorem parseLevels_of_find? {split : Split} (hpeel : peelGroups cs = cs) (hcs : cs ≠ [])
    (hfind : Split.find? cs = some split) (hbefore : trim split.before ≠ [])
    (hafter : trim split.after ≠ []) :
    parseLevels limit (levels + 1) cs = do
      let left ← parseLevels limit levels (trim split.before)
      let right ← parseLevels limit levels (trim split.after)
      return .node split.connective left right := by
  simp only [parseLevels, hpeel, if_neg hcs, hfind, hbefore, hafter, or_self, if_false]

/-- Where each part is its tree or too deep, so is the whole. -/
theorem bind_node_of_depth {left right : Tree} {x y : Except RuleError Tree}
    (hx : x = if left.depth ≤ levels then .ok left else .error (.limit (.nesting limit)))
    (hy : y = if right.depth ≤ levels then .ok right else .error (.limit (.nesting limit))) :
    (do
      let left ← x
      let right ← y
      return Tree.node k left right) =
    if (Tree.node k left right).depth ≤ levels + 1 then .ok (.node k left right)
    else .error (.limit (.nesting limit)) := by
  rw [hx, hy]
  simp only [depth_node_le_succ_iff]
  by_cases hl : left.depth ≤ levels
  · by_cases hr : right.depth ≤ levels
    · rw [if_pos hl, if_pos hr, if_pos ⟨hl, hr⟩]
      rfl
    · have hboth : ¬ (left.depth ≤ levels ∧ right.depth ≤ levels) := fun h => hr h.2
      rw [if_pos hl, if_neg hr, if_neg hboth]
      rfl
  · have hboth : ¬ (left.depth ≤ levels ∧ right.depth ≤ levels) := fun h => hl h.1
    rw [if_neg hl, if_neg hboth]
    rfl

/-- A derived text parses to its tree under every limit that allows the tree. -/
theorem parseLevels_of_derives (h : Derives level cs t) (limit levels : Nat) :
    parseLevels limit levels cs =
      if t.depth ≤ levels then .ok t else .error (.limit (.nesting limit)) := by
  induction h generalizing levels with
  | @leaf cs c h =>
    cases levels with
    | zero => exact parseLevels_zero limit cs _
    | succ levels =>
      have hpeel : peelGroups cs = cs := peelGroups_of_none (groupInterior?_condition h.ofTrimmed?)
      have hfind : Split.find? cs = none := find?_eq_none_iff.mpr h.free
      have hdepth : (Tree.leaf c).depth ≤ levels + 1 := Nat.le_add_left 1 levels
      simp only [parseLevels, hpeel, if_neg h.tight.ne_nil, hfind, h.reads, if_pos hdepth]
      rfl
  | @group w cs w' t hw h hw' ih =>
    rw [← parseLevels_peelGroups, peelGroups_of_some (groupInterior?_group h hw hw'),
      parseLevels_peelGroups, ih]
  | operand _ ih => exact ih levels
  | @chain k cs w w' ds left right hleft hw hbefore hafter hw' hright ihleft ihright =>
    cases levels with
    | zero => exact parseLevels_zero limit _ _
    | succ levels =>
      have hchain := Derives.chain hleft hw hbefore hafter hw' hright
      have hpeel : peelGroups (cs ++ w ++ k.keyword.toList ++ (w' ++ ds)) =
          cs ++ w ++ k.keyword.toList ++ (w' ++ ds) := by
        refine peelGroups_of_none ?_
        rw [List.append_assoc, List.append_assoc]
        exact groupInterior?_append hleft.balanced hleft.tight.ne_nil
          (by simp [hright.tight.ne_nil])
      have hfind : Split.find? (cs ++ w ++ k.keyword.toList ++ (w' ++ ds)) =
          some ⟨k, cs ++ w, w' ++ ds⟩ := by
        refine find?_eq_some_iff.mpr ⟨countsFirst_chain hleft hw hbefore hafter, ?_⟩
        rintro rfl
        exact hchain.free trivial
      have htrim : trim (cs ++ w) = cs := hleft.tight.trim_append_right hw
      have htrim' : trim (w' ++ ds) = ds := hright.tight.trim_append_left hw'
      have hbefore' : trim (cs ++ w) ≠ [] := by rw [htrim]; exact hleft.tight.ne_nil
      have hafter' : trim (w' ++ ds) ≠ [] := by rw [htrim']; exact hright.tight.ne_nil
      rw [parseLevels_of_find? hpeel hchain.tight.ne_nil hfind hbefore' hafter', htrim, htrim']
      exact bind_node_of_depth (ihleft levels) (ihright levels)

/-- A rule of the grammar parses to its tree under every limit that allows the tree, and is refused
for its depth under the others. -/
theorem parse_of_isRule {rule : String} (h : IsRule rule.toList t) (maxDepth : Nat) :
    parse maxDepth rule =
      if t.depth ≤ maxDepth then .ok t else .error (.limit (.nesting maxDepth)) := by
  obtain ⟨w, inner, w', htext, hw, hw', hinner⟩ := h
  rw [parse, htext, hinner.tight.trim_append hw hw', parseTrimmed, if_neg hinner.tight.ne_nil,
    hinner.balanced.balanceFault?_eq_none]
  exact parseLevels_of_derives hinner maxDepth maxDepth

/-! ## From the parser to the grammar -/

theorem Derives.of_atom (h : Derives .atom cs t) : ∀ level, Derives level cs t
  | .atom => h
  | .chain .or => .operand h
  | .chain .and => .operand (.operand h)

/-- A chain belongs to every level that is not below its keyword. -/
theorem Derives.of_chain (h : Derives (.chain k) cs t) : ∀ {level : Level}, ¬ level.IsBelow k →
    Derives level cs t
  | .atom, hk => absurd trivial hk
  | .chain .and, _ => by
    cases k with
    | and => exact h
    | or => exact .operand h
  | .chain .or, hk => by
    cases k with
    | and => exact absurd trivial hk
    | or => exact h

/-- No place of the text has the keyword count, save possibly at its ends. -/
def FreeInside (k : Connective) (cs : List Char) : Prop :=
  ∀ before after, before ≠ [] → after ≠ [] → ¬ Counts k.keyword.toList cs before after

/-- The text has the tree at every level for which it has no keywords that are too high. -/
def DerivesWhereFree (cs : List Char) (t : Tree) : Prop :=
  ∀ level : Level, (∀ k, level.IsBelow k → FreeInside k cs) → Derives level cs t

/-- In a part of a text that starts on ground level, what does not count in the text does not count
inside the part. -/
theorem freeInside_of_part {xs ys : List Char} (h : Free k.keyword.toList (xs ++ cs ++ ys))
    (hxs : (Scan.start.run xs).isGround = true) : FreeInside k cs :=
  fun _ _ hbefore hafter hcounts => h _ _ (hcounts.extend hbefore hafter hxs ys)

/-- A text that does not start with a blank is its trimmed part and blanks after it. -/
theorem exists_eq_trim_append (h : ∀ c ∈ cs.head?, isBlank c = false) :
    ∃ w, cs = trim cs ++ w ∧ Blank w := by
  obtain ⟨w, w', heq, hw, hw'⟩ := Text.exists_eq_append_trim cs
  cases w with
  | nil => exact ⟨w', heq, hw'⟩
  | cons c w =>
    have hc := h c (by rw [heq]; rfl)
    rw [hw c (List.mem_cons_self ..)] at hc
    cases hc

/-- A text that does not end with a blank is blanks and its trimmed part after them. -/
theorem exists_eq_append_trim_of_last (h : ∀ c ∈ cs.getLast?, isBlank c = false) :
    ∃ w, cs = w ++ trim cs ∧ Blank w := by
  obtain ⟨w, w', heq, hw, hw'⟩ := Text.exists_eq_append_trim cs
  rcases List.eq_nil_or_concat w' with rfl | ⟨w', c, rfl⟩
  · exact ⟨w, by rwa [List.append_nil] at heq, hw⟩
  · have hc := h c (by rw [heq]; simp)
    rw [hw' c (by simp)] at hc
    cases hc

/-- The ends of a trimmed text that is cut at a word belong to its outer parts. -/
theorem exists_trim_parts {word before after : List Char} (hcs : trim cs = cs)
    (h : before ++ word ++ after = cs) (hbefore : before ≠ []) (hafter : after ≠ []) :
    ∃ w w', before = trim before ++ w ∧ after = w' ++ trim after ∧ Blank w ∧ Blank w' := by
  obtain ⟨hhead, hlast⟩ := Text.trim_eq_self_iff.mp hcs
  rw [← h, List.append_assoc, List.head?_append_of_ne_nil _ hbefore] at hhead
  rw [← h, List.getLast?_append_of_ne_nil _ hafter] at hlast
  obtain ⟨w, hw, hwBlank⟩ := exists_eq_trim_append hhead
  obtain ⟨w', hw', hwBlank'⟩ := exists_eq_append_trim_of_last hlast
  exact ⟨w, w', hw, hw', hwBlank, hwBlank'⟩

/-- A text without keywords that reads as a condition is a leaf. -/
theorem derivesWhereFree_leaf {c : Condition} (hcs : trim cs = cs) (hfind : Split.find? cs = none)
    (hread : Condition.read cs = .ok c) : DerivesWhereFree cs (.leaf c) := by
  obtain ⟨hhead, hlast⟩ := Text.trim_eq_self_iff.mp hcs
  have hflat : Flat cs := by
    have hreads := read_eq_ok_iff.mp hread
    rw [hcs] at hreads
    exact flat_of_ofTrimmed? hreads
  have hleaf : IsLeaf cs c := by
    refine ⟨hhead, hlast, hread, fun k before after hstands => ?_⟩
    exact find?_eq_none_iff.mp hfind k before after (hstands.counts hflat)
  exact fun level _ => (Derives.leaf hleaf).of_atom level

/-- A group has the tree of what it holds, at every level. -/
theorem derivesWhereFree_group {inside : List Char} (hgroup : groupInterior? cs = some inside)
    (h : DerivesWhereFree inside t) : DerivesWhereFree cs t := by
  obtain ⟨body, rfl, -, rfl⟩ := groupInterior?_eq_some_iff.mp hgroup
  obtain ⟨w, w', hbody, hw, hw'⟩ := Text.exists_eq_append_trim body
  have hinside : Derives (.chain .and) (trim body) t := h _ (by rintro (_ | _) ⟨⟩)
  have hatom := Derives.group hw hinside hw'
  rw [← hbody] at hatom
  exact fun level _ => hatom.of_atom level

section Chain

variable {ds es w w' : List Char} {left right : Tree}

/-- Inside the left side of the first place, the keyword does not count. -/
theorem CountsFirst.freeInside_left
    (h : CountsFirst k.keyword.toList cs (ds ++ w) (w' ++ es)) : FreeInside k ds := by
  intro before after hbefore hafter hcounts
  have hground : (Scan.start.run []).isGround = true := rfl
  have hextended := hcounts.extend hbefore hafter hground (w ++ k.keyword.toList ++ (w' ++ es))
  have hcs : [] ++ ds ++ (w ++ k.keyword.toList ++ (w' ++ es)) = cs := by
    simp only [← h.parts, List.nil_append, List.append_assoc]
  rw [hcs] at hextended
  have hle := h.first _ _ hextended
  have hlength := congrArg List.length hcounts.parts
  have hpos := List.length_pos_iff.mpr hafter
  simp only [List.length_append, List.nil_append] at hle hlength
  omega

/-- What does not count in a text does not count inside the sides of a keyword either. -/
theorem Counts.freeInside_sides {k' : Connective}
    (h : Counts k'.keyword.toList cs (ds ++ w) (w' ++ es)) (hw' : Blank w')
    (hfree : Free k.keyword.toList cs) : FreeInside k ds ∧ FreeInside k es := by
  constructor
  · have hcs : [] ++ ds ++ (w ++ k'.keyword.toList ++ (w' ++ es)) = cs := by
      simp only [← h.parts, List.nil_append, List.append_assoc]
    exact freeInside_of_part (hcs ▸ hfree) rfl
  · have hcs : (ds ++ w ++ (k'.keyword.toList ++ w')) ++ es ++ [] = cs := by
      simp only [← h.parts, List.append_nil, List.append_assoc]
    refine freeInside_of_part (hcs ▸ hfree) ?_
    rw [Scan.run_append_of_isGround h.ground]
    exact ((balanced_keyword k').append (balanced_of_isBlank hw')).isGround

/-- The first place where a keyword counts joins the trees of the two sides, if it is no place
for an `OR` in a text that has an `AND`. -/
theorem CountsFirst.derives_chain (h : CountsFirst k.keyword.toList cs (ds ++ w) (w' ++ es))
    (hfree : k = .or → Free Connective.and.keyword.toList cs) (hds : ds ≠ []) (hes : es ≠ [])
    (hw : Blank w) (hw' : Blank w') (hleft : DerivesWhereFree ds left)
    (hright : DerivesWhereFree es right) : Derives (.chain k) cs (.node k left right) := by
  have hleftLevel : Derives (operandLevel k) ds left := by
    refine hleft _ fun k' hk' => ?_
    -- an operand of `AND` must be free of `AND`, and an operand of `OR` of both keywords
    cases k with
    | and =>
      cases k' with
      | and => exact h.freeInside_left
      | or => cases hk'
    | or =>
      cases k' with
      | and => exact (h.freeInside_sides hw' (hfree rfl)).1
      | or => exact h.freeInside_left
  have hrightLevel : Derives (.chain k) es right := by
    refine hright _ fun k' hk' => ?_
    obtain ⟨rfl, rfl, -⟩ := hk'.of_chain
    exact (h.freeInside_sides hw' (hfree rfl)).2
  have hbefore := List.getLast?_eq_some_getLast (l := ds ++ w) (by simp [hds])
  have hafter := List.head?_eq_some_head (l := w' ++ es) (by simp [hes])
  have hchain := Derives.chain hleftLevel hw ⟨_, hbefore, h.left _ hbefore⟩
    ⟨_, hafter, h.right _ hafter⟩ hw' hrightLevel
  rwa [h.parts] at hchain

end Chain

/-- A text that is split has the tree of its two sides, at the level of the keyword and above. -/
theorem derivesWhereFree_chain {split : Split} {left right : Tree} (hcs : trim cs = cs)
    (hfind : Split.find? cs = some split) (hbefore : trim split.before ≠ [])
    (hafter : trim split.after ≠ []) (hleft : DerivesWhereFree (trim split.before) left)
    (hright : DerivesWhereFree (trim split.after) right) :
    DerivesWhereFree cs (.node split.connective left right) := by
  obtain ⟨hfirst, hfree⟩ := find?_eq_some_iff.mp hfind
  have hbeforeNe : split.before ≠ [] := fun hnil => hbefore (by rw [hnil, Text.trim_nil])
  have hafterNe : split.after ≠ [] := fun hnil => hafter (by rw [hnil, Text.trim_nil])
  obtain ⟨w, w', hw, hw', hwBlank, hwBlank'⟩ :=
    exists_trim_parts hcs hfirst.parts hbeforeNe hafterNe
  have hchain : Derives (.chain split.connective) cs (.node split.connective left right) :=
    CountsFirst.derives_chain (hw ▸ hw' ▸ hfirst) hfree hbefore hafter hwBlank hwBlank' hleft hright
  intro level hlevel
  refine hchain.of_chain fun hbelow => ?_
  exact hlevel _ hbelow _ _ hbeforeNe hafterNe hfirst.toCounts

/-- Groups around a text do not change its trees. -/
theorem derivesWhereFree_peelGroups (h : DerivesWhereFree (peelGroups cs) t) :
    DerivesWhereFree cs t := by
  fun_induction peelGroups cs with
  | case1 cs inside hgroup ih => exact derivesWhereFree_group hgroup (ih h)
  | case2 cs hnone => exact h

theorem trim_peelGroups (h : trim cs = cs) : trim (peelGroups cs) = peelGroups cs := by
  fun_induction peelGroups cs with
  | case1 cs inside hgroup ih =>
    obtain ⟨body, -, -, rfl⟩ := groupInterior?_eq_some_iff.mp hgroup
    exact ih (Text.trim_trim body)
  | case2 cs hnone => exact h

/-- A text that parses has the tree it parses to. -/
theorem derivesWhereFree_of_parseLevels (hcs : trim cs = cs)
    (h : parseLevels limit levels cs = .ok t) : DerivesWhereFree cs t := by
  induction levels generalizing cs t with
  | zero => cases h
  | succ levels ih =>
    refine derivesWhereFree_peelGroups ?_
    have htrim := trim_peelGroups hcs
    rw [parseLevels] at h
    generalize peelGroups cs = inner at h htrim
    split at h
    · cases h
    · split at h
      · next hfind =>
        rcases hread : Condition.read inner with e | c
        · rw [hread] at h
          cases h
        · rw [hread] at h
          cases h
          exact derivesWhereFree_leaf htrim hfind hread
      · next split hfind =>
        dsimp only at h
        split at h
        · cases h
        · next hne =>
          rw [not_or] at hne
          rcases hleft : parseLevels limit levels (trim split.before) with e | left
          · rw [hleft] at h
            cases h
          · rcases hright : parseLevels limit levels (trim split.after) with e | right
            · rw [hleft, hright] at h
              cases h
            · rw [hleft, hright] at h
              cases h
              exact derivesWhereFree_chain htrim hfind hne.1 hne.2
                (ih (Text.trim_trim _) hleft) (ih (Text.trim_trim _) hright)

/-- A string that parses is a rule of the grammar. -/
theorem isRule_of_parse {rule : String} {maxDepth : Nat} (h : parse maxDepth rule = .ok t) :
    IsRule rule.toList t := by
  rw [parse, parseTrimmed] at h
  split at h
  · cases h
  · split at h
    · cases h
    · obtain ⟨w, w', hrule, hw, hw'⟩ := Text.exists_eq_append_trim rule.toList
      have hderives := derivesWhereFree_of_parseLevels (Text.trim_trim _) h
      exact ⟨w, _, w', hrule, hw, hw', hderives _ (by rintro (_ | _) ⟨⟩)⟩

/-- No tree that a string parses to is deeper than the limit. -/
theorem depth_le_of_parse {rule : String} {maxDepth : Nat} (h : parse maxDepth rule = .ok t) :
    t.depth ≤ maxDepth := by
  by_contra hdepth
  rw [parse_of_isRule (isRule_of_parse h), if_neg hdepth] at h
  cases h

/-- The strings that parse are the rules of the grammar that are within the limit, and no string is
a rule with two trees. -/
theorem parse_eq_ok_iff_isRule (rule : String) :
    (∀ (maxDepth : Nat) (t : Tree),
        parse maxDepth rule = .ok t ↔ IsRule rule.toList t ∧ t.depth ≤ maxDepth) ∧
      ∀ t t' : Tree, IsRule rule.toList t → IsRule rule.toList t' → t = t' := by
  have hparse : ∀ (maxDepth : Nat) (t : Tree),
      parse maxDepth rule = .ok t ↔ IsRule rule.toList t ∧ t.depth ≤ maxDepth := by
    intro maxDepth t
    refine ⟨fun h => ⟨isRule_of_parse h, depth_le_of_parse h⟩, ?_⟩
    rintro ⟨hrule, hdepth⟩
    rw [parse_of_isRule hrule, if_pos hdepth]
  refine ⟨hparse, fun t t' h h' => ?_⟩
  have hok := (hparse (max t.depth t'.depth) t).mpr ⟨h, Nat.le_max_left ..⟩
  have hok' := (hparse (max t.depth t'.depth) t').mpr ⟨h', Nat.le_max_right ..⟩
  rw [hok] at hok'
  cases hok'
  rfl

end Rulebook.Rule
