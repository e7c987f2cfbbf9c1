import Rulebook.Proofs.CombinedEvaluation

/-!
# Where short circuits end

Evaluation visits the leaves of a tree from the left and leaves out those that cannot matter any
more.  Two questions come with that.  Is the answer the value of the formula, although leaves were
left out, some of which have no answer at all?  And if there is no answer, whose error is given?

Leaves are counted from the left, from zero, so that "further left" is the order of numbers and the
same condition at two leaves is two leaves.  The value of the formula is taken under an assignment
to the leaves (`truth`), which must agree with the conditions that have an answer and is free at the
others (`Completes`).  A leaf is skipped if it stands to the right of a node whose left side has
settled the node (`Skips`); this is said of the whole tree, of any node in it and of any leaf below
that node, without following the evaluation.

The two answers need different inductions.  For the value it is enough that a connective does not
look at its right side once the left one settles it.  For the error, the leaves of a node are those
of its left side followed by those of its right side, and a fault on the left is a fault of the node
while one on the right is a fault of the node unless the left side settles it (`failsAt_left_iff`,
`failsAt_right_iff`).  So the first fault of a node is the first on its left, and if there is none,
the first on its right.

* `truth_of_evaluate`: an answer is the value of the formula under every completion.
* `evaluate_eq_error_iff`: an error is that of the first leaf that is not skipped and fails.
* `evaluate_short_circuit`: both, as one statement on a tree and a record.
-/

namespace Rulebook

/-- The connective as an operation on truth values. -/
def Connective.apply : Connective → Bool → Bool → Bool
  | .and, a, b => a && b
  | .or, a, b => a || b

@[simp] theorem Connective.apply_neutral (c : Connective) (b : Bool) : c.apply c.neutral b = b := by
  cases c <;> rfl

@[simp] theorem Connective.apply_not_neutral (c : Connective) (b : Bool) :
    c.apply (!c.neutral) b = !c.neutral := by
  cases c <;> rfl

namespace Tree

/-! ## Leaves by their numbers -/

/-- The value of the tree as a formula, where the leaf of each number has the value that is assigned
to the number. -/
def truth : (Nat → Bool) → Tree → Bool
  | v, leaf _ => v 0
  | v, node c left right => c.apply (left.truth v) (right.truth fun i => v (left.leafCount + i))

/-- The assignment gives each leaf the answer of its condition, if the condition has one. -/
def Completes (v : Nat → Bool) (t : Tree) (record : Record) : Prop :=
  ∀ i c b, t.conditions[i]? = some c → c.check record = .ok b → v i = b

/-- The leaves of a subtree are those of the tree from the given number on. -/
inductive OccursAt : Nat → Tree → Tree → Prop
  | here (t : Tree) : OccursAt 0 t t
  | left {i : Nat} {s left : Tree} (c : Connective) (right : Tree) (h : OccursAt i s left) :
      OccursAt i s (node c left right)
  | right {i : Nat} {s right : Tree} (c : Connective) (left : Tree) (h : OccursAt i s right) :
      OccursAt (left.leafCount + i) s (node c left right)

/-- The leaf is on the right side of a node, and the left side of the node settles the node. -/
def Skips (t : Tree) (record : Record) (i : Nat) : Prop :=
  ∃ start c left right, OccursAt start (node c left right) t ∧
    left.evaluate record = .ok (!c.neutral) ∧
    start + left.leafCount ≤ i ∧ i < start + left.leafCount + right.leafCount

/-- The leaf is not skipped, and its condition fails with the error. -/
structure FailsAt (t : Tree) (record : Record) (i : Nat) (e : RuleError) : Prop where
  asked : ¬t.Skips record i
  fails : ∃ c, t.conditions[i]? = some c ∧ c.check record = .error e

/-- The leaf fails, and no leaf further left does. -/
structure FirstFault (t : Tree) (record : Record) (i : Nat) (e : RuleError) : Prop where
  failsAt : t.FailsAt record i e
  first : ∀ j < i, ∀ e', ¬t.FailsAt record j e'

variable {t s left right : Tree} {c : Connective} {record : Record} {i : Nat} {e : RuleError}

/-! ## The value of the formula -/

theorem Completes.on_left {v : Nat → Bool} (h : Completes v (node c left right) record) :
    Completes v left record := by
  intro i d b hd
  have hlt : i < left.conditions.length := (List.getElem?_eq_some_iff.mp hd).1
  refine h i d b ?_
  rw [conditions, List.getElem?_append_left hlt]
  exact hd

theorem getElem?_conditions_right :
    (node c left right).conditions[left.leafCount + i]? = right.conditions[i]? := by
  rw [conditions, List.getElem?_append_right (by simp), length_conditions, Nat.add_sub_cancel_left]

theorem Completes.on_right {v : Nat → Bool} (h : Completes v (node c left right) record) :
    Completes (fun i => v (left.leafCount + i)) right record := by
  intro i d b hd
  exact h _ d b (getElem?_conditions_right.trans hd)

/-- An answer is the value of the formula, whatever value the leaves without an answer have. -/
theorem truth_of_evaluate {v : Nat → Bool} {b : Bool} (h : t.evaluate record = .ok b)
    (hv : Completes v t record) : t.truth v = b := by
  induction t generalizing v b with
  | leaf condition => exact hv 0 condition b rfl h
  | node c left right ihl ihr =>
    rw [evaluate_node, Connective.settle_eq] at h
    rw [truth]
    split at h
    · next hleft => rw [ihl hleft hv.on_left, Connective.apply_neutral, ihr h hv.on_right]
    · next hleft =>
      have hb : b = !c.neutral := by
        rw [Bool.eq_not]
        rintro rfl
        exact hleft h
      rw [ihl h hv.on_left, hb, Connective.apply_not_neutral]

/-! ## Skipped leaves -/

theorem OccursAt.add_leafCount_le (h : OccursAt i s t) : i + s.leafCount ≤ t.leafCount := by
  induction h with
  | here => omega
  | left c right _ ih => rw [leafCount]; omega
  | right c left _ ih => rw [leafCount]; omega

theorem not_skips_leaf (condition : Condition) : ¬(leaf condition).Skips record i := by
  rintro ⟨start, c, left, right, hoccurs, -⟩
  cases hoccurs

/-- On its left side a node skips nothing that is not skipped there already. -/
theorem skips_left_iff (h : i < left.leafCount) :
    (node c left right).Skips record i ↔ left.Skips record i := by
  constructor
  · rintro ⟨start, d, l, r, hoccurs, hsettled, hle, hlt⟩
    cases hoccurs with
    | here => omega
    | left _ _ hoccurs => exact ⟨start, d, l, r, hoccurs, hsettled, hle, hlt⟩
    | right => omega
  · rintro ⟨start, d, l, r, hoccurs, hrest⟩
    exact ⟨start, d, l, r, .left c right hoccurs, hrest⟩

/-- On its right side a node skips everything if its left side settles it, and otherwise what is
skipped there. -/
theorem skips_right_iff (h : i < right.leafCount) :
    (node c left right).Skips record (left.leafCount + i) ↔
      left.evaluate record = .ok (!c.neutral) ∨ right.Skips record i := by
  constructor
  · rintro ⟨start, d, l, r, hoccurs, hsettled, hle, hlt⟩
    cases hoccurs with
    | here => exact Or.inl hsettled
    | left _ _ hoccurs =>
      have hbound := hoccurs.add_leafCount_le
      rw [leafCount] at hbound
      omega
    | @right start _ _ _ _ hoccurs =>
      exact Or.inr ⟨start, d, l, r, hoccurs, hsettled, by omega, by omega⟩
  · rintro (hsettled | ⟨start, d, l, r, hoccurs, hsettled, hle, hlt⟩)
    · exact ⟨0, c, left, right, .here _, hsettled, by omega, by omega⟩
    · exact ⟨left.leafCount + start, d, l, r, .right c left hoccurs, hsettled, by omega, by omega⟩

/-! ## Leaves that fail -/

theorem FailsAt.lt (h : t.FailsAt record i e) : i < t.leafCount := by
  obtain ⟨c, hc, -⟩ := h.fails
  rw [← length_conditions]
  exact (List.getElem?_eq_some_iff.mp hc).1

theorem FailsAt.error_unique {e' : RuleError} (h : t.FailsAt record i e)
    (h' : t.FailsAt record i e') : e = e' := by
  obtain ⟨c, hc, hcheck⟩ := h.fails
  obtain ⟨d, hd, hcheck'⟩ := h'.fails
  cases hc.symm.trans hd
  exact Except.error.inj (hcheck.symm.trans hcheck')

theorem failsAt_leaf_iff {condition : Condition} :
    (leaf condition).FailsAt record i e ↔ i = 0 ∧ condition.check record = .error e := by
  constructor
  · intro h
    have hi : i = 0 := Nat.lt_one_iff.mp h.lt
    obtain ⟨d, hd, hcheck⟩ := h.fails
    rw [hi] at hd
    cases hd
    exact ⟨hi, hcheck⟩
  · rintro ⟨rfl, hcheck⟩
    exact ⟨not_skips_leaf condition, condition, rfl, hcheck⟩

theorem failsAt_left_iff (h : i < left.leafCount) :
    (node c left right).FailsAt record i e ↔ left.FailsAt record i e := by
  have hcondition : (node c left right).conditions[i]? = left.conditions[i]? := by
    rw [conditions, List.getElem?_append_left (by rwa [length_conditions])]
  constructor
  · rintro ⟨hasked, hfails⟩
    rw [hcondition] at hfails
    exact ⟨fun hskips => hasked ((skips_left_iff h).mpr hskips), hfails⟩
  · rintro ⟨hasked, hfails⟩
    refine ⟨fun hskips => hasked ((skips_left_iff h).mp hskips), ?_⟩
    rw [hcondition]
    exact hfails

theorem failsAt_right_iff :
    (node c left right).FailsAt record (left.leafCount + i) e ↔
      left.evaluate record ≠ .ok (!c.neutral) ∧ right.FailsAt record i e := by
  constructor
  · intro h
    have hlt : i < right.leafCount := by
      have hbound := h.lt
      rw [leafCount] at hbound
      omega
    have hasked := h.asked
    have hfails := h.fails
    rw [skips_right_iff hlt, not_or] at hasked
    rw [getElem?_conditions_right] at hfails
    exact ⟨hasked.1, hasked.2, hfails⟩
  · rintro ⟨hopen, h⟩
    refine ⟨?_, ?_⟩
    · rw [skips_right_iff h.lt, not_or]
      exact ⟨hopen, h.asked⟩
    · rw [getElem?_conditions_right]
      exact h.fails

/-! ## The first of them -/

/-- A tree has at most one first fault. -/
theorem FirstFault.error_unique {j : Nat} {e' : RuleError} (h : t.FirstFault record i e)
    (h' : t.FirstFault record j e') : e = e' := by
  have hle : i ≤ j := Nat.not_lt.mp fun hlt => h.first j hlt e' h'.failsAt
  have hge : j ≤ i := Nat.not_lt.mp fun hlt => h'.first i hlt e h.failsAt
  cases Nat.le_antisymm hle hge
  exact h.failsAt.error_unique h'.failsAt

/-- The first fault on the left is the first fault of the node. -/
theorem FirstFault.of_left (c : Connective) (right : Tree) (h : left.FirstFault record i e) :
    (node c left right).FirstFault record i e := by
  have hlt := h.failsAt.lt
  refine ⟨(failsAt_left_iff hlt).mpr h.failsAt, fun j hj e' hfails => ?_⟩
  exact h.first j hj e' ((failsAt_left_iff (Nat.lt_trans hj hlt)).mp hfails)

/-- If nothing fails on the left, the faults of the node are those on the right. -/
theorem FailsAt.of_node (hleft : ∀ j e', ¬left.FailsAt record j e')
    (h : (node c left right).FailsAt record i e) :
    ∃ k, i = left.leafCount + k ∧ left.evaluate record ≠ .ok (!c.neutral) ∧
      right.FailsAt record k e := by
  have hle : left.leafCount ≤ i :=
    Nat.not_lt.mp fun hlt => hleft i e ((failsAt_left_iff hlt).mp h)
  obtain ⟨k, rfl⟩ := Nat.exists_eq_add_of_le hle
  exact ⟨k, rfl, failsAt_right_iff.mp h⟩

/-- If nothing fails on the left and the matter is open, the first fault on the right is the first
fault of the node. -/
theorem FirstFault.of_right (hleft : ∀ j e', ¬left.FailsAt record j e')
    (hopen : left.evaluate record ≠ .ok (!c.neutral)) (h : right.FirstFault record i e) :
    (node c left right).FirstFault record (left.leafCount + i) e := by
  refine ⟨failsAt_right_iff.mpr ⟨hopen, h.failsAt⟩, fun j hj e' hfails => ?_⟩
  obtain ⟨k, rfl, -, hk⟩ := hfails.of_node hleft
  exact h.first k (by omega) e' hk

/-! ## The error of an evaluation -/

/-- An error comes from the first leaf that fails, and comes whenever a leaf fails. -/
theorem evaluate_cases (t : Tree) (record : Record) :
    (∃ i e, t.evaluate record = .error e ∧ t.FirstFault record i e) ∨
      ∃ b, t.evaluate record = .ok b ∧ ∀ i e, ¬t.FailsAt record i e := by
  induction t with
  | leaf condition =>
    rw [evaluate_leaf]
    rcases hcheck : condition.check record with e | b
    · exact Or.inl ⟨0, e, rfl, failsAt_leaf_iff.mpr ⟨rfl, hcheck⟩, nofun⟩
    · refine Or.inr ⟨b, rfl, fun i e h => ?_⟩
      cases hcheck.symm.trans (failsAt_leaf_iff.mp h).2
  | node c left right ihl ihr =>
    rw [evaluate_node, Connective.settle_eq]
    rcases ihl with ⟨i, e, hleft, hfault⟩ | ⟨b, hleft, hnone⟩
    · rw [hleft, if_neg nofun]
      exact Or.inl ⟨i, e, rfl, hfault.of_left c right⟩
    · by_cases hb : b = c.neutral
      · have hopen : left.evaluate record ≠ .ok (!c.neutral) := by
          rw [hleft, hb]
          exact fun h => (Bool.eq_not_self _).mp (Except.ok.inj h)
        rw [hleft, hb, if_pos rfl]
        rcases ihr with ⟨i, e, hright, hfault⟩ | ⟨b', hright, hnone'⟩
        · exact Or.inl ⟨_, e, hright, hfault.of_right hnone hopen⟩
        · refine Or.inr ⟨b', hright, fun i e hfails => ?_⟩
          obtain ⟨k, -, -, hk⟩ := hfails.of_node hnone
          exact hnone' k e hk
      · rw [hleft, if_neg fun h => hb (Except.ok.inj h)]
        refine Or.inr ⟨b, rfl, fun i e hfails => ?_⟩
        obtain ⟨k, -, hopen, -⟩ := hfails.of_node hnone
        exact hopen (hleft.trans (congrArg _ (Bool.eq_not.mpr hb)))

/-- There is an error exactly if a leaf fails that is not skipped. -/
theorem exists_evaluate_eq_error_iff :
    (∃ e, t.evaluate record = .error e) ↔ ∃ i e, t.FailsAt record i e := by
  rcases evaluate_cases t record with ⟨i, e, heval, hfault⟩ | ⟨b, heval, hnone⟩
  · exact iff_of_true ⟨e, heval⟩ ⟨i, e, hfault.failsAt⟩
  · refine iff_of_false ?_ ?_
    · rintro ⟨e, he⟩
      cases heval.symm.trans he
    · rintro ⟨i, e, hfails⟩
      exact hnone i e hfails

/-- The error is that of the first leaf that fails and is not skipped. -/
theorem evaluate_eq_error_iff :
    t.evaluate record = .error e ↔ ∃ i, t.FirstFault record i e := by
  rcases evaluate_cases t record with ⟨i, e', heval, hfault⟩ | ⟨b, heval, hnone⟩
  · rw [heval]
    constructor
    · intro he
      cases he
      exact ⟨i, hfault⟩
    · rintro ⟨j, hj⟩
      rw [hfault.error_unique hj]
  · refine iff_of_false (by rw [heval]; nofun) ?_
    rintro ⟨i, hfault⟩
    exact hnone i e hfault.failsAt

/-- An answer is the value of the tree as a formula, for every assignment to its leaves that agrees
with the conditions that have an answer.  There is an error exactly if the condition of some leaf
fails that is not skipped, and it is the error of the first such leaf from the left. -/
theorem evaluate_short_circuit (t : Tree) (record : Record) :
    (∀ b, t.evaluate record = .ok b → ∀ v, Completes v t record → t.truth v = b) ∧
      ((∃ e, t.evaluate record = .error e) ↔ ∃ i e, t.FailsAt record i e) ∧
      ∀ e, t.evaluate record = .error e ↔ ∃ i, t.FirstFault record i e :=
  ⟨fun _ h _ hv => truth_of_evaluate h hv, exists_evaluate_eq_error_iff,
    fun _ => evaluate_eq_error_iff⟩

/-- A field that is not there does no harm where it is skipped, and its condition may be given any
value there; on the other side of the tree such a field is the error. -/
theorem evaluate_short_circuit_skipped :
    let record := Record.ofList [("a", .text "x")]
    let settled := node .and (leaf ⟨"a", .equal, .text "y", "a='y'"⟩)
      (leaf ⟨"b", .equal, .text "y", "b='y'"⟩)
    let t := node .or settled (leaf ⟨"c", .equal, .text "z", "c='z'"⟩)
    (∀ b, settled.truth (fun i => i = 1 && b) = false) ∧ t.Skips record 1 ∧
      ∃ i, t.FirstFault record i (.unknownField "c") := by
  intro record settled t
  have hsettled : settled.evaluate record = .ok false := by decide +kernel
  have hfalse : (leaf ⟨"a", .equal, .text "y", "a='y'"⟩).evaluate record = .ok false := by
    decide +kernel
  have hmissing : (leaf ⟨"b", .equal, .text "y", "b='y'"⟩).evaluate record =
      .error (.unknownField "b") := by decide +kernel
  refine ⟨fun b => (evaluate_short_circuit settled record).1 false hsettled _ ?_, ?_, ?_⟩
  · intro i c answer hc hcheck
    match i with
    | 0 =>
      cases hc
      cases hfalse.symm.trans hcheck
      rfl
    | 1 =>
      cases hc
      cases hmissing.symm.trans hcheck
  · exact ⟨0, .and, _, _, .left .or _ (.here settled), hfalse, by decide, by decide⟩
  · exact ((evaluate_short_circuit t record).2.2 _).mp (by decide +kernel)

end Tree

end Rulebook
