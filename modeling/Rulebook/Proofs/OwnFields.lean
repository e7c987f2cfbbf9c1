import Rulebook.Proofs.ShortCircuit

/-!
# The fields that a tree reads

A tree is evaluated on a whole record, but it asks the record for its own fields only.  So two
records that agree on these have the same answer, with the same error if there is one.

More is true if there is an answer, or an error other than a missing field.  Then all that was asked
for was there, and a record with the same values there has the same answer, whatever else it holds.
In particular it may hold a field that the tree names and the first record lacks: the short circuits
kept that field from being asked for.  Both facts are one induction on the tree.  Two answers are the
same, or the first one is an error of a kind that is set apart, and a connective passes this on
(`SameUnless.settle`): an error on the left is the error of the node, and if the left sides are the
same, either both right sides are asked or neither is.

* `Condition.check_eq_unknownField_iff`: a condition misses its field exactly if the record does.
* `sameUnless_evaluate`: trees pass on what holds of their conditions.
* `mem_fields_of_unknownField`: a field that is reported missing is one of the tree, and is missing.
* `evaluate_own_fields`: all of this on a tree and two records.
-/

namespace Rulebook

/-! ## Records that agree on some fields -/

namespace Record

/-- The two records have the same of the named fields, with the same values. -/
def AgreeOn (names : List String) (r r' : Record) : Prop :=
  ∀ name ∈ names, r.get? name = r'.get? name

/-- Each of the named fields that the first record has is in the second one, with the same value.
The second record may have more of them. -/
def KeptOn (names : List String) (r r' : Record) : Prop :=
  ∀ name ∈ names, ∀ value, r.get? name = some value → r'.get? name = some value

end Record

/-! ## Conditions -/

namespace Condition

variable {c : Condition} {r r' : Record} {name : String}

theorem check_congr (h : r.get? c.field = r'.get? c.field) : c.check r = c.check r' := by
  rw [check, check, h]

/-- A condition reports a field as missing exactly if it is the field of the condition and the
record lacks it. -/
theorem check_eq_unknownField_iff :
    c.check r = .error (.unknownField name) ↔ c.field = name ∧ r.get? name = none := by
  constructor
  · intro h
    rcases hvalue : r.get? c.field with _ | value
    · rw [check_of_get?_eq_none hvalue] at h
      cases h
      exact ⟨rfl, hvalue⟩
    · rw [check_of_get? hvalue] at h
      cases eq_typeMismatch_of_checkValue h
  · rintro ⟨rfl, hnone⟩
    exact check_of_get?_eq_none hnone

end Condition

/-! ## Answers -/

/-- The first answer is the second one, or it is an error of those set apart. -/
def SameUnless (apart : RuleError → Prop) (answer answer' : Except RuleError Bool) : Prop :=
  answer = answer' ∨ ∃ e, apart e ∧ answer = .error e

section Answers

variable {apart : RuleError → Prop} {left left' right right' : Except RuleError Bool}

theorem SameUnless.eq (h : SameUnless apart left left') (hapart : ∀ e, apart e → left ≠ .error e) :
    left = left' := by
  rcases h with h | ⟨e, he, heq⟩
  · exact h
  · exact absurd heq (hapart e he)

/-- What holds of both sides holds of the node: a right side is asked in both cases or in neither,
unless the left side is an error set apart, and this is then the error of the node. -/
theorem SameUnless.settle (c : Connective) (hleft : SameUnless apart left left')
    (hright : SameUnless apart right right') :
    SameUnless apart (c.settle left fun _ => right) (c.settle left' fun _ => right') := by
  rw [Connective.settle_eq, Connective.settle_eq]
  rcases hleft with rfl | ⟨e, he, rfl⟩
  · by_cases hopen : left = .ok c.neutral
    · rw [if_pos hopen, if_pos hopen]
      exact hright
    · rw [if_neg hopen, if_neg hopen]
      exact Or.inl rfl
  · rw [if_neg nofun]
    exact Or.inr ⟨e, he, rfl⟩

end Answers

/-! ## Trees -/

namespace Tree

variable {t : Tree} {r r' : Record} {apart : RuleError → Prop} {name : String}

/-- The answers of a tree on two records are as alike as those of its conditions. -/
theorem sameUnless_evaluate
    (h : ∀ c ∈ t.conditions, SameUnless apart (c.check r) (c.check r')) :
    SameUnless apart (t.evaluate r) (t.evaluate r') := by
  induction t with
  | leaf condition => exact h condition (List.mem_singleton_self _)
  | node c left right ihl ihr =>
    have hleft := ihl fun d hd => h d (List.mem_append_left _ hd)
    have hright := ihr fun d hd => h d (List.mem_append_right _ hd)
    rw [evaluate_node, evaluate_node]
    exact hleft.settle c hright

/-- Records on which all conditions of a tree have the same verdict give the tree the same answer. -/
theorem evaluate_congr (h : ∀ c ∈ t.conditions, c.check r = c.check r') :
    t.evaluate r = t.evaluate r' := by
  have hsame : SameUnless (fun _ => False) (t.evaluate r) (t.evaluate r') :=
    sameUnless_evaluate fun c hc => Or.inl (h c hc)
  exact hsame.eq fun _ hfalse => hfalse.elim

theorem field_mem_fields {c : Condition} (h : c ∈ t.conditions) : c.field ∈ t.fields :=
  List.mem_map_of_mem h

/-- Nothing but the fields of a tree matters to its answer. -/
theorem evaluate_eq_of_agreeOn (h : r.AgreeOn t.fields r') : t.evaluate r = t.evaluate r' :=
  evaluate_congr fun _ hc => Condition.check_congr (h _ (field_mem_fields hc))

/-- An answer that came without a missing field is the answer of every record that keeps the fields
that were there. -/
theorem evaluate_eq_of_keptOn (hfound : ∀ name, t.evaluate r ≠ .error (.unknownField name))
    (h : r.KeptOn t.fields r') : t.evaluate r' = t.evaluate r := by
  have hconditions : ∀ c ∈ t.conditions,
      SameUnless (fun e => ∃ name, e = .unknownField name) (c.check r) (c.check r') := by
    intro c hc
    rcases hvalue : r.get? c.field with _ | value
    · exact Or.inr ⟨_, ⟨c.field, rfl⟩, Condition.check_of_get?_eq_none hvalue⟩
    · refine Or.inl (Condition.check_congr ?_)
      rw [hvalue, h _ (field_mem_fields hc) value hvalue]
  refine ((sameUnless_evaluate hconditions).eq ?_).symm
  rintro e ⟨name, rfl⟩
  exact hfound name

/-- A field that is reported missing is one of the tree, and the record lacks it. -/
theorem mem_fields_of_unknownField (h : t.evaluate r = .error (.unknownField name)) :
    name ∈ t.fields ∧ r.get? name = none := by
  obtain ⟨i, hfault⟩ := evaluate_eq_error_iff.mp h
  obtain ⟨c, hc, hcheck⟩ := hfault.failsAt.fails
  obtain ⟨hfield, hnone⟩ := Condition.check_eq_unknownField_iff.mp hcheck
  have hmem := field_mem_fields (List.mem_of_getElem? hc)
  rw [hfield] at hmem
  exact ⟨hmem, hnone⟩

/-- Evaluation reads only the fields of the tree, and further fields do no harm.  Records that agree
on the fields of the tree have the same answer.  An answer on a record, or an error other than a
missing field, is that of every record that keeps the fields of the tree which the first one has.
A field that is reported missing is a field of the tree that is missing, so there is no such report
where all fields of the tree are there. -/
theorem evaluate_own_fields (t : Tree) (r r' : Record) :
    (r.AgreeOn t.fields r' → t.evaluate r = t.evaluate r') ∧
      ((∀ name, t.evaluate r ≠ .error (.unknownField name)) → r.KeptOn t.fields r' →
        t.evaluate r' = t.evaluate r) ∧
      (∀ name, t.evaluate r = .error (.unknownField name) →
        name ∈ t.fields ∧ r.get? name = none) ∧
      ((∀ name ∈ t.fields, r.get? name ≠ none) →
        ∀ name, t.evaluate r ≠ .error (.unknownField name)) := by
  refine ⟨evaluate_eq_of_agreeOn, evaluate_eq_of_keptOn, fun name => mem_fields_of_unknownField,
    fun hall name h => ?_⟩
  obtain ⟨hmem, hnone⟩ := mem_fields_of_unknownField h
  exact hall name hmem hnone

/-- A field behind a short circuit may be missing or have any value, and a field that no condition
names does not matter even to an error. -/
theorem evaluate_own_fields_settled :
    let t := node .or (leaf ⟨"a", .equal, .text "x", "a='x'"⟩)
      (leaf ⟨"b", .less, .number (.ofInt 2), "b<2"⟩)
    let r := Record.ofList [("a", .text "x")]
    (∀ value, t.evaluate (r.insert "b" value) = .ok true) ∧
      t.evaluate ((Record.ofList [("a", .text "y")]).insert "c" (.text "z")) =
        .error (.unknownField "b") ∧
      ∀ value value' name, t.evaluate (Record.ofList [("a", value), ("b", value')]) ≠
        .error (.unknownField name) := by
  intro t r
  have hanswer : t.evaluate r = .ok true := by decide +kernel
  refine ⟨fun value => ?_, ?_, fun value value' => ?_⟩
  · have hkept : r.KeptOn t.fields (r.insert "b" value) := by
      intro name _ found hname
      have hne : "b" ≠ name := by
        rintro rfl
        rw [show r.get? "b" = none by decide +kernel] at hname
        cases hname
      rw [Record.get?_insert, if_neg hne, hname]
    rw [(evaluate_own_fields t r _).2.1 (by rw [hanswer]; nofun) hkept, hanswer]
  · have hagree : Record.AgreeOn t.fields
        ((Record.ofList [("a", .text "y")]).insert "c" (.text "z"))
        (Record.ofList [("a", .text "y")]) := by
      intro name hname
      have hne : "c" ≠ name := by
        rintro rfl
        revert hname
        decide
      rw [Record.get?_insert, if_neg hne]
    rw [(evaluate_own_fields t _ _).1 hagree]
    decide +kernel
  · refine (evaluate_own_fields t _ r).2.2.2 ?_
    intro name hname
    have hcases : name = "a" ∨ name = "b" := by simpa [t, fields, conditions] using hname
    rw [Record.get?_ofList]
    rcases hcases with rfl | rfl
    · simp
    · simp

end Tree

end Rulebook
