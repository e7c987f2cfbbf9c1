import Mathlib.Data.Nat.Basic
import Rulebook.Evaluate

/-!
# The dual of a tree

Swap the connectives of a tree and complement its comparators, and every answer is turned into its
opposite.  For truth values this is De Morgan's law.  Evaluation is more than that: it stops early,
it fails, and it chooses between numbers and texts at every leaf.  The dual makes the same choices.
A field and its literal are two numbers or they are not, whatever the comparator is, and a
comparator needs an order exactly if its complement does; so a leaf and its complement fail
together, with the same error, since the text and the field in it are the same
(`Condition.check_complement`).  And a left side settles a node if the opposite answer settles the
node with the other connective (`Connective.settle_dual`).

Numbers have to be comparable.  A NaN is neither greater than a number nor less or equal, so a
condition and its complement both fail to hold.  No literal that was read is a NaN, but a record may
hold one.

* `Comparator.holds_complement`: of a comparator and its complement one holds.
* `Tree.evaluate_dual`: the dual of a tree has the opposite answer, or the same error.
-/

namespace Rulebook

/-! ## Duals -/

/-- The other connective. -/
def Connective.dual : Connective → Connective
  | .and => .or
  | .or => .and

/-- The comparator that holds where the given one does not. -/
def Comparator.complement : Comparator → Comparator
  | .greater => .lessEqual
  | .lessEqual => .greater
  | .less => .greaterEqual
  | .greaterEqual => .less
  | .equal => .notEqual
  | .notEqual => .equal

/-- The condition with the complement of its comparator.  The text is kept as it is. -/
def Condition.complement (c : Condition) : Condition :=
  { c with comparator := c.comparator.complement }

/-- The tree with the other connective at each node and the complement at each leaf. -/
def Tree.dual : Tree → Tree
  | leaf condition => leaf condition.complement
  | node c left right => node c.dual left.dual right.dual

/-! ## Comparators -/

@[simp] theorem Comparator.isOrdering_complement (k : Comparator) :
    k.complement.isOrdering = k.isOrdering := by
  cases k <;> rfl

theorem Comparator.complement_eq_notEqual_iff {k : Comparator} :
    k.complement = .notEqual ↔ k = .equal := by
  cases k <;> decide

/-- Of a comparator and its complement one holds and the other does not, if the numbers are
comparable: ranks are integers, and the order of integers is total. -/
theorem Comparator.holds_complement (k : Comparator) {x y : Binary64} (hx : x.isNaN = false)
    (hy : y.isNaN = false) : k.complement.holds x y = !k.holds x y := by
  have hlt : ∀ a b : Int, decide (a ≤ b) = !decide (b < a) := fun a b => by
    rw [← decide_not, decide_eq_decide]
    omega
  have hle : ∀ a b : Int, decide (a < b) = !decide (b ≤ a) := fun a b => by
    rw [← decide_not, decide_eq_decide]
    omega
  cases k with
  | greater => simp [complement, holds, Binary64.lt, Binary64.le, Binary64.comparable, hx, hy, hlt]
  | less => simp [complement, holds, Binary64.lt, Binary64.le, Binary64.comparable, hx, hy, hlt]
  | greaterEqual =>
    simp [complement, holds, Binary64.lt, Binary64.le, Binary64.comparable, hx, hy, hle]
  | lessEqual =>
    simp [complement, holds, Binary64.lt, Binary64.le, Binary64.comparable, hx, hy, hle]
  | equal => rfl
  | notEqual => rw [complement, holds, holds, Bool.not_not]

/-! ## Conditions -/

namespace Condition

variable (c : Condition)

/-- A value that is compared as a text gives the opposite answer, or the same error. -/
theorem checkText_complement (value : Scalar) :
    c.complement.checkText value = (c.checkText value).map not := by
  unfold checkText
  simp only [complement, Comparator.isOrdering_complement, Comparator.complement_eq_notEqual_iff]
  by_cases hordering : c.comparator.isOrdering = true
  · rw [if_pos hordering, if_pos hordering]
    rfl
  · rw [if_neg hordering, if_neg hordering, Except.map]
    cases hk : c.comparator with
    | equal => simp
    | notEqual => simp
    | _ => exact absurd (hk ▸ rfl) hordering

/-- A value gives the opposite answer, or the same error, if it is no NaN and the literal is
none. -/
theorem checkValue_complement {value : Scalar}
    (hliteral : ∀ x, c.literal = .number x → x.isNaN = false)
    (hvalue : ∀ x, value = .number x → x.isNaN = false) :
    c.complement.checkValue value = (c.checkValue value).map not := by
  have hnumbers : c.complement.literal.numbers? value = c.literal.numbers? value := rfl
  unfold checkValue
  rw [hnumbers]
  rcases hpair : c.literal.numbers? value with _ | ⟨actual, expected⟩
  · exact c.checkText_complement value
  · obtain ⟨hexpected, hactual⟩ := Literal.numbers?_eq_some_iff.mp hpair
    exact congrArg Except.ok (c.comparator.holds_complement
      (Scalar.isNaN_of_number? hactual hvalue) (hliteral expected hexpected))

theorem check_complement {record : Record}
    (hliteral : ∀ x, c.literal = .number x → x.isNaN = false)
    (hrecord : ∀ x, record.get? c.field = some (.number x) → x.isNaN = false) :
    c.complement.check record = (c.check record).map not := by
  have hfield : record.get? c.complement.field = record.get? c.field := rfl
  rcases hvalue : record.get? c.field with _ | value
  · rw [check, check, hfield, hvalue]
    rfl
  · rw [check_of_get? hvalue, check_of_get? (hfield.trans hvalue)]
    refine c.checkValue_complement hliteral fun x hx => hrecord x ?_
    rw [hvalue, hx]

end Condition

/-! ## Trees -/

/-- What is left open is left open by the dual as well, and what is settled is settled the other
way. -/
theorem Connective.settle_dual (c : Connective) (left right : Except RuleError Bool) :
    c.dual.settle (left.map not) (fun _ => right.map not) =
      (c.settle left fun _ => right).map not := by
  rcases left with e | _ | _
  · cases c <;> rfl
  · cases c <;> rfl
  · cases c <;> rfl

namespace Tree

/-- The dual of a tree has the opposite answer, or the same error.  The literals of the tree are no
NaNs, and neither are the numbers in its fields. -/
theorem evaluate_dual (t : Tree) (record : Record)
    (hliterals : ∀ c ∈ t.conditions, ∀ x, c.literal = .number x → x.isNaN = false)
    (hfields : ∀ field ∈ t.fields, ∀ x, record.get? field = some (.number x) → x.isNaN = false) :
    t.dual.evaluate record = (t.evaluate record).map not := by
  induction t with
  | leaf condition =>
    have hfield : condition.field ∈ (leaf condition).fields := List.mem_singleton_self _
    exact condition.check_complement (hliterals condition (List.mem_singleton_self _))
      (hfields condition.field hfield)
  | node c left right ihl ihr =>
    rw [fields_node] at hfields
    have hleft := ihl (fun d hd => hliterals d (List.mem_append_left _ hd))
      (fun field h => hfields field (List.mem_append_left _ h))
    have hright := ihr (fun d hd => hliterals d (List.mem_append_right _ hd))
      (fun field h => hfields field (List.mem_append_right _ h))
    rw [dual, evaluate_node, evaluate_node, hleft, hright]
    exact c.settle_dual _ _

/-- A settled answer is turned round, and an order that a text cannot have stays an error that
quotes the condition as it was written. -/
theorem evaluate_dual_mixed :
    let record := Record.ofList [("a", .number (.ofInt 3)), ("b", .text "x")]
    let larger := leaf ⟨"a", .greater, .number (.ofInt 2), "a>2"⟩
    let disordered := leaf ⟨"b", .less, .number (.ofInt 2), "b<2"⟩
    (node .or larger disordered).dual.evaluate record = .ok false ∧
      (node .and larger disordered).dual.evaluate record =
        .error (.typeMismatch "b<2" "b" (.text "x")) := by
  intro record larger disordered
  have ha : record.get? "a" = some (.number (.ofInt 3)) := by decide +kernel
  have hb : record.get? "b" = some (.text "x") := by decide +kernel
  have hfields : ∀ field ∈ ["a", "b"], ∀ x,
      record.get? field = some (.number x) → x.isNaN = false := by
    simp only [List.forall_mem_cons, ha, hb, Option.some.injEq, Scalar.number.injEq]
    exact ⟨fun x hx => hx ▸ Binary64.isNaN_ofInt 3, nofun, nofun⟩
  have hliterals : ∀ c ∈ larger.conditions ++ disordered.conditions, ∀ x,
      c.literal = .number x → x.isNaN = false := by
    have htwo : ∀ x, Literal.number (.ofInt 2) = .number x → x.isNaN = false := by
      intro x hx
      rw [← Literal.number.inj hx]
      exact Binary64.isNaN_ofInt 2
    exact List.forall_mem_cons.mpr ⟨htwo, List.forall_mem_cons.mpr ⟨htwo, nofun⟩⟩
  constructor
  · rw [evaluate_dual (node .or larger disordered) record hliterals hfields]
    decide +kernel
  · rw [evaluate_dual (node .and larger disordered) record hliterals hfields]
    decide +kernel

end Tree

end Rulebook
