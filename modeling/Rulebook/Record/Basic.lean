import Rulebook.Scalar
import Std.Data.ExtTreeMap

/-!
# Records

A record maps field names to scalars.  Two records with the same fields are the same record, in
whatever order the fields were written; listed, they come in the order of their names.

* `get?`, `insert`, `size`, `fields`: the map.
* `ofList`: a record from pairs, of which the last one of each name counts.
* `same`: equality in which numbers are compared as numbers.
-/

namespace Rulebook

/-- The fields a rule is evaluated against. -/
structure Record where
  entries : Std.ExtTreeMap String Scalar

namespace Record

/-- The record without fields. -/
def empty : Record := ⟨∅⟩

/-- The value of a field, if the record has it. -/
def get? (r : Record) (field : String) : Option Scalar := r.entries[field]?

/-- The record with one field set. -/
def insert (r : Record) (field : String) (value : Scalar) : Record :=
  ⟨r.entries.insert field value⟩

/-- The number of fields. -/
def size (r : Record) : Nat := r.entries.size

def isEmpty (r : Record) : Bool := r.entries.isEmpty

/-- The fields with their values, by increasing name. -/
def fields (r : Record) : List (String × Scalar) := r.entries.toList

/-- The record of a list of fields; a later one takes the place of an earlier one. -/
def ofList (fields : List (String × Scalar)) : Record :=
  fields.foldl (fun r field => r.insert field.1 field.2) empty

@[simp] theorem get?_empty (field : String) : empty.get? field = none := by
  simp [empty, get?]

theorem get?_insert (r : Record) (field name : String) (value : Scalar) :
    (r.insert field value).get? name = if field = name then some value else r.get? name := by
  simp [insert, get?, Std.ExtTreeMap.getElem?_insert]

@[simp] theorem get?_insert_self (r : Record) (field : String) (value : Scalar) :
    (r.insert field value).get? field = some value := by
  rw [get?_insert, if_pos rfl]

theorem get?_foldl_insert (fields : List (String × Scalar)) (r : Record) (name : String) :
    (fields.foldl (fun r field => r.insert field.1 field.2) r).get? name =
      ((fields.filter (·.1 = name)).map Prod.snd).getLast?.or (r.get? name) := by
  induction fields generalizing r with
  | nil => rfl
  | cons field fields ih =>
    rw [List.foldl_cons, ih, get?_insert, List.filter_cons]
    by_cases hname : field.1 = name
    · simp only [hname, decide_true, if_true, List.map_cons, List.getLast?_cons]
      cases ((fields.filter (·.1 = name)).map Prod.snd).getLast? <;> rfl
    · simp only [hname, decide_false, Bool.false_eq_true, if_false]

/-- Of the pairs of one name the last one counts. -/
theorem get?_ofList (fields : List (String × Scalar)) (name : String) :
    (ofList fields).get? name = ((fields.filter (·.1 = name)).map Prod.snd).getLast? := by
  rw [ofList, get?_foldl_insert, get?_empty, Option.or_none]

/-- Two records that agree on every field are the same. -/
theorem ext_get? {r s : Record} (h : ∀ field, r.get? field = s.get? field) : r = s :=
  congrArg mk (Std.ExtTreeMap.ext_getElem? h)

/-- Setting a field to the value it has changes nothing. -/
theorem insert_eq_self {r : Record} {field : String} {value : Scalar}
    (h : r.get? field = some value) : r.insert field value = r := by
  refine ext_get? fun name => ?_
  rw [get?_insert]
  split
  · next hname => rw [← hname, h]
  · rfl

/-- Equality of records by their values.  A field that holds a NaN equals nothing. -/
def same (r s : Record) : Bool :=
  r.size == s.size && r.fields.all fun (field, value) =>
    match s.get? field with
    | some other => value.same other
    | none => false

end Record

end Rulebook
