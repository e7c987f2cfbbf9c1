import Rulebook.Error
import Rulebook.Json.Reader
import Rulebook.Json.Writer
import Rulebook.Record.Basic

/-!
# Records as JSON

A record is read from a JSON object of numbers and strings.  A scalar is written as a number or a
string, and a number that is not finite as `null`.
-/

namespace Rulebook

/-- A scalar as a JSON value. -/
def Scalar.toJson : Scalar → Json String
  | .number x => .ofBinary64 x
  | .text s => .string s

/-- The scalar that a JSON value is: the number that a numeral stands for, or a text. -/
def Scalar.ofJson? : Json String → Option Scalar
  | .number n => some (.number (Json.numberOf n))
  | .string s => some (.text s)
  | _ => none

namespace Record

/-- A member of a JSON object as a field. -/
def fieldOfMember? : String × Json String → Option (String × Scalar)
  | (name, value) => (Scalar.ofJson? value).map fun scalar => (name, scalar)

/-- The record that a JSON value is; of a repeated key the last value counts. -/
def ofJson? : Json String → Option Record
  | .object members => (members.mapM fieldOfMember?).map ofList
  | _ => none

/-- The record of a JSON text. -/
def ofText (s : String) : Except RuleError Record :=
  match (Json.read? s.toList).bind ofJson? with
  | some r => .ok r
  | none => .error .deserialization

/-! ## The fields of what has been read -/

theorem map_ofJson?_valuesOf {members : List (String × Json String)}
    {fields : List (String × Scalar)} (h : members.mapM fieldOfMember? = some fields)
    (name : String) : (Json.valuesOf members name).map Scalar.ofJson? =
      ((fields.filter (·.1 = name)).map Prod.snd).map some := by
  induction members generalizing fields with
  | nil =>
    cases h
    rfl
  | cons member members ih =>
    rw [List.mapM_cons] at h
    obtain ⟨field, hfield, h⟩ := Option.bind_eq_some_iff.mp h
    obtain ⟨rest, hrest, h⟩ := Option.bind_eq_some_iff.mp h
    obtain ⟨scalar, hscalar, rfl⟩ := Option.map_eq_some_iff.mp hfield
    cases h
    have hvalues := ih hrest
    rw [Json.valuesOf] at hvalues ⊢
    by_cases hname : member.1 = name
    · simp [hname, hscalar, hvalues]
    · simp [hname, hvalues]

/-- A field of a record that has been read is the last value that the text has for it. -/
theorem get?_of_ofText {s : String} {r : Record} {members : List (String × Json String)}
    {name : String} {value : Json String} (h : ofText s = .ok r)
    (hread : Json.read? s.toList = some (.object members))
    (hlast : (Json.valuesOf members name).getLast? = some value) :
    r.get? name = Scalar.ofJson? value := by
  rw [ofText, hread, Option.bind_some, ofJson?] at h
  rcases hfields : members.mapM fieldOfMember? with _ | fields
  · rw [hfields] at h
    cases h
  · rw [hfields] at h
    cases h
    have hvalues := congrArg List.getLast? (map_ofJson?_valuesOf hfields name)
    rw [List.getLast?_map, List.getLast?_map, hlast, ← get?_ofList] at hvalues
    rw [Option.map_some] at hvalues
    cases hget : (ofList fields).get? name with
    | none => rw [hget] at hvalues; cases hvalues
    | some scalar =>
      rw [hget] at hvalues
      exact (Option.some.inj hvalues).symm

end Record

end Rulebook
