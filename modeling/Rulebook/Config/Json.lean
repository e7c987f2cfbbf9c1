import Rulebook.Config.Basic
import Rulebook.Json.Reader
import Rulebook.Json.Writer

/-!
# Configurations as JSON

A configuration is written as an object of its five fields.  It is read from such an object, in any
order and with defaults for what is missing, or from an array of the first so many fields.  Unknown
keys are skipped: what stands under them must be JSON by the grammar and nothing more, so a
configuration is read from a value as it is written.

* `Config.toJson`, `Config.write`: a configuration as JSON.
* `Config.ofJson?`: the configuration that a JSON value is, valid or not.
* `Config.ofText`: the valid configuration of a JSON text.
-/

namespace Rulebook.Config

/-! ## Writing -/

/-- A configuration as a JSON value. -/
def toJson (c : Config) : Json String :=
  .object [
    ("max_rule_length", .ofNat c.maxRuleLength),
    ("max_depth", .ofNat c.maxDepth),
    ("default_connective", .string c.defaultConnective.keyword),
    ("cache_rules", .bool c.cacheRules),
    ("cache_capacity", .ofNat c.cacheCapacity)]

/-- A configuration as JSON text. -/
def write (c : Config) : String := c.toJson.write

/-! ## Reading -/

/-- A JSON value as it is written, in which a string need not have a text. -/
abbrev WrittenValue := Json (Option String)

/-- A size: bare digits that 64 bits hold. -/
def size? : WrittenValue → Option Nat
  | .number n => n.natural?
  | _ => none

def flag? : WrittenValue → Option Bool
  | .bool b => some b
  | _ => none

/-- A connective: its word, or an object with its word as the only key and nothing under it. -/
def connective? : WrittenValue → Option Connective
  | .string (some word) => Connective.ofKeyword? word
  | .object [(some word, .null)] => Connective.ofKeyword? word
  | _ => none

/-- The fields of a configuration. -/
inductive Field where
  | maxRuleLength
  | maxDepth
  | defaultConnective
  | cacheRules
  | cacheCapacity
  deriving DecidableEq, Repr

/-- The fields in the order in which they are written. -/
def Field.all : List Field :=
  [.maxRuleLength, .maxDepth, .defaultConnective, .cacheRules, .cacheCapacity]

/-- The key of a field. -/
def Field.key : Field → String
  | .maxRuleLength => "max_rule_length"
  | .maxDepth => "max_depth"
  | .defaultConnective => "default_connective"
  | .cacheRules => "cache_rules"
  | .cacheCapacity => "cache_capacity"

/-- The field that a key names. -/
def Field.ofKey? (key : String) : Option Field := all.find? (·.key = key)

/-- The configuration with one field set from a JSON value. -/
def set? (c : Config) (value : WrittenValue) : Field → Option Config
  | .maxRuleLength => (size? value).map fun n => { c with maxRuleLength := n }
  | .maxDepth => (size? value).map fun n => { c with maxDepth := n }
  | .defaultConnective => (connective? value).map fun k => { c with defaultConnective := k }
  | .cacheRules => (flag? value).map fun b => { c with cacheRules := b }
  | .cacheCapacity => (size? value).map fun n => { c with cacheCapacity := n }

/-- The configuration with fields set from the items of an array, in order.  There must be a field
for each item. -/
def setItems? (c : Config) : List Field → List WrittenValue → Option Config
  | _, [] => some c
  | [], _ :: _ => none
  | field :: fields, value :: values => do (← c.set? value field).setItems? fields values

/-- The configuration with fields set from the members of an object.  Each key must have a text,
no field may be set twice, and keys that name no field are skipped. -/
def setMembers? (c : Config) (seen : List Field) :
    List (Option String × WrittenValue) → Option Config
  | [] => some c
  | (none, _) :: _ => none
  | (some key, value) :: rest =>
    match Field.ofKey? key with
    | none => c.setMembers? seen rest
    | some field =>
      if field ∈ seen then none
      else do (← c.set? value field).setMembers? (field :: seen) rest

/-- The configuration that a JSON value is; what is not said has its default. -/
def ofJson? : WrittenValue → Option Config
  | .array items => Config.default.setItems? Field.all items
  | .object members => Config.default.setMembers? [] members
  | _ => none

/-- The valid configuration of a JSON text. -/
def ofText (s : String) : Except RuleError Config :=
  match (Json.readWritten? s.toList).bind ofJson? with
  | some c => do
    c.validate
    return c
  | none => .error .deserialization

end Rulebook.Config
