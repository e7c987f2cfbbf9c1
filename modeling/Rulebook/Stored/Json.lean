import Rulebook.Json.Reader
import Rulebook.Json.Writer
import Rulebook.Stored.Basic

/-!
# Stored trees as JSON

A stored node is written as an object that names its type first.  Reading is freer: the members may
come in any order with unknown ones among them, and an array of the type and the parts in order
does as well.  A node inside another one may also give its type as a number, the place of the type
in the list of types.

* `StoredNode.toJson`, `StoredNode.ofJson?`: nodes as JSON values, with `ofJson?_toJson`.
* `Tree.write`, `Tree.ofText`, `Tree.ofValue`: trees as JSON, with the cause of a failure.
* `Tree.decode`: trees as JSON where every failure counts as one.
-/

namespace Rulebook

namespace StoredNode

/-! ## Writing -/

/-- A node as a JSON value. -/
def toJson : StoredNode → Json String
  | operand value => .object [("type", .string "operand"), ("value", .string value)]
  | operator value left right =>
    .object [("type", .string "operator"), ("value", .string value), ("left", left.toJson),
      ("right", right.toJson)]

/-- A node as JSON text. -/
def write (node : StoredNode) : String := node.toJson.write

/-! ## Reading -/

/-- The types of nodes. -/
inductive NodeType where
  | operand
  | operator
  deriving DecidableEq, Repr

/-- The type that a JSON value names.  A number does so only in a node inside another one. -/
def NodeType.ofJson? (inner : Bool) : Json String → Option NodeType
  | .string name =>
    if name = "operand" then some .operand
    else if name = "operator" then some .operator
    else none
  | .number n =>
    if inner then
      match n.natural? with
      | some 0 => some .operand
      | some 1 => some .operator
      | _ => none
    else none
  | _ => none

/-- A part of a node: the JSON value, and the inner node that it describes, if it does. -/
structure Part where
  value : Json String
  node? : Option StoredNode

/-- The text that a part is. -/
def Part.text? (p : Part) : Option String :=
  match p.value with
  | .string s => some s
  | _ => none

/-- The node that the items of an array describe. -/
def ofItems? (inner : Bool) : List Part → Option StoredNode
  | [type, value] => do
    let .operand ← NodeType.ofJson? inner type.value | none
    return operand (← value.text?)
  | [type, value, left, right] => do
    let .operator ← NodeType.ofJson? inner type.value | none
    return operator (← value.text?) (← left.node?) (← right.node?)
  | _ => none

/-- The part under a key that is there exactly once. -/
def only? (members : List (String × Part)) (key : String) : Option Part :=
  match members.filter (·.1 = key) with
  | [(_, part)] => some part
  | _ => none

/-- The node that the members of an object describe.  Only members that the type asks for count. -/
def ofMembers? (inner : Bool) (members : List (String × Part)) : Option StoredNode := do
  match ← NodeType.ofJson? inner (← only? members "type").value with
  | .operand => return operand (← (← only? members "value").text?)
  | .operator =>
    return operator (← (← only? members "value").text?) (← (← only? members "left").node?)
      (← (← only? members "right").node?)

mutual

/-- The node that a JSON value describes.  `inner` says whether it is part of another node. -/
def ofJson? (inner : Bool) : Json String → Option StoredNode
  | .array items => ofItems? inner (itemParts items)
  | .object members => ofMembers? inner (memberParts members)
  | _ => none

/-- The items of an array as parts. -/
def itemParts : List (Json String) → List Part
  | [] => []
  | item :: rest => ⟨item, ofJson? true item⟩ :: itemParts rest

/-- The members of an object as parts. -/
def memberParts : List (String × Json String) → List (String × Part)
  | [] => []
  | (key, value) :: rest => (key, ⟨value, ofJson? true value⟩) :: memberParts rest

end

/-- The JSON value of a node describes that node. -/
@[simp] theorem ofJson?_toJson (inner : Bool) (node : StoredNode) :
    ofJson? inner node.toJson = some node := by
  induction node generalizing inner with
  | operand value =>
    simp [toJson, ofJson?, memberParts, ofMembers?, only?, NodeType.ofJson?, Part.text?]
  | operator value left right ihl ihr =>
    simp [toJson, ofJson?, memberParts, ofMembers?, only?, NodeType.ofJson?, Part.text?, ihl, ihr]

/-- The node that a JSON text describes, its texts unread. -/
def ofText (s : String) : Except RuleError StoredNode :=
  match (Json.read? s.toList).bind (ofJson? false) with
  | some node => .ok node
  | none => .error .deserialization

end StoredNode

/-! ## Trees -/

namespace Tree

/-- A tree as JSON text. -/
def write (t : Tree) : String := (StoredNode.ofTree t).write

/-- The tree of a JSON text, or why there is none. -/
def ofText (s : String) : Except RuleError Tree := (StoredNode.ofText s).bind StoredNode.toTree

/-- The tree of a JSON value.  Of a repeated key the last value counts. -/
def ofValue (v : Json String) : Except RuleError Tree :=
  match StoredNode.ofJson? false v.withLastMembers with
  | some stored => stored.toTree
  | none => .error .deserialization

/-- The tree of a JSON text that is first read as a JSON value. -/
def ofValueText (s : String) : Except RuleError Tree :=
  match Json.read? s.toList with
  | some v => ofValue v
  | none => .error .deserialization

/-- The tree of a JSON text.  What keeps a text from being a tree is not told apart. -/
def decode (s : String) : Except RuleError Tree :=
  match ofText s with
  | .ok t => .ok t
  | .error _ => .error .deserialization

end Tree

end Rulebook
