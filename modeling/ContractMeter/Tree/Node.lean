import ContractMeter.Failure

/-!
# ContractMeter.Tree.Node

A node of a syntax tree is a record with a `type` field:

* `Value.isNode`, `Value.kind` — the kind of a node, or the name of another value's type.
* `Value.line` — the line a located node starts on.
* `Value.elements` — what a value yields where a list is read.
* `levelsLeft` — how many levels of a tree a walk may still enter.
-/

namespace ContractMeter

namespace Value

def isNode (v : Value) : Bool :=
  (v.field? "type").isSome

/-- The kind of a node, whatever its `type` field holds; the type name of any other value. -/
def kind (v : Value) : Value :=
  (v.field? "type").getD (.text v.typeName)

/-- Whether a value is a node of the given kind. -/
def hasKind (v : Value) (name : String) : Bool :=
  v.isNode && v.kind.isText name

/-- The fields to read a position from: none if the value is not truthy. -/
def positionFields (v : Value) : Except Fault Fields :=
  if v.truthy then
    match v with
    | .record fields => .ok fields
    | _ => .error .notARecord
  else
    .ok []

/-- What `loc.start.line` holds; null for a value without it. -/
def line (v : Value) : Except Fault Value :=
  match v with
  | .record fields =>
    match (Fields.get fields "loc").positionFields with
    | .error fault => .error fault
    | .ok loc =>
      match (Fields.get loc "start").positionFields with
      | .error fault => .error fault
      | .ok start => .ok (Fields.get start "line")
  | _ => .ok .null

/-- The elements of a value: the items of a list, the characters of a text, the field names of a
record. -/
def elements (v : Value) : Except Fault (List Value) :=
  match v with
  | .list items => .ok items
  | .text s => .ok (s.toList.map fun c => .text (String.singleton c))
  | .broken t => .ok (t.points.map fun p => .ofPoints [p])
  | .record fields => .ok (fields.map fun field => .text field.1)
  | .host .bytes => .ok []
  | .host .set => .ok []
  | _ => .error .notIterable

/-- Whether a value may be looked up among names; a list or a record may not. -/
def comparable : Value → Bool
  | .list _ => false
  | .record _ => false
  | _ => true

/-- Whether a value may be the key of a table; nor may a set be one. -/
def usableKey : Value → Bool
  | .host .set => false
  | v => v.comparable

end Value

/-- The levels that a walk standing at `depth` may still enter, its own included. -/
def levelsLeft (limit depth : Int) : Nat :=
  (limit + 1 - depth).toNat

end ContractMeter
