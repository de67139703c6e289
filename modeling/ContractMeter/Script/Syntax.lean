import ContractMeter.Script.State
import ContractMeter.Tree.Node

/-!
# ContractMeter.Script.Syntax

Nodes of the tree a script is read as:

* `node`, `finish` — a node without its null fields, and its location.
* `toPattern` — an expression read again as a binding pattern.
* `boundNames` — the names that a pattern binds.

Two names are the same if their points are; a text of a name may hide which half of a pair it
has.
-/

namespace ContractMeter.Script

/-- A node; fields that are null are left out. -/
def node (kind : String) (fields : Fields) : Value :=
  .record (("type", .text kind) :: fields.filter fun field =>
    match field.2 with
    | .null => false
    | _ => true)

def markValue (line column : Int) : Value :=
  .record [("line", .int line), ("column", .int column)]

/-- Gives a node its location, from a place up to the end of the last token, if nodes get
locations. -/
def finish (start : Mark) (value : Value) : Grammar Value := do
  let s ← get
  match value with
  | .record fields =>
    if s.locate then
      let location := Value.record [
        ("start", markValue start.line start.column),
        ("end", markValue s.lastMark.line s.lastMark.column)]
      return .record (fields ++ [("loc", location)])
    else return value
  | _ => return value

/-- The place of the token ahead. -/
def here : Grammar Mark := return (← get).startMark

/-- The place where a token starts. A token that spans lines starts on an earlier one; its column
is then counted from another line's start. -/
def Token.mark (token : Token) (lineStart : Int) : Mark :=
  let column := (token.start : Int) - token.lineStart
  if column < 0 then ⟨token.start, (token.line : Int) - 1, column + lineStart⟩
  else ⟨token.start, token.line, column⟩

/-- A node that starts with a token. -/
def finishFrom (token : Token) (value : Value) : Grammar Value :=
  finish (token.mark 0) value

def identifier (name : Value) : Value := node "Identifier" [("name", name)]

def literal (token : Token) : Value :=
  node "Literal" [("value", token.value), ("raw", .text token.raw)]

/-- The name of an identifier; empty for any other node. -/
def nameOf (v : Value) : String :=
  if v.hasKind "Identifier" then
    match v.field "name" with
    | .text s => s
    | _ => ""
  else ""

/-- The points of a text; none for any other value. -/
def pointsOf : Value → List TextPoint
  | .text s => TextPoint.ofString s
  | .broken t => t.points
  | _ => []

/-- Parameters that may turn out to be those of an arrow function. -/
def placeholder (params : List Value) (isAsync : Bool) : Value :=
  node "ArrowParameterPlaceHolder" [("params", .list params), ("async", .bool isAsync)]

def isPlaceholder (v : Value) : Bool := v.hasKind "ArrowParameterPlaceHolder"

/-- The items of a list field. -/
def itemsOf (v : Value) (key : String) : List Value :=
  match v.field key with
  | .list items => items
  | _ => []

/-- The kind of a node with the given fields. -/
def kindOf (fields : Fields) : String :=
  match Fields.get fields "type" with
  | .text s => s
  | _ => ""

/-- The kind of pattern that an expression becomes. -/
def patternKind : String → String
  | "SpreadElement" => "RestElement"
  | "ArrayExpression" => "ArrayPattern"
  | "ObjectExpression" => "ObjectPattern"
  | "AssignmentExpression" => "AssignmentPattern"
  | kind => kind

mutual

/-- An expression read again as a pattern. What cannot be a pattern stays as it is. -/
def toPattern : Value → Value
  | .record fields => .record (patternFields (kindOf fields) fields)
  | v => v

/-- The fields of an expression of a kind as those of a pattern. -/
def patternFields (kind : String) : List (String × Value) → List (String × Value)
  | [] => []
  | (key, value) :: rest =>
    let others := patternFields kind rest
    if key = "type" then (key, .text (patternKind kind)) :: others
    else if kind = "SpreadElement" ∧ key = "argument" then (key, toPattern value) :: others
    else if kind = "ArrayExpression" ∧ key = "elements" then (key, patternList value) :: others
    else if kind = "ObjectExpression" ∧ key = "properties" then
      (key, propertyList value) :: others
    else if kind = "AssignmentExpression" ∧ key = "operator" then others
    else if kind = "AssignmentExpression" ∧ key = "left" then (key, toPattern value) :: others
    else (key, value) :: others

def patternList : Value → Value
  | .list items => .list (patternItems items)
  | v => v

def patternItems : List Value → List Value
  | [] => []
  | item :: rest => toPattern item :: patternItems rest

def propertyList : Value → Value
  | .list items => .list (propertyItems items)
  | v => v

def propertyItems : List Value → List Value
  | [] => []
  | item :: rest => toProperty item :: propertyItems rest

/-- A member of an object pattern: a rest element, or a property whose value is a pattern. -/
def toProperty : Value → Value
  | .record fields =>
    if kindOf fields = "SpreadElement" then .record (patternFields "SpreadElement" fields)
    else .record (propertyFields fields)
  | v => v

def propertyFields : List (String × Value) → List (String × Value)
  | [] => []
  | (key, value) :: rest =>
    (key, if key = "value" then toPattern value else value) :: propertyFields rest

end

mutual

/-- The names that a pattern binds, in order. -/
def boundNames : Value → List (List TextPoint)
  | .record fields =>
    match kindOf fields with
    | "Identifier" => [pointsOf (Fields.get fields "name")]
    | "RestElement" => fieldNames "argument" fields
    | "AssignmentPattern" => fieldNames "left" fields
    | "ArrayPattern" => fieldNames "elements" fields
    | "ObjectPattern" => fieldNames "properties" fields
    | "Property" => fieldNames "value" fields
    | _ => []
  | .list items => itemNames items
  | _ => []

/-- The names bound in the field with a key. -/
def fieldNames (key : String) : List (String × Value) → List (List TextPoint)
  | [] => []
  | (k, value) :: rest => if k = key then boundNames value else fieldNames key rest

def itemNames : List Value → List (List TextPoint)
  | [] => []
  | item :: rest => boundNames item ++ itemNames rest

end

/-- Whether a property key is the given name, as an identifier or as a string. -/
def isKey (key : Value) (name : String) : Bool :=
  (key.hasKind "Identifier" && (key.field "name").isText name) ||
    (key.hasKind "Literal" && (key.field "value").isText name)

end ContractMeter.Script
