import ContractMeter.Number.Binary64
import ContractMeter.Text.Point

/-!
# ContractMeter.Tree.Value

The values a syntax tree is made of. Trees come from a parser or from outside, so a tree is any
nesting of lists and records, and each pass decides what it makes of an unexpected shape.

* `Value` — scalars, lists, records with their fields in order, host objects.
* `Value.field?`, `Value.field` — reading a field.
* `Fields.set` — writing a field in place, or at the end if it is new.
* `Value.truthy` — the values that count as present.
-/

namespace ContractMeter

/-- How a regular expression matches. -/
inductive PatternOption where
  | template
  | ignoreCase
  | multiline
  | dotAll
  | verbose
  | ascii
  | unicode
deriving DecidableEq

/-- A value of the host that has no JSON form. All but patterns are the empty value of their
type. -/
inductive HostObject where
  | pattern (source : List TextPoint) (options : List PatternOption)
  | bytes
  | set
  | complex
deriving DecidableEq

inductive Value where
  | null
  | bool (b : Bool)
  | int (n : Int)
  | float (x : Binary64)
  | text (s : String)
  | broken (t : BrokenText)
  | list (items : List Value)
  | record (fields : List (String × Value))
  | host (object : HostObject)
deriving Inhabited

/-- Fields of a record, in the order they are written. -/
abbrev Fields := List (String × Value)

namespace Fields

/-- The value of a field; the first of a name counts. -/
def get? (fields : Fields) (key : String) : Option Value :=
  List.lookup key fields

/-- A missing field reads as null. -/
def get (fields : Fields) (key : String) : Value :=
  (get? fields key).getD .null

/-- Gives a field a value; it keeps its place if it is there and stands last if it is new. -/
def set (fields : Fields) (key : String) (value : Value) : Fields :=
  match fields with
  | [] => [(key, value)]
  | (k, v) :: rest => if k = key then (k, value) :: rest else (k, v) :: set rest key value

end Fields

namespace Value

/-- A sequence of points as a value: a text if they are all characters. -/
def ofPoints (points : List TextPoint) : Value :=
  match h : TextPoint.chars? points with
  | some cs => .text (String.ofList cs)
  | none => .broken ⟨points, h⟩

def field? (v : Value) (key : String) : Option Value :=
  match v with
  | .record fields => Fields.get? fields key
  | _ => none

/-- A field of a record; null if it is missing or the value is no record. -/
def field (v : Value) (key : String) : Value :=
  (v.field? key).getD .null

/-- Null, false, zeros and everything empty are not truthy; all else is. -/
def truthy : Value → Bool
  | .null => false
  | .bool b => b
  | .int n => n ≠ 0
  | .float x => !x.isZero
  | .text s => !s.isEmpty
  | .broken _ => true
  | .list items => !items.isEmpty
  | .record fields => !fields.isEmpty
  | .host (.pattern ..) => true
  | .host _ => false

/-- The name of a value's type, as messages give it. -/
def typeName : Value → String
  | .null => "null"
  | .bool _ => "bool"
  | .int _ => "int"
  | .float _ => "float"
  | .text _ => "str"
  | .broken _ => "str"
  | .list _ => "list"
  | .record _ => "dict"
  | .host (.pattern ..) => "Pattern"
  | .host .bytes => "bytes"
  | .host .set => "set"
  | .host .complex => "complex"

/-- Whether a value is the given text. -/
def isText (v : Value) (s : String) : Bool :=
  match v with
  | .text t => t = s
  | _ => false

/-- An optional text, null when there is none. -/
def ofText? : Option String → Value
  | some s => .text s
  | none => .null

end Value

end ContractMeter
