import ContractMeter.Number.Shortest
import ContractMeter.Text.Quoted
import ContractMeter.Tree.Value

/-!
# ContractMeter.Tree.Display

The text of a value in messages and reports:

* `Value.display` — a text stands for itself.
* `Value.inspect` — a text is quoted, as it is inside a list or record.
-/

namespace ContractMeter

/-- Numbers from 0.0001 up to below 10^16 are written out; others have an exponent. -/
def plainLayout : DecimalLayout where
  leastPositional := -4
  greatestPositional := 15
  infinity := "inf"
  notANumber := "nan"

/-- The options that are shown, in their order, with their names. -/
def PatternOption.shown : List (PatternOption × String) :=
  [(.template, "re.TEMPLATE"), (.ignoreCase, "re.IGNORECASE"), (.multiline, "re.MULTILINE"),
    (.dotAll, "re.DOTALL"), (.verbose, "re.VERBOSE"), (.ascii, "re.ASCII")]

/-- The options of a pattern behind its source. -/
def PatternOption.suffix (options : List PatternOption) : String :=
  let names := (shown.filter fun entry => options.contains entry.1).map (·.2)
  if names.isEmpty then "" else ", " ++ String.intercalate "|" names

/-- A host object; the quoted source of a pattern is cut after 200 characters. -/
def HostObject.display : HostObject → String
  | .pattern source options =>
    let quoted := (Text.quotedPoints source).toList.take 200
    "re.compile(" ++ String.ofList quoted ++ PatternOption.suffix options ++ ")"
  | .bytes => "b''"
  | .set => "set()"
  | .complex => "0j"

namespace Value

mutual

def inspect : Value → String
  | .null => "None"
  | .bool true => "True"
  | .bool false => "False"
  | .int n => toString n
  | .float x => x.format plainLayout
  | .text s => Text.quoted s
  | .broken t => Text.quotedPoints t.points
  | .list items => "[" ++ inspectItems items ++ "]"
  | .record fields => "\x7b" ++ inspectFields fields ++ "\x7d"
  | .host object => object.display

def inspectItems : List Value → String
  | [] => ""
  | [item] => inspect item
  | item :: rest => inspect item ++ ", " ++ inspectItems rest

def inspectFields : List (String × Value) → String
  | [] => ""
  | [(key, value)] => Text.quoted key ++ ": " ++ inspect value
  | (key, value) :: rest =>
    Text.quoted key ++ ": " ++ inspect value ++ ", " ++ inspectFields rest

end

/-- The text of a value; half of a surrogate pair is shown by its code. -/
def display : Value → String
  | .text s => s
  | .broken t => String.ofList (t.points.flatMap fun
      | .scalar c => [c]
      | .surrogate offset => Text.escapedCode (0xD800 + offset.val))
  | v => inspect v

end Value

end ContractMeter
