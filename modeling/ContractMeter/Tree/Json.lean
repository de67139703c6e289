import ContractMeter.Text.Integer
import ContractMeter.Tree.Display

/-!
# ContractMeter.Tree.Json

JSON texts of values:

* `JsonStyle` — separators, indentation, and whether only ASCII characters are written.
* `Value.json` — the text; it takes every value.
* `Value.unwritable?` — the first part of a value that a text must not hold.
-/

namespace ContractMeter

structure JsonStyle where
  ascii : Bool
  /-- Between two items on one line. -/
  itemSeparator : String
  keySeparator : String
  /-- The indentation of a level if every item has a line of its own. -/
  indent : Option Nat

namespace JsonStyle

/-- One line without blanks, characters as themselves. -/
def compact : JsonStyle := ⟨false, ",", ":", none⟩

/-- One line in ASCII. -/
def line : JsonStyle := ⟨true, ", ", ": ", none⟩

/-- An item to a line in ASCII, two blanks to a level. -/
def pretty : JsonStyle := ⟨true, ",", ": ", some 2⟩

end JsonStyle

namespace Json

/-- Numbers as in messages, with JSON's common names for the values that have no numeral. -/
def floatLayout : DecimalLayout :=
  { plainLayout with infinity := "Infinity", notANumber := "NaN" }

def unicodeEscape (unit : Nat) : List Char :=
  '\\' :: 'u' :: Text.hexPadded 4 unit

/-- An ASCII character but delete stands for itself; one beyond U+FFFF is written as its two
surrogate halves. -/
def asciiEscape (c : Char) : List Char :=
  let n := c.toNat
  if n < 0x7F then [c]
  else if n < 0x10000 then unicodeEscape n
  else
    unicodeEscape (0xD800 + (n - 0x10000) / 0x400) ++ unicodeEscape (0xDC00 + (n - 0x10000) % 0x400)

/-- A character inside quotation marks. -/
def escapeChar (ascii : Bool) (c : Char) : List Char :=
  if c = '"' ∨ c = '\\' then ['\\', c]
  else if c = '\n' then ['\\', 'n']
  else if c = '\r' then ['\\', 'r']
  else if c = '\t' then ['\\', 't']
  else if c = '\x08' then ['\\', 'b']
  else if c = '\x0c' then ['\\', 'f']
  else if c.toNat < 0x20 then unicodeEscape c.toNat
  else if ascii then asciiEscape c
  else [c]

/-- A point inside quotation marks. Half of a pair has an escape but no character. -/
def escapePoint (ascii : Bool) : TextPoint → List Char
  | .scalar c => escapeChar ascii c
  | .surrogate offset => if ascii then unicodeEscape (0xD800 + offset.val) else ['\uFFFD']

def quote (ascii : Bool) (s : String) : List Char :=
  '"' :: (s.toList.flatMap (escapeChar ascii) ++ ['"'])

def quotePoints (ascii : Bool) (points : List TextPoint) : List Char :=
  '"' :: (points.flatMap (escapePoint ascii) ++ ['"'])

/-- The start of a line at a level, if items have lines of their own. -/
def newline (style : JsonStyle) (level : Nat) : List Char :=
  match style.indent with
  | none => []
  | some width => '\n' :: List.replicate (width * level) ' '

end Json

namespace Value

mutual

/-- The characters of a value at a level of indentation, with others behind them. -/
def jsonChars (style : JsonStyle) (level : Nat) : Value → List Char → List Char
  | .null, behind => "null".toList ++ behind
  | .bool true, behind => "true".toList ++ behind
  | .bool false, behind => "false".toList ++ behind
  | .int n, behind => (toString n).toList ++ behind
  | .float x, behind => (x.format Json.floatLayout).toList ++ behind
  | .text s, behind => Json.quote style.ascii s ++ behind
  | .broken t, behind => Json.quotePoints style.ascii t.points ++ behind
  | .list [], behind => '[' :: ']' :: behind
  | .list (item :: rest), behind =>
    '[' :: (Json.newline style (level + 1) ++ jsonChars style (level + 1) item
      (jsonItems style (level + 1) rest (Json.newline style level ++ ']' :: behind)))
  | .record [], behind => '{' :: '}' :: behind
  | .record ((key, value) :: rest), behind =>
    '{' :: (Json.newline style (level + 1) ++ Json.quote style.ascii key ++
      style.keySeparator.toList ++ jsonChars style (level + 1) value
      (jsonFields style (level + 1) rest (Json.newline style level ++ '}' :: behind)))
  | .host object, behind => Json.quote style.ascii object.display ++ behind

/-- Items after the first. -/
def jsonItems (style : JsonStyle) (level : Nat) : List Value → List Char → List Char
  | [], behind => behind
  | item :: rest, behind =>
    style.itemSeparator.toList ++ Json.newline style level ++
      jsonChars style level item (jsonItems style level rest behind)

/-- Fields after the first. -/
def jsonFields (style : JsonStyle) (level : Nat) : List (String × Value) → List Char → List Char
  | [], behind => behind
  | (key, value) :: rest, behind =>
    style.itemSeparator.toList ++ Json.newline style level ++ Json.quote style.ascii key ++
      style.keySeparator.toList ++ jsonChars style level value (jsonFields style level rest behind)

end

/-- The JSON text of a value; a host object is written as the text it displays. -/
def json (style : JsonStyle) (v : Value) : String :=
  String.ofList (v.jsonChars style 0 [])

end Value

/-- A part of a value that keeps it out of a JSON text. -/
inductive Unwritable where
  | hostObject
  | hugeInteger
deriving DecidableEq

namespace Value

/-- The least natural number with too many digits. -/
def hugeBound : Nat := Nat.pow 10 Text.maxDigits

mutual

/-- The first part, in the order of the text, that cannot be written; host objects count only
where they are not `displayed`. -/
def unwritable? (displayed : Bool) : Value → Option Unwritable
  | .int n => if hugeBound ≤ n.natAbs then some .hugeInteger else none
  | .list items => unwritableItem? displayed items
  | .record fields => unwritableField? displayed fields
  | .host _ => if displayed then none else some .hostObject
  | _ => none

def unwritableItem? (displayed : Bool) : List Value → Option Unwritable
  | [] => none
  | item :: rest =>
    match unwritable? displayed item with
    | some part => some part
    | none => unwritableItem? displayed rest

def unwritableField? (displayed : Bool) : List (String × Value) → Option Unwritable
  | [] => none
  | (_, value) :: rest =>
    match unwritable? displayed value with
    | some part => some part
    | none => unwritableField? displayed rest

end

mutual

/-- Whether every text in a value has a byte encoding. -/
def encodable : Value → Bool
  | .broken _ => false
  | .list items => encodableItems items
  | .record fields => encodableFields fields
  | _ => true

def encodableItems : List Value → Bool
  | [] => true
  | item :: rest => encodable item && encodableItems rest

def encodableFields : List (String × Value) → Bool
  | [] => true
  | (_, value) :: rest => encodable value && encodableFields rest

end

end Value

end ContractMeter
