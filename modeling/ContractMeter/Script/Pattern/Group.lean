import ContractMeter.Script.Pattern.Option
import ContractMeter.Script.Pattern.Quantifier

/-!
# ContractMeter.Script.Pattern.Group

What begins with a parenthesis in a regular expression:

* `isGroupName` — the names a group may have.
* `GroupHead` — the kinds of groups and of what looks like one.
* `groupHead` — reads what follows the parenthesis.
-/

namespace ContractMeter.Script.Pattern

/-! ## Names -/

/-- Characters that a script takes for letters, but whose compatible form is not one: spacing
marks, ligatures with a blank, and two joiners. -/
def notInNames (n : Nat) : Bool :=
  n == 0x37A || n == 0x2E2F || n == 0x309B || n == 0x309C || (0xFC5E ≤ n && n ≤ 0xFC63) ||
    n == 0xFDFA || n == 0xFDFB || (0xFE70 ≤ n && n ≤ 0xFE7E && n % 2 == 0)

/-- Letters whose compatible form begins with a mark. -/
def notFirstInNames (n : Nat) : Bool :=
  n == 0xE33 || n == 0xEB3 || n == 0xFF9E || n == 0xFF9F

/-- The joiners, which only a script allows in a name. -/
def isJoiner (n : Nat) : Bool := n == 0x200C || n == 0x200D

def isNameStart (c : Char) : Bool :=
  isIdentifierStart c && c ≠ '$' && c ≠ '\\' && !notInNames c.toNat && !notFirstInNames c.toNat

def isNamePart (c : Char) : Bool :=
  isIdentifierPart c && c ≠ '$' && c ≠ '\\' && !notInNames c.toNat && !isJoiner c.toNat

/-- A letter or an underscore, then letters, digits and underscores. -/
def isGroupName (name : String) : Bool :=
  match name.toList with
  | [] => false
  | c :: rest => isNameStart c && rest.all isNamePart

/-! ## Heads -/

/-- What a parenthesis begins. -/
inductive GroupHead where
  | comment
  | capture (name : Option String)
  | switched (switches : Switches)
  | lookAhead
  | lookBehind
  | reference (name : String)
  | condition (group : String)

/-- A group that is not remembered. -/
def GroupHead.plain : GroupHead := .switched (.part [] [])

/-- A comment up to the next closing parenthesis. -/
def comment : Check GroupHead := do
  let pieces := (← get).rest.takeWhile fun piece => piece.char? ≠ some ')'
  skip pieces.length
  expect ')'
  return .comment

/-- A name, or a reference to one. -/
def namedHead : Check GroupHead := do
  if ← takeIf '<' then
    let name ← nameUntil '>'
    need (isGroupName name)
    return .capture (some name)
  else
    expect '='
    let name ← nameUntil ')'
    return .reference name

/-- A look behind a place. -/
def behindHead : Check GroupHead := do
  if !(← takeIf '=') then expect '!'
  return .lookBehind

/-- Letters of options, perhaps with a hyphen among them. -/
def switchesHead : Check GroupHead := do
  let on ← takeWhile Char.isAlpha
  let off ← if ← takeIf '-' then some <$> takeWhile Char.isAlpha else pure none
  let colon ← takeIf ':'
  if !colon then expect ')'
  match switches? on off colon with
  | some switches => return .switched switches
  | none => refuse

/-- What stands behind a question mark, given the character there. -/
def extension : Char → Check GroupHead
  | 'P' => do skip 1; namedHead
  | ':' => do skip 1; return .plain
  | '>' => do skip 1; return .plain
  | '#' => do skip 1; comment
  | '=' => do skip 1; return .lookAhead
  | '!' => do skip 1; return .lookAhead
  | '<' => do skip 1; behindHead
  | '(' => do skip 1; return .condition (← nameUntil ')')
  | _ => switchesHead

def groupHead : Check GroupHead := do
  if ← takeIf '?' then
    match (← peek?).bind Piece.char? with
    | some c => extension c
    | none => refuse
  else return .capture none

/-! ## Conditions -/

/-- The group that a condition asks for: one by name that has been opened, or one by number,
which may still follow. -/
def askedGroup (group : String) : Check Nat := do
  if isGroupName group then
    match (← get).names.lookup group with
    | some number => return number
    | none => refuse
  else
    match Text.readInteger? group with
    | some n =>
      need (0 < n)
      modify fun s => { s with asked := max s.asked n.toNat }
      return n.toNat
    | none => refuse

/-- Asks whether a group has matched. -/
def condition (group : String) : Check Unit := do
  let number ← askedGroup group
  need (isVisible (← get) number)

end ContractMeter.Script.Pattern
