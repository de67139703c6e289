import ContractMeter.Script.Pattern.Atom
import ContractMeter.Text.Integer

/-!
# ContractMeter.Script.Pattern.Quantifier

Repetition in a regular expression:

* `Run` — the parts in a row that have been read.
* `bounds?` — how often something is repeated, as it is written in braces.
* `Run.repeated` — a row whose last part is repeated.
-/

namespace ContractMeter.Script.Pattern

/-- Parts in a row. -/
structure Run where
  /-- Whether blanks and comments between the parts are skipped. -/
  verbose : Bool
  /-- Whether options for the whole pattern may come next. -/
  opening : Bool
  last : Last := .nothing
  /-- The width of the last part, and of all before it. -/
  lastWidth : Width := .exactly 0
  before : Width := .exactly 0

namespace Run

/-- A row with one more part. -/
def push (run : Run) (last : Last) (width : Width) : Run :=
  { run with
    opening := false, last
    lastWidth := width, before := run.before.add run.lastWidth }

def width (run : Run) : Width := run.before.add run.lastWidth

end Run

/-- A number that can bound a repetition. -/
def repetitionLimit : Nat := Nat.pow 2 32 - 2

/-- A bound as it is written; without digits there is none. -/
def bound (digits : List Char) : Check (Option Nat) := do
  if digits.isEmpty then return none
  else
    let n := digitsValue 10 digits
    need (digits.length ≤ Text.maxDigits && n ≤ repetitionLimit)
    return some n

/-- The bounds of a repetition behind an opening brace; none, with nothing read, if the brace is
a plain character. -/
def bounds? : Check (Option (Nat × Option Nat)) := do
  let start := (← get).rest
  if (← peek?).bind Piece.char? = some '}' then return none
  let low ← takeWhile Char.isDigit
  let high ← if ← takeIf ',' then takeWhile Char.isDigit else pure low
  if ← takeIf '}' then
    let least := (← bound low).getD 0
    let most ← bound high
    need (most.all fun n => least ≤ n)
    return some (least, most)
  else
    modify fun s => { s with rest := start }
    return none

/-- Repeats the last part of a row. An anchor or a repetition cannot be repeated; a mark behind
makes the repetition lazy or possessive. -/
def Run.repeated (run : Run) (low : Nat) (high : Option Nat) : Check Run := do
  need (run.last = .item)
  if !(← takeIf '?') then
    let _ ← takeIf '+'
  modify fun s => { s with repeats := true }
  return { run with last := .repeated, lastWidth := run.lastWidth.times low high }

end ContractMeter.Script.Pattern
