import ContractMeter.Script.Pattern.Piece
import ContractMeter.Script.Pattern.Width
import ContractMeter.Tree.Value

/-!
# ContractMeter.Script.Pattern.Scan

Reading a regular expression from left to right:

* `Scan` — the pieces left, and what is known about the groups read so far.
* `Check` — a step of the reading, which may refuse the pattern.
* `takeIf`, `takeWhile`, `nameUntil` — moving over pieces.
* `openGroup`, `closeGroup`, `groupWidth` — groups and references to them.

Groups count from one. A group can be referred to once it is closed, and from inside a
look-behind only if it was opened before it.
-/

namespace ContractMeter.Script.Pattern

structure Scan where
  rest : List Piece
  /-- How many groups have been opened. -/
  opened : Nat := 0
  /-- The numbers and widths of the groups that are closed. -/
  closed : List (Nat × Width) := []
  /-- The named groups. -/
  names : List (String × Nat) := []
  /-- The groups opened before the outermost look-behind that is being read. -/
  lookBehind : Option Nat := none
  /-- The greatest number of a group that a condition asks for. -/
  asked : Nat := 0
  /-- The options given to the whole pattern. -/
  options : List PatternOption := []
  /-- Whether anything is repeated. -/
  repeats : Bool := false

/-- A step that fails where the pattern is refused. -/
abbrev Check := StateT Scan Option

def refuse {α : Type} : Check α := failure

def need (condition : Bool) : Check Unit :=
  if condition then pure () else refuse

/-! ## Pieces -/

def peek? : Check (Option Piece) := return (← get).rest.head?

/-- Moves over so many pieces. -/
def skip (count : Nat) : Check Unit :=
  modify fun s => { s with rest := s.rest.drop count }

/-- The next piece; there must be one. -/
def next : Check Piece := do
  match (← get).rest with
  | [] => refuse
  | piece :: rest =>
    modify fun s => { s with rest }
    return piece

/-- Moves over a plain character if it is next. -/
def takeIf (c : Char) : Check Bool := do
  if (← peek?).bind Piece.char? = some c then
    skip 1
    return true
  else return false

def expect (c : Char) : Check Unit := do
  need (← takeIf c)

/-- The leading plain characters that satisfy `p`, so many at most. -/
def charsWhile (p : Char → Bool) (most : Option Nat) : List Piece → List Char
  | [] => []
  | piece :: rest =>
    match piece.char?, most with
    | some c, none => if p c then c :: charsWhile p none rest else []
    | some c, some (n + 1) => if p c then c :: charsWhile p (some n) rest else []
    | _, _ => []

/-- Takes the plain characters next that satisfy `p`. -/
def takeWhile (p : Char → Bool) : Check (List Char) := do
  let cs := charsWhile p none (← get).rest
  skip cs.length
  return cs

/-- Takes the plain characters next that satisfy `p`, so many at most. -/
def takeUpTo (most : Nat) (p : Char → Bool) : Check (List Char) := do
  let cs := charsWhile p (some most) (← get).rest
  skip cs.length
  return cs

/-- The text up to a plain character, which is taken too. -/
def nameUntil (stop : Char) : Check String := do
  let pieces := (← get).rest.takeWhile fun piece => piece.char? ≠ some stop
  skip pieces.length
  expect stop
  match nameText? pieces with
  | some name => return name
  | none => refuse

/-! ## Groups -/

/-- Opens a group, whose name may not have been given before, and yields its number. -/
def openGroup (name : Option String) : Check Nat := do
  let s ← get
  let number := s.opened + 1
  match name with
  | some name =>
    need !(s.names.any fun known => known.1 = name)
    set { s with opened := number, names := (name, number) :: s.names }
  | none => set { s with opened := number }
  return number

def closeGroup (number : Nat) (width : Width) : Check Unit :=
  modify fun s => { s with closed := (number, width) :: s.closed }

/-- Whether a group may be named from where the reading stands. -/
def isVisible (s : Scan) (number : Nat) : Bool :=
  match s.lookBehind with
  | none => true
  | some before => number ≤ before && (s.closed.lookup number).isSome

/-- The width of a group that is referred to. -/
def groupWidth (number : Nat) : Check Width := do
  let s ← get
  need (isVisible s number)
  match s.closed.lookup number with
  | some width => return width
  | none => refuse

end ContractMeter.Script.Pattern
