import ContractMeter.Script.Pattern.Group

/-!
# ContractMeter.Script.Pattern.Check

Which regular expressions the matching engine takes:

* `alternatives`, `row`, `group` — reading a pattern.
* `isAccepted` — whether a pattern is taken.
-/

namespace ContractMeter.Script.Pattern

/-- How deep groups may nest. -/
def maxGroupDepth : Nat := 400

/-- Whether a piece is a blank that a pattern with comments may hold. -/
def isFiller (piece : Piece) : Bool :=
  match piece.char? with
  | some c => [' ', '\t', '\n', '\r', '\x0b', '\x0c'].contains c
  | none => false

/-- Moves behind the end of the line. -/
def skipRemark : Check Unit := do
  let pieces := (← get).rest.takeWhile fun piece => piece.char? ≠ some '\n'
  skip (pieces.length + 1)

/-- A part of one piece, or of an escape or a class of so many members at most, or a quantifier
behind the last part. -/
def simplePart (most : Nat) (run : Run) (piece : Piece) : Check Run := do
  match piece with
  | .escaped point =>
    let (last, width) ← escape point
    return run.push last width
  | .plain (.surrogate _) => return run.push .item (.exactly 1)
  | .plain (.scalar c) =>
    match c with
    | '^' => return run.push .anchor (.exactly 0)
    | '$' => return run.push .anchor (.exactly 0)
    | '*' => run.repeated 0 none
    | '+' => run.repeated 1 none
    | '?' => run.repeated 0 (some 1)
    | '[' =>
      charClass most
      return run.push .item (.exactly 1)
    | c =>
      if c = '\x7b' then
        match ← bounds? with
        | some (low, high) => run.repeated low high
        | none => return run.push .item (.exactly 1)
      else return run.push .item (.exactly 1)

/-- Options for the whole pattern, which stand at its start. -/
def applySwitches (run : Run) (on : List PatternOption) : Check Run := do
  need run.opening
  modify fun s => { s with options := on ++ s.options }
  return { run with verbose := (← get).options.contains .verbose }

/-- Reads a part that looks behind a place: it has one length, and it cannot refer to groups
that are opened in it. -/
def lookingBehind (part : Check Width) : Check Unit := do
  let outer := (← get).lookBehind
  modify fun s => { s with lookBehind := outer <|> some s.opened }
  let width ← part
  modify fun s => { s with lookBehind := outer }
  need width.isFixed

mutual

/-- Alternatives up to a closing parenthesis or the end. Options for the whole pattern can stand
in the first one of the outermost, and hold for those behind it. -/
def alternatives : Nat → Nat → Bool → Bool → Check Width
  | 0, _, _, _ => refuse
  | fuel + 1, depth, verbose, opening => do
    let width ← row fuel depth { verbose, opening }
    if ← takeIf '|' then
      let s ← get
      let verbose := if depth = 0 then s.options.contains .verbose else verbose
      let others ← alternatives fuel depth verbose false
      return width.either others
    else return width

/-- Parts in a row up to a bar, a closing parenthesis or the end. -/
def row : Nat → Nat → Run → Check Width
  | 0, _, _ => refuse
  | fuel + 1, depth, run => do
    match ← peek? with
    | none => return run.width
    | some piece =>
      let c := piece.char?
      if c = some '|' || c = some ')' then return run.width
      else
        skip 1
        if run.verbose && isFiller piece then row fuel depth run
        else if run.verbose && c = some '#' then
          skipRemark
          row fuel depth run
        else
          let run ← if c = some '(' then group fuel depth run else simplePart fuel run piece
          row fuel depth run

/-- What a parenthesis begins, behind it. -/
def group : Nat → Nat → Run → Check Run
  | 0, _, _ => refuse
  | fuel + 1, depth, run => do
    need (depth < maxGroupDepth)
    let inside (verbose : Bool) : Check Width := do
      let width ← alternatives fuel (depth + 1) verbose false
      expect ')'
      return width
    match ← groupHead with
    | .comment => return run
    | .capture name =>
      let number ← openGroup name
      let width ← inside run.verbose
      closeGroup number width
      return run.push .item width
    | .switched (.whole on) => applySwitches run on
    | .switched (.part on off) =>
      let width ← inside ((run.verbose || on.contains .verbose) && !off.contains .verbose)
      return run.push .item width
    | .lookAhead =>
      let _ ← inside run.verbose
      return run.push .item (.exactly 0)
    | .lookBehind =>
      lookingBehind (inside run.verbose)
      return run.push .item (.exactly 0)
    | .reference name =>
      match (← get).names.lookup name with
      | some number => return run.push .item (← groupWidth number)
      | none => refuse
    | .condition asked =>
      condition asked
      let branch := row fuel (depth + 1) { verbose := run.verbose, opening := false }
      let width ← branch
      let other ← if ← takeIf '|' then branch else pure (.exactly 0)
      expect ')'
      return run.push .item (width.either other)

end

/-- What is known only at the end: every group that a condition asks for exists, the options fit
together, and a template repeats nothing. -/
def isComplete (s : Scan) : Bool :=
  s.rest.isEmpty && s.asked ≤ s.opened && !PatternOption.conflict s.options &&
    !(s.options.contains .template && s.repeats)

/-- The options that a pattern gives itself; none if the engine does not take it. -/
def ownOptions? (pattern : List TextPoint) : Option (List PatternOption) := do
  let pieces ← pieces? pattern
  let (_, s) ← (alternatives (2 * pieces.length + 2) 0 false true).run { rest := pieces }
  if isComplete s then some s.options else none

end ContractMeter.Script.Pattern
