import ContractMeter.Compilation
import ContractMeter.Script.Statement

/-!
# ContractMeter.Script.Parse

Scripts:

* `rules` — the grammar, up to so many levels of nesting.
* `script` — the statements of a whole script.
* `parse` — the tree of a script.
-/

namespace ContractMeter.Script

/-- The grammar with so many levels of nesting below it. -/
def rules : Nat → Rules
  | 0 => {
    assignment := tooNested
    unary := tooNested
    exponentiation := tooNested
    constructorPart := tooNested
    call := tooNested
    statement := tooNested
    item := tooNested
    pattern := fun _ => tooNested }
  | levels + 1 =>
    let r := rules levels
    { assignment := assignment r
      unary := unary r
      exponentiation := exponentiation r
      constructorPart := constructorPart r
      call := call r
      statement := statement r
      item := item r
      pattern := pattern r }

/-- A script that nests deeper than so many levels is given up. -/
def maxLevels : Nat := 1000

/-- The place before the first token. -/
def initialState (locate : Bool) (source : String) : State :=
  let cursor := Cursor.start source
  { locate, cursor
    braces := []
    ahead := { Token.between cursor cursor .endOfFile "" with lineStart := 0 }
    aheadAt := cursor
    startMark := cursor.mark
    lastMark := cursor.mark
    newlineAhead := false
    context := {} }

/-- A whole script. What is rejected at its first token counts as standing behind that token. -/
def script (r : Rules) : Grammar Value := do
  readAhead
  modify fun s => { s with lastMark := s.cursor.mark }
  let start ← here
  let opening ← directives r
  let items ← collect do
    if ← isEndAhead then return none
    else
      let next ← r.item
      return some next
  finish start (node "Program" [
    ("sourceType", .text "script"), ("body", .list (opening ++ items))])

/-- The tree of a script, with the locations of its nodes if they are wanted. -/
def parse : Parser := fun locate source =>
  match (script (rules maxLevels)).run (initialState locate source) with
  | .ok (tree, _) => .ok tree
  | .error failure => .error failure

end ContractMeter.Script
