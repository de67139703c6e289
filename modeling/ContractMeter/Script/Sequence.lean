import ContractMeter.Script.Binding

/-!
# ContractMeter.Script.Sequence

Expressions in a row:

* `expression` — expressions joined by commas.
* `spreadElement` — an expression whose elements are taken one by one.
* `arguments` — the arguments of a call.
-/

namespace ContractMeter.Script

/-- Parts that each stand behind a comma. -/
def afterCommas {α : Type} (part : Grammar α) : Grammar (List α) :=
  collect do
    if ← takeIf "," then
      let a ← part
      return some a
    else return none

/-- A list of parts with commas between them. -/
def separated {α : Type} (part : Grammar α) : Grammar (List α) := do
  let first ← part
  let others ← afterCommas part
  return first :: others

def sequenceNode (parts : List Value) : Value :=
  node "SequenceExpression" [("expressions", .list parts)]

def expression (r : Rules) : Grammar Value := do
  let first ← ahead
  let parts ← separated (isolated r.assignment)
  match parts with
  | [part] => return part
  | _ => finishFrom first (sequenceNode parts)

def spreadElement (r : Rules) : Grammar Value := do
  let start ← here
  expect "..."
  let argument ← inherited r.assignment
  finish start (node "SpreadElement" [("argument", argument)])

/-- Arguments in parentheses; `part` reads one that is not spread. A comma may end them. -/
def argumentsOf (r : Rules) (part : Grammar Value) : Grammar (List Value) := do
  expect "("
  let found ←
    if ← isAhead ")" then pure []
    else
      repeatWhile [] fun found => do
        let argument ← if ← isAhead "..." then spreadElement r else isolated part
        let found := argument :: found
        if ← isAhead ")" then return (found, false)
        expect ","
        return (found, !(← isAhead ")"))
  expect ")"
  return found.reverse

def arguments (r : Rules) : Grammar (List Value) := argumentsOf r r.assignment

/-- Arguments that may turn out to be the parameters of an async arrow function. -/
def asyncArguments (r : Rules) : Grammar (List Value) :=
  argumentsOf r do
    let argument ← r.assignment
    modifyContext fun c => { c with patternOnly := none }
    return argument

end ContractMeter.Script
