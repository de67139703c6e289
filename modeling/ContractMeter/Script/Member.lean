import ContractMeter.Script.Primary

/-!
# ContractMeter.Script.Member

What follows an innermost expression:

* `construction` — `new` and what it applies to.
* `constructorPart` — members of an expression, without calls.
* `call` — members and calls.
-/

namespace ContractMeter.Script

def memberNode (object property : Value) (computed : Bool) : Value :=
  node "MemberExpression" [
    ("computed", .bool computed), ("object", object), ("property", property)]

/-- Notes that what has been read can be assigned to and is no pattern. -/
def memberTarget : Grammar Unit :=
  modifyContext fun c => { c with isTarget := true, isBinding := false }

/-- A member or a tagged template, if one follows an expression that began with `first`. -/
def memberOf? (r : Rules) (first : Token) (object : Value) : Grammar (Option Value) := do
  let token ← ahead
  if token.isPunctuator "." then
    memberTarget
    let _ ← take
    let name ← identifierName
    let whole ← finishFrom first (memberNode object name false)
    return some whole
  else if token.isPunctuator "[" then
    memberTarget
    let _ ← take
    let key ← isolated (expression r)
    expect "]"
    let whole ← finishFrom first (memberNode object key true)
    return some whole
  else if token.kind = .template && token.head then
    let text ← template r
    let whole := node "TaggedTemplateExpression" [("tag", object), ("quasi", text)]
    return some (← finishFrom first whole)
  else return none

/-- The property of `new` that tells how a function was called. -/
def newTarget (new : Value) : Grammar Value := do
  let token ← ahead
  if token.isContextual "target" && (← context).inFunction then
    let name ← identifierName
    return node "MetaProperty" [("meta", new), ("property", name)]
  else unexpected token

def construction (r : Rules) : Grammar Value := do
  let start ← here
  let new ← identifierName
  if ← takeIf "." then
    let whole ← newTarget new
    finish start whole
  else if ← isKeywordAhead "import" then unexpected (← ahead)
  else
    let callee ← isolated r.constructorPart
    let args ← if ← isAhead "(" then arguments r else pure []
    plainValue
    finish start (node "NewExpression" [("callee", callee), ("arguments", .list args)])

/-- The word `super` with one of the given punctuators behind it. -/
def parentReference (behind : List String) : Grammar Value := do
  let start ← here
  expectKeyword "super"
  let next ← ahead
  if next.isAny behind then finish start (node "Super" [])
  else unexpected next

/-- The expression at the start of a chain of members and calls. -/
def chainStart (r : Rules) (behindSuper : List String) : Grammar Value := do
  let token ← ahead
  if token.isKeyword "super" && (← context).inFunction then parentReference behindSuper
  else if token.isKeyword "new" then inherited (construction r)
  else inherited (primary r)

def constructorPart (r : Rules) : Grammar Value := do
  let first ← ahead
  let object ← chainStart r ["[", "."]
  repeatWhile object fun object => do
    match ← memberOf? r first object with
    | some whole => return (whole, true)
    | none => return (object, false)

/-- A call. Behind the word `async` its arguments are parameters if an arrow follows. -/
def callOf (r : Rules) (first : Token) (maybeAsync : Bool) (callee : Value) : Grammar Value := do
  let isAsync := maybeAsync && first.line = (← ahead).line
  plainValue
  let args ← if isAsync then asyncArguments r else arguments r
  if callee.hasKind "Import" && args.length ≠ 1 then complainAhead .misplaced
  if isAsync && (← isAhead "=>") then return placeholder (args.map toPattern) true
  else
    finishFrom first (node "CallExpression" [("callee", callee), ("arguments", .list args)])

/-- Members and calls. Inside them `in` is an operator. -/
def call (r : Rules) : Grammar Value :=
  withIn true do
    let first ← ahead
    let maybeAsync := first.isContextual "async"
    let callee ← chainStart r ["(", ".", "["]
    repeatWhile callee fun callee => do
      if ← isAhead "(" then
        let whole ← callOf r first maybeAsync callee
        return (whole, true)
      else
        match ← memberOf? r first callee with
        | some whole => return (whole, true)
        | none => return (callee, false)

end ContractMeter.Script
