import ContractMeter.Script.Declaration

/-!
# ContractMeter.Script.Loop

Loops:

* `whileStatement`, `doWhileStatement` — loops with a test.
* `ForHead`, `forHead` — what stands in the parentheses of a `for` loop.
* `forStatement` — the loop with its body.
-/

namespace ContractMeter.Script

/-- Reads the body of a loop, which may be left and continued. -/
def loopBody (body : Grammar Value) : Grammar Value := do
  let before ← context
  modifyContext fun c => { c with inIteration := true }
  let result ← body
  modifyContext fun c => { c with inIteration := before.inIteration }
  return result

/-- An expression in parentheses, behind a keyword. -/
def parenthesized (r : Rules) : Grammar Value := do
  expect "("
  let value ← expression r
  expect ")"
  return value

def whileStatement (r : Rules) : Grammar Value := do
  let start ← here
  expectKeyword "while"
  let test ← parenthesized r
  let body ← loopBody r.statement
  finish start (node "WhileStatement" [("test", test), ("body", body)])

def doWhileStatement (r : Rules) : Grammar Value := do
  let start ← here
  expectKeyword "do"
  let body ← loopBody r.statement
  expectKeyword "while"
  let test ← parenthesized r
  let _ ← takeIf ";"
  finish start (node "DoWhileStatement" [("body", body), ("test", test)])

/-! ## The head of a `for` loop -/

/-- What a `for` loop runs over. -/
inductive ForHead where
  /-- A counter: its start, its test and its step. -/
  | steps (init test update : Value)
  | keys (left right : Value)
  | elements (left right : Value)

/-- The head behind the target of a loop over keys. -/
def keysOf (r : Rules) (left : Value) : Grammar ForHead := do
  let _ ← take
  let right ← expression r
  return .keys left right

/-- The head behind the target of a loop over elements. -/
def elementsOf (r : Rules) (left : Value) : Grammar ForHead := do
  let _ ← take
  let right ← r.assignment
  return .elements left right

/-- The test and the step of a counting loop, each of which may be missing. -/
def stepsFrom (r : Rules) (init : Value) : Grammar ForHead := do
  let test ← if ← isAhead ";" then pure .null else expression r
  expect ";"
  let update ← if ← isAhead ")" then pure .null else expression r
  return .steps init test update

/-- The only declarator in a list. -/
def single? : List Value → Option Value
  | [declaration] => some declaration
  | _ => none

/-- Whether a declarator gives an initial value. -/
def isInitialized (declaration : Value) : Bool := (declaration.field "init").truthy

/-- A head that declares with `var`. -/
def variableHead (r : Rules) : Grammar ForHead := do
  let start ← here
  let _ ← take
  let declarations ← withIn false (variableList r true)
  let whole ← finish start (declarationNode "var" declarations)
  let sole := single? declarations
  let initialized := sole.any isInitialized
  if sole.isSome && (← isKeywordAhead "in") then
    let plain := sole.any fun d => (d.field "id").hasKind "Identifier"
    if initialized && (!plain || (← context).strict) then
      complainAhead (.forLoopInitializer "for-in")
    keysOf r whole
  else if sole.isSome && !initialized && (← isContextualAhead "of") then elementsOf r whole
  else
    expect ";"
    stepsFrom r whole

/-- A head that begins with `let` or `const`. Before `in` the word is a name outside strict
code. -/
def lexicalHead (r : Rules) : Grammar ForHead := do
  let start ← here
  let kind := (← take).text
  if !(← context).strict && (← ahead).text = "in" then
    let name ← finish start (identifier (.text kind))
    keysOf r name
  else
    let declarations ← withIn false (bindings r kind true)
    let bare := (single? declarations).any fun d => !isInitialized d
    if bare && (← isKeywordAhead "in") then
      let whole ← finish start (declarationNode kind declarations)
      keysOf r whole
    else if bare && (← isContextualAhead "of") then
      let whole ← finish start (declarationNode kind declarations)
      elementsOf r whole
    else
      consumeSemicolon
      let whole ← finish start (declarationNode kind declarations)
      stepsFrom r whole

/-- Checks the target of a loop. -/
def checkLoopTarget (target : Value) (complaint : Complaint) : Grammar Unit := do
  if !(← context).isTarget || target.hasKind "AssignmentExpression" then complainAhead complaint

/-- A head that begins with an expression. -/
def expressionHead (r : Rules) : Grammar ForHead := do
  let first ← ahead
  let init ← withIn false (inherited r.assignment)
  if ← isKeywordAhead "in" then
    checkLoopTarget init .forInTarget
    keysOf r (toPattern init)
  else if ← isContextualAhead "of" then
    checkLoopTarget init .forLoopTarget
    elementsOf r (toPattern init)
  else
    let whole ←
      if ← isAhead "," then
        let others ← afterCommas (isolated r.assignment)
        finishFrom first (sequenceNode (init :: others))
      else pure init
    expect ";"
    stepsFrom r whole

def forHead (r : Rules) : Grammar ForHead := do
  let token ← ahead
  if token.isPunctuator ";" then
    let _ ← take
    stepsFrom r .null
  else if token.isKeyword "var" then variableHead r
  else if token.isKeyword "const" || token.isKeyword "let" then lexicalHead r
  else expressionHead r

/-- The loop with the given head. -/
def ForHead.loop (body : Value) : ForHead → Value
  | steps init test update =>
    node "ForStatement" [("init", init), ("test", test), ("update", update), ("body", body)]
  | keys left right =>
    node "ForInStatement" [
      ("each", .bool false), ("left", left), ("right", right), ("body", body)]
  | elements left right =>
    node "ForOfStatement" [("left", left), ("right", right), ("body", body)]

def forStatement (r : Rules) : Grammar Value := do
  let start ← here
  expectKeyword "for"
  expect "("
  let head ← forHead r
  expect ")"
  let body ← loopBody (isolated r.statement)
  finish start (head.loop body)

end ContractMeter.Script
