import ContractMeter.Script.Loop

/-!
# ContractMeter.Script.Statement

Statements:

* `block`, `ifStatement`, `switchStatement`, `tryStatement` — statements with parts.
* `labelledStatement` — a label with its statement, or an expression.
* `statement` — any statement.
* `item` — a statement or a declaration.
-/

namespace ContractMeter.Script

/-! ## Statements without parts -/

def expressionStatement (r : Rules) : Grammar Value := do
  let start ← here
  let expr ← expression r
  consumeSemicolon
  finish start (node "ExpressionStatement" [("expression", expr)])

def emptyStatement : Grammar Value := do
  let start ← here
  expect ";"
  finish start (node "EmptyStatement" [])

def debuggerStatement : Grammar Value := do
  let start ← here
  expectKeyword "debugger"
  consumeSemicolon
  finish start (node "DebuggerStatement" [])

/-- The label that a jump names, if it names one; a statement around it must have that label. -/
def jumpLabel : Grammar Value := do
  let s ← get
  if s.ahead.kind = .identifier && !s.newlineAhead then
    let label ← variableIdentifier ""
    let name := pointsOf (label.field "name")
    if !s.context.labels.contains name then complain (.unknownLabel (TextPoint.text name))
    return label
  else return .null

/-- A jump of a kind; without a label it needs something around it that it can leave. -/
def jump (keyword kind : String) (canLeave : Context → Bool) (complaint : Complaint) :
    Grammar Value := do
  let start ← here
  expectKeyword keyword
  let label ← jumpLabel
  consumeSemicolon
  if !label.truthy && !canLeave (← context) then complain complaint
  finish start (node kind [("label", label)])

def continueStatement : Grammar Value :=
  jump "continue" "ContinueStatement" (fun c => c.inIteration) .illegalContinue

def breakStatement : Grammar Value :=
  jump "break" "BreakStatement" (fun c => c.inIteration || c.inSwitch) .illegalBreak

/-- Whether the value of a `return` follows. A string or a template may stand on the next line. -/
def isReturnedAhead : Grammar Bool := do
  let s ← get
  let ends := s.ahead.isAny [";", closeBrace] || s.newlineAhead || s.ahead.kind = .endOfFile
  return !ends || s.ahead.kind = .stringLiteral || s.ahead.kind = .template

def returnStatement (r : Rules) : Grammar Value := do
  if !(← context).inFunction then complainAhead .illegalReturn
  let start ← here
  expectKeyword "return"
  let argument ← if ← isReturnedAhead then expression r else pure .null
  consumeSemicolon
  finish start (node "ReturnStatement" [("argument", argument)])

def throwStatement (r : Rules) : Grammar Value := do
  let start ← here
  expectKeyword "throw"
  if (← get).newlineAhead then complain .newlineAfterThrow
  let argument ← expression r
  consumeSemicolon
  finish start (node "ThrowStatement" [("argument", argument)])

/-! ## Statements with parts -/

/-- Statements in braces. -/
def block (r : Rules) : Grammar Value := do
  let start ← here
  expect openBrace
  let items ← collect do
    if ← isAhead closeBrace then return none
    else
      let item ← r.item
      return some item
  expect closeBrace
  finish start (node "BlockStatement" [("body", .list items)])

/-- A branch of an `if`, which in strict code is no function. -/
def branch (r : Rules) : Grammar Value := do
  if (← context).strict && (← isKeywordAhead "function") then complainAhead .strictFunction
  r.statement

def ifStatement (r : Rules) : Grammar Value := do
  let start ← here
  expectKeyword "if"
  let test ← parenthesized r
  let consequent ← branch r
  let alternate ← if ← takeKeywordIf "else" then branch r else pure .null
  finish start (node "IfStatement" [
    ("test", test), ("consequent", consequent), ("alternate", alternate)])

def withStatement (r : Rules) : Grammar Value := do
  if (← context).strict then complainAhead .strictWith
  let start ← here
  expectKeyword "with"
  let object ← parenthesized r
  let body ← r.statement
  finish start (node "WithStatement" [("object", object), ("body", body)])

/-- A case, or the default, which has no test. -/
def switchCase (r : Rules) : Grammar Value := do
  let start ← here
  let test ←
    if ← takeKeywordIf "default" then pure .null
    else
      expectKeyword "case"
      expression r
  expect ":"
  let items ← collect do
    let token ← ahead
    if token.isPunctuator closeBrace || token.isKeyword "default" || token.isKeyword "case" then
      return none
    else
      let item ← r.item
      return some item
  finish start (node "SwitchCase" [("test", test), ("consequent", .list items)])

/-- The cases of a switch, of which one at most is the default. -/
def switchCases (r : Rules) : Grammar (List Value) := do
  let (cases, _) ← repeatWhile ([], false) fun (cases, hasDefault) => do
    if ← isAhead closeBrace then return ((cases, hasDefault), false)
    let clause ← switchCase r
    let isDefault := !(clause.field "test").truthy
    if isDefault && hasDefault then complain .multipleDefaults
    return ((clause :: cases, hasDefault || isDefault), true)
  return cases.reverse

def switchStatement (r : Rules) : Grammar Value := do
  let start ← here
  expectKeyword "switch"
  let discriminant ← parenthesized r
  let before ← context
  modifyContext fun c => { c with inSwitch := true }
  expect openBrace
  let cases ← switchCases r
  expect closeBrace
  modifyContext fun c => { c with inSwitch := before.inSwitch }
  finish start (node "SwitchStatement" [("discriminant", discriminant), ("cases", .list cases)])

/-- The text of the first name in a list that stands in it before. -/
def repeatedName? (seen : List (List TextPoint)) : List Token → Option String
  | [] => none
  | token :: rest =>
    let name := pointsOf token.value
    if seen.contains name then some token.text else repeatedName? (name :: seen) rest

def catchClause (r : Rules) : Grammar Value := do
  let start ← here
  expectKeyword "catch"
  expect "("
  if ← isAhead ")" then unexpected (← ahead)
  let (param, names) ← pattern r ""
  match repeatedName? [] names with
  | some name => complainAhead (.duplicateBinding name)
  | none => pure ()
  if (← context).strict && isRestricted (nameOf param) then complainAhead .strictCatch
  expect ")"
  let body ← block r
  finish start (node "CatchClause" [("param", param), ("body", body)])

def tryStatement (r : Rules) : Grammar Value := do
  let start ← here
  expectKeyword "try"
  let guarded ← block r
  let handler ← if ← isKeywordAhead "catch" then catchClause r else pure .null
  let finalizer ← if ← takeKeywordIf "finally" then block r else pure .null
  if !handler.truthy && !finalizer.truthy then complain .noCatchOrFinally
  finish start (node "TryStatement" [
    ("block", guarded), ("handler", handler), ("finalizer", finalizer)])

/-- What a label stands before. It is no class, and a function only outside strict code. -/
def labelledBody (r : Rules) : Grammar Value := do
  let token ← ahead
  if token.isKeyword "class" then unexpected token
  else if token.isKeyword "function" then
    let declaration ← functionDeclaration r
    if (← context).strict then rejectToken token .strictFunction
    if (declaration.field "generator").truthy then rejectToken token .generatorLabel
    return declaration
  else r.statement

/-- A label with its statement, or an expression. -/
def labelledStatement (r : Rules) : Grammar Value := do
  let start ← here
  let expr ← expression r
  if expr.hasKind "Identifier" && (← isAhead ":") then
    let _ ← take
    let name := pointsOf (expr.field "name")
    let before ← context
    if before.labels.contains name then complain (.redeclaredLabel (TextPoint.text name))
    modifyContext fun c => { c with labels := name :: c.labels }
    let body ← labelledBody r
    modifyContext fun c => { c with labels := before.labels }
    finish start (node "LabeledStatement" [("label", expr), ("body", body)])
  else
    consumeSemicolon
    finish start (node "ExpressionStatement" [("expression", expr)])

/-! ## Any of them -/

/-- A statement that a keyword begins. -/
def keywordStatement (r : Rules) (keyword : String) : Grammar Value :=
  match keyword with
  | "break" => breakStatement
  | "continue" => continueStatement
  | "debugger" => debuggerStatement
  | "do" => doWhileStatement r
  | "for" => forStatement r
  | "function" => functionDeclaration r
  | "if" => ifStatement r
  | "return" => returnStatement r
  | "switch" => switchStatement r
  | "throw" => throwStatement r
  | "try" => tryStatement r
  | "var" => variableStatement r
  | "while" => whileStatement r
  | "with" => withStatement r
  | _ => expressionStatement r

def statement (r : Rules) : Grammar Value := do
  let token ← ahead
  match token.kind with
  | .endOfFile => unexpected token
  | .punctuator =>
    if token.text = openBrace then block r
    else if token.text = ";" then emptyStatement
    else expressionStatement r
  | .identifier =>
    if ← isAsyncFunctionAhead then functionDeclaration r else labelledStatement r
  | .keyword => keywordStatement r token.text
  | _ => expressionStatement r

/-- A statement or a declaration. A script has nothing to import or export. -/
def item (r : Rules) : Grammar Value := do
  modifyContext fun c => { c with isTarget := true, isBinding := true }
  let token ← ahead
  if token.isKeyword "export" then rejectToken token .misplaced
  else if token.isKeyword "import" then
    if ← isImportCallAhead then expressionStatement r else rejectToken token .misplaced
  else if token.isKeyword "const" then lexicalDeclaration r
  else if token.isKeyword "function" then functionDeclaration r
  else if token.isKeyword "class" then classDeclaration r
  else if token.isKeyword "let" then
    if ← isLexicalAhead then lexicalDeclaration r else statement r
  else statement r

end ContractMeter.Script
