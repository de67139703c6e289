import ContractMeter.Script.Class
import ContractMeter.Script.Object

/-!
# ContractMeter.Script.Primary

The innermost expressions:

* `arrayLiteral`, `template` — literals with expressions in them.
* `group` — parentheses, which may turn out to hold the parameters of an arrow function.
* `primary` — any innermost expression.
-/

namespace ContractMeter.Script

def arrayLiteral (r : Rules) : Grammar Value := do
  let start ← here
  expect "["
  let elements ← collect do
    if ← isAhead "]" then return none
    else if ← takeIf "," then return some .null
    else if ← isAhead "..." then
      let spread ← spreadElement r
      if !(← isAhead "]") then
        plainValue
        expect ","
      return some spread
    else
      let element ← inherited r.assignment
      if !(← isAhead "]") then expect ","
      return some element
  expect "]"
  finish start (node "ArrayExpression" [("elements", .list elements)])

/-! ## Templates -/

/-- The chunk of a template that is ahead, and whether it is the last. -/
def templateChunk : Grammar (Value × Bool) := do
  let start ← here
  let token ← take
  let value := Value.record [("raw", .text token.text), ("cooked", token.value)]
  let chunk ← finish start (node "TemplateElement" [("value", value), ("tail", .bool token.tail)])
  return (chunk, token.tail)

/-- A template: chunks with an expression between each two. -/
def template (r : Rules) : Grammar Value := do
  if !(← ahead).head then throw (.faulted .strayTemplate)
  let start ← here
  let (first, tail) ← templateChunk
  let (chunks, expressions, _) ← repeatWhile ([first], [], tail)
    fun (chunks, expressions, tail) => do
      if tail then return ((chunks, expressions, tail), false)
      let expr ← expression r
      if (← ahead).kind ≠ .template then complain (.unexpectedToken "ILLEGAL")
      let (chunk, tail) ← templateChunk
      return ((chunk :: chunks, expr :: expressions, tail), true)
  finish start (node "TemplateLiteral" [
    ("quasis", .list chunks.reverse), ("expressions", .list expressions.reverse)])

/-! ## Parentheses -/

def needArrow : Grammar Unit := do
  if !(← isAhead "=>") then expect "=>"

/-- The last of the parameters of an arrow function, behind which only the arrow can follow. -/
def lastParameter (r : Rules) : Grammar Value := do
  let (rest, _) ← restParameter r
  expect ")"
  needArrow
  return rest

/-- What follows a comma in parentheses: a further part, or the end of a parameter list. -/
def groupPart (r : Rules) (parts : List Value) : Grammar (List Value × Bool) := do
  if ← takeIf ")" then return (parts, true)
  else if ← isAhead "..." then
    if !(← context).isBinding then unexpected (← ahead)
    let rest ← lastParameter r
    modifyContext fun c => { c with isBinding := false }
    return (rest :: parts, true)
  else
    let part ← inherited r.assignment
    return (part :: parts, false)

/-- Parts in parentheses, each behind a comma, and whether a parameter list has ended. -/
def groupParts (r : Rules) (first : Value) : Grammar (List Value × Bool) := do
  let (parts, ended) ← repeatWhile ([first], false) fun (parts, ended) => do
    if ended then return ((parts, ended), false)
    else if ← takeIf "," then
      let (parts, ended) ← groupPart r parts
      return ((parts, ended), true)
    else return ((parts, ended), false)
  return (parts.reverse, ended)

/-- Closes parentheses around `whole`, which reads as parameters if an arrow follows. -/
def closeGroup (whole : Value) (parts : List Value) : Grammar Value := do
  expect ")"
  let arrow ← ahead
  let result ←
    if !arrow.isPunctuator "=>" then pure whole
    else if nameOf whole = "yield" then pure (placeholder [whole] false)
    else if (← context).isBinding then pure (placeholder (parts.map toPattern) false)
    else unexpected arrow
  modifyContext fun c => { c with isBinding := false }
  return result

def group (r : Rules) : Grammar Value := do
  expect "("
  if ← takeIf ")" then
    needArrow
    return placeholder [] false
  else if ← isAhead "..." then
    let rest ← lastParameter r
    return placeholder [rest] false
  else
    let token ← ahead
    modifyContext fun c => { c with isBinding := true }
    let first ← inherited r.assignment
    if ← isAhead "," then
      modifyContext fun c => { c with isTarget := false }
      let (parts, ended) ← groupParts r first
      if ended then return placeholder (parts.map toPattern) false
      let whole ← finishFrom token (sequenceNode parts)
      closeGroup whole parts
    else closeGroup first [first]

/-! ## Any of them -/

/-- Whether an async function is ahead: both its words on one line. -/
def isAsyncFunctionAhead : Grammar Bool := do
  if ← isContextualAhead "async" then
    let line := (← get).cursor.line
    let next ← peekBehind
    return next.line = line && next.isKeyword "function"
  else return false

/-- Whether `import` is ahead as the name of a function. -/
def isImportCallAhead : Grammar Bool := do
  if ← isKeywordAhead "import" then
    let next ← peekBehind
    return next.isPunctuator "("
  else return false

/-- A regular expression, where a slash is ahead. -/
def patternLiteral : Grammar Value := do
  let start ← here
  plainValue
  let token ← takePattern
  let parts := Value.record [("pattern", .text token.text), ("flags", .text token.flags)]
  finish start (node "Literal" [("value", token.value), ("raw", .text token.raw), ("regex", parts)])

/-- A literal with the given value. -/
def plainLiteral (value : Value) : Grammar Value := do
  let start ← here
  plainValue
  let token ← take
  finish start (literal { token with value })

def nameOrAsyncFunction (r : Rules) : Grammar Value := do
  let token ← ahead
  if (← context).inAsync && token.text = "await" then unexpected token
  if ← isAsyncFunctionAhead then functionExpression r
  else
    let start ← here
    let _ ← take
    finish start (identifier token.value)

/-- An expression that begins with a keyword. Outside strict code `yield` and `let` may be
names. -/
def keywordExpression (r : Rules) : Grammar Value := do
  let start ← here
  let token ← ahead
  let c ← context
  if !c.strict && c.allowYield && token.text = "yield" then identifierName
  else if !c.strict && token.text = "let" then
    let _ ← take
    finish start (identifier token.value)
  else
    plainValue
    if token.text = "function" then functionExpression r
    else if token.text = "this" then
      let _ ← take
      finish start (node "ThisExpression" [])
    else if token.text = "class" then classExpression r
    else if ← isImportCallAhead then
      let _ ← take
      finish start (node "Import" [])
    else unexpected (← take)

def primary (r : Rules) : Grammar Value := do
  let token ← ahead
  match token.kind with
  | .identifier => nameOrAsyncFunction r
  | .numericLiteral =>
    refuseOldOctal token
    plainLiteral token.value
  | .stringLiteral =>
    refuseOldOctal token
    plainLiteral token.value
  | .booleanLiteral => plainLiteral (.bool (token.text = "true"))
  | .nullLiteral => plainLiteral .null
  | .template => template r
  | .keyword => keywordExpression r
  | .punctuator =>
    match token.text with
    | "(" =>
      modifyContext fun c => { c with isBinding := false }
      inherited (group r)
    | "[" => inherited (arrayLiteral r)
    | "/" => patternLiteral
    | "/=" => patternLiteral
    | text => if text = openBrace then inherited (objectLiteral r) else unexpected (← take)
  | _ => unexpected (← take)

end ContractMeter.Script
