import ContractMeter.Script.Operation

/-!
# ContractMeter.Script.Assignment

The widest expressions without a comma:

* `yieldExpression` — a value handed out by a generator.
* `arrowParameters` — an expression read again as the parameters of an arrow function.
* `arrowFunction` — a function behind an arrow.
* `assignment` — any of them, or an assignment.
-/

namespace ContractMeter.Script

/-! ## Generators -/

/-- Whether an expression may begin with a token. -/
def beginsExpression (token : Token) : Bool :=
  match token.kind with
  | .punctuator =>
    ["[", "(", openBrace, "+", "-", "!", "~", "++", "--", "/", "/="].contains token.text
  | .keyword =>
    ["class", "delete", "function", "let", "new", "super", "this", "typeof", "void",
      "yield"].contains token.text
  | _ => true

def yieldExpression (r : Rules) : Grammar Value := do
  let start ← here
  expectKeyword "yield"
  if (← get).newlineAhead then
    finish start (node "YieldExpression" [("delegate", .bool false)])
  else
    let (argument, delegate) ← withYield false do
      if ← takeIf "*" then
        let argument ← r.assignment
        return (argument, true)
      else if beginsExpression (← ahead) then
        let argument ← r.assignment
        return (argument, false)
      else return (.null, false)
    finish start (node "YieldExpression" [("argument", argument), ("delegate", .bool delegate)])

/-! ## Arrow functions -/

/-- A parameter whose default is a bare `yield`, which becomes a name there. -/
def yieldDefault (param : Value) : Value :=
  match param, param.field "right" with
  | .record fields, .record right =>
    let others := right.filter fun field => !(["type", "argument", "delegate"].contains field.1)
    let name := ("type", .text "Identifier") :: others ++ [("name", .text "yield")]
    .record (Fields.set fields "right" (.record name))
  | _, _ => param

/-- A parameter that was read as an expression, in its final form. -/
def arrowParameter (isAsync : Bool) (param : Value) : Grammar Value := do
  if param.hasKind "AssignmentPattern" then
    let right := param.field "right"
    if right.hasKind "YieldExpression" then
      if (right.field "argument").truthy then unexpected (← ahead)
      return yieldDefault param
    else return param
  else if isAsync && nameOf param = "await" then unexpected (← ahead)
  else return param

/-- The parameters of an arrow function, if the expression before the arrow can be read as such,
and whether the function is async. -/
def coverParameters? (expr : Value) : Option (List Value × Bool) :=
  if isPlaceholder expr then some (itemsOf expr "params", (expr.field "async").truthy)
  else if expr.hasKind "Identifier" then some ([expr], false)
  else none

/-- Adds a parameter that was read as an expression. -/
def addArrowParameter (isAsync : Bool) (p : Parameters) (param : Value) : Grammar Parameters := do
  let param ← arrowParameter isAsync param
  let strict := (← context).strict
  return ((boundNames param).foldl (fun p name => p.bind strict .place name) p).add param

/-- The parameters of an arrow function, which may not repeat a name. -/
def arrowParameters (params : List Value) (isAsync : Bool) : Grammar Parameters := do
  let p ← params.foldlM (addArrowParameter isAsync) {}
  let c ← context
  if (c.strict || !c.allowYield) && p.params.any fun param => param.hasKind "YieldExpression" then
    unexpected (← ahead)
  if p.complaint = some .strictDuplicate then complain .strictDuplicate
  return p

/-- The body of an arrow function: statements in braces, or one expression. -/
def arrowBody (r : Rules) : Grammar (Value × Bool) := do
  expect "=>"
  if ← isAhead openBrace then
    let body ← withIn true (functionBody r)
    return (body, false)
  else
    let body ← isolated r.assignment
    return (body, true)

def arrowFunction (r : Rules) (first : Token) (params : List Value) (isAsync : Bool) :
    Grammar Value := do
  let p ← arrowParameters params isAsync
  if (← get).newlineAhead then unexpected (← ahead)
  modifyContext fun c => { c with patternOnly := none }
  insideFunction isAsync true do
    let (body, isExpression) ← bodyFor p (arrowBody r)
    finishFrom first (node "ArrowFunctionExpression" [
      ("generator", .bool false), ("async", .bool isAsync), ("params", .list p.params),
      ("body", body), ("expression", .bool isExpression)])

/-- Behind the word `async`, a name on its line is a parameter. -/
def asyncParameter (r : Rules) (first : Token) (expr : Value) : Grammar Value := do
  let next ← ahead
  let isAsync := first.isContextual "async" && first.line = next.line
  if isAsync && (next.kind = .identifier || next.isKeyword "yield") then
    let param ← primary r
    return placeholder [toPattern param] true
  else return expr

/-! ## Assignments -/

def isAssignmentOperator (token : Token) : Bool :=
  token.isAny ["=", "*=", "**=", "/=", "%=", "+=", "-=", "<<=", ">>=", ">>>=", "&=", "^=", "|="]

/-- Checks what is assigned to, which began with `first`. -/
def checkTarget (first : Token) (target : Value) : Grammar Unit := do
  let c ← context
  if !c.isTarget then complainAhead .assignmentTarget
  if c.strict && isRestricted (nameOf target) then rejectToken first .strictAssignment
  if c.strict && isStrictReserved (nameOf target) then rejectToken first .strictReserved

/-- An assignment to `target`, if an operator follows it. -/
def assignmentTo (r : Rules) (first : Token) (target : Value) : Grammar Value := do
  let operator ← ahead
  if isAssignmentOperator operator then
    checkTarget first target
    let isPlain := operator.isPunctuator "="
    if !isPlain then plainValue
    let _ ← take
    let right ← isolated r.assignment
    let whole ← finishFrom first (node "AssignmentExpression" [
      ("operator", .text operator.text), ("left", if isPlain then toPattern target else target),
      ("right", right)])
    modifyContext fun c => { c with patternOnly := none }
    return whole
  else return target

def assignment (r : Rules) : Grammar Value := do
  if !(← context).allowYield && (← isKeywordAhead "yield") then yieldExpression r
  else
    let first ← ahead
    let expr ← conditional r
    let expr ← asyncParameter r first expr
    if isPlaceholder expr || (← isAhead "=>") then
      plainValue
      match coverParameters? expr with
      | some (params, isAsync) => arrowFunction r first params isAsync
      | none => return expr
    else assignmentTo r first expr

end ContractMeter.Script
