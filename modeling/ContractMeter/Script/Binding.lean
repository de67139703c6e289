import ContractMeter.Script.Syntax

/-!
# ContractMeter.Script.Binding

Names and patterns that a declaration or a parameter list binds:

* `Rules` — the parts of the grammar that contain each other.
* `variableIdentifier` — one name.
* `pattern`, `patternWithDefault` — a pattern and the tokens of its names.
* `Parameters` — a parameter list, with the name that strict code would not accept.
-/

namespace ContractMeter.Script

/-- The parts of the grammar that contain each other, one level of nesting further in. -/
structure Rules where
  assignment : Grammar Value
  unary : Grammar Value
  exponentiation : Grammar Value
  /-- What `new` applies to. -/
  constructorPart : Grammar Value
  /-- Members and calls. -/
  call : Grammar Value
  statement : Grammar Value
  /-- A statement or a declaration. -/
  item : Grammar Value
  /-- A pattern in a declaration of a kind, and the tokens of its names. -/
  pattern : String → Grammar (Value × List Token)

/-- A name where a variable is bound or a label stands. Only `var` may bind `let`. -/
def variableIdentifier (kind : String) : Grammar Value := do
  let start ← here
  let token ← take
  let c ← context
  if token.isKeyword "yield" then
    if c.strict then rejectToken token .strictReserved
    else if !c.allowYield then unexpected token
  else if token.kind ≠ .identifier then
    if c.strict && token.kind = .keyword && isStrictReserved token.text then
      rejectToken token .strictReserved
    else if c.strict || token.text ≠ "let" || kind ≠ "var" then unexpected token
  else if c.inAsync && token.text = "await" then unexpected token
  finish start (identifier token.value)

/-- A name behind a point, where every word is one. -/
def identifierName : Grammar Value := do
  let start ← here
  let token ← take
  if !token.isName then unexpected token
  finish start (identifier token.value)

def refuseOldOctal (token : Token) : Grammar Unit := do
  if (← context).strict && token.octal then rejectToken token .strictOctal

/-- The key of a property. -/
def propertyKey (r : Rules) : Grammar Value := do
  let start ← here
  let token ← take
  match token.kind with
  | .stringLiteral =>
    refuseOldOctal token
    finish start (literal token)
  | .numericLiteral =>
    refuseOldOctal token
    finish start (literal token)
  | .punctuator =>
    if token.text = "[" then
      let key ← isolated r.assignment
      expect "]"
      return key
    else unexpected token
  | _ => if token.isName then finish start (identifier token.value) else unexpected token

/-! ## Patterns -/

/-- A pattern, perhaps with a default value. -/
def patternWithDefault (r : Rules) (kind : String) : Grammar (Value × List Token) := do
  let first ← ahead
  let (target, names) ← r.pattern kind
  if ← takeIf "=" then
    let right ← withYield true (isolated r.assignment)
    let whole ← finishFrom first (node "AssignmentPattern" [("left", target), ("right", right)])
    return (whole, names)
  else return (target, names)

def restElement (r : Rules) (kind : String) : Grammar (Value × List Token) := do
  let start ← here
  expect "..."
  let (target, names) ← r.pattern kind
  let whole ← finish start (node "RestElement" [("argument", target)])
  return (whole, names)

/-- One member of an array pattern: null for a hole. A rest element is the last one. -/
def arrayMember (r : Rules) (kind : String) : Grammar (Value × List Token × Bool) := do
  if ← takeIf "," then return (.null, [], true)
  else if ← isAhead "..." then
    let (member, names) ← restElement r kind
    return (member, names, false)
  else
    let (member, names) ← patternWithDefault r kind
    if !(← isAhead "]") then expect ","
    return (member, names, true)

def arrayPattern (r : Rules) (kind : String) : Grammar (Value × List Token) := do
  let start ← here
  expect "["
  let (members, names) ← repeatWhile ([], []) fun (members, names) => do
    if ← isAhead "]" then return ((members, names), false)
    else
      let (member, more, goOn) ← arrayMember r kind
      return ((member :: members, names ++ more), goOn)
  expect "]"
  let whole ← finish start (node "ArrayPattern" [("elements", .list members.reverse)])
  return (whole, names)

/-- A property; its fields in their order. -/
def property (kind : String) (key : Value) (computed : Bool) (value : Value)
    (method shorthand : Bool) : Value :=
  node "Property" [
    ("key", key), ("computed", .bool computed), ("value", value), ("kind", .text kind),
    ("method", .bool method), ("shorthand", .bool shorthand)]

def namedPropertyPattern (r : Rules) (kind : String) : Grammar (Value × List Token) := do
  let start ← here
  let token ← ahead
  let key ← variableIdentifier ""
  let name ← finish start (identifier token.value)
  if ← takeIf "=" then
    let right ← r.assignment
    let value ← finishFrom token (node "AssignmentPattern" [("left", name), ("right", right)])
    let whole ← finish start (property "init" key false value false true)
    return (whole, [token])
  else if ← takeIf ":" then
    let (value, names) ← patternWithDefault r kind
    let whole ← finish start (property "init" key false value false false)
    return (whole, names)
  else
    let whole ← finish start (property "init" key false name false true)
    return (whole, [token])

def propertyPattern (r : Rules) (kind : String) : Grammar (Value × List Token) := do
  if (← ahead).kind = .identifier then namedPropertyPattern r kind
  else
    let start ← here
    let computed ← isAhead "["
    let key ← propertyKey r
    expect ":"
    let (value, names) ← patternWithDefault r kind
    let whole ← finish start (property "init" key computed value false false)
    return (whole, names)

/-- The rest of an object pattern, which is its last member and has no default. -/
def restProperty (r : Rules) : Grammar (Value × List Token) := do
  let start ← here
  expect "..."
  let (target, names) ← r.pattern ""
  if ← isAhead "=" then complain .defaultRest
  if !(← isAhead closeBrace) then complain .misplaced
  let whole ← finish start (node "RestElement" [("argument", target)])
  return (whole, names)

def objectPattern (r : Rules) (kind : String) : Grammar (Value × List Token) := do
  let start ← here
  expect openBrace
  let (members, names) ← repeatWhile ([], []) fun (members, names) => do
    if ← isAhead closeBrace then return ((members, names), false)
    else
      let (member, more) ←
        if ← isAhead "..." then restProperty r else propertyPattern r kind
      if !(← isAhead closeBrace) then expect ","
      return ((member :: members, names ++ more), true)
  expect closeBrace
  let whole ← finish start (node "ObjectPattern" [("properties", .list members.reverse)])
  return (whole, names)

/-- A pattern, and the tokens of the names it binds. -/
def pattern (r : Rules) (kind : String) : Grammar (Value × List Token) := do
  if ← isAhead "[" then arrayPattern r kind
  else if ← isAhead openBrace then objectPattern r kind
  else
    let token ← ahead
    if token.isKeyword "let" && (kind = "const" || kind = "let") then rejectToken token .letBinding
    let name ← variableIdentifier kind
    return (name, [token])

/-! ## Parameters -/

/-- What a complaint about a parameter points at: its token, or, for a parameter first read as an
expression, the place reached. -/
inductive Culprit where
  | token (t : Token)
  | place

def reject {α : Type} (culprit : Culprit) (complaint : Complaint) : Grammar α :=
  match culprit with
  | .token t => rejectToken t complaint
  | .place => complain complaint

structure Parameters where
  /-- Whether every parameter is a plain name. -/
  simple : Bool := true
  params : List Value := []
  names : List (List TextPoint) := []
  /-- A parameter that strict code would not accept, found to be one while in strict code. -/
  stricted : Option Culprit := none
  /-- The first one found outside strict code, or the function's name. -/
  firstRestricted : Option Culprit := none
  complaint : Option Complaint := none

namespace Parameters

/-- Notes a name that is bound. -/
def bind (p : Parameters) (strict : Bool) (culprit : Culprit) (name : List TextPoint) :
    Parameters :=
  let repeated := p.names.contains name
  let word := TextPoint.text name
  let noted :=
    if strict then
      let p := if isRestricted word then
          { p with stricted := some culprit, complaint := some .strictParameter }
        else p
      if repeated then { p with stricted := some culprit, complaint := some .strictDuplicate }
      else p
    else if p.firstRestricted.isSome then p
    else if isRestricted word then
      { p with firstRestricted := some culprit, complaint := some .strictParameter }
    else if isStrictReserved word then
      { p with firstRestricted := some culprit, complaint := some .strictReserved }
    else if repeated then
      { p with stricted := some culprit, complaint := some .strictDuplicate }
    else p
  { noted with names := name :: noted.names }

/-- Adds a parameter. -/
def add (p : Parameters) (param : Value) : Parameters :=
  { p with simple := p.simple && param.hasKind "Identifier", params := p.params ++ [param] }

end Parameters

/-- Rejects a parameter list that strict code does not accept. -/
def refuseInStrict (culprit : Option Culprit) (complaint : Option Complaint) : Grammar Unit := do
  if (← context).strict then
    match culprit, complaint with
    | some culprit, some complaint => reject culprit complaint
    | _, _ => return ()

/-- The last parameter, which takes all further arguments. -/
def restParameter (r : Rules) : Grammar (Value × List Token) := do
  let start ← here
  expect "..."
  let (target, names) ← r.pattern ""
  if ← isAhead "=" then complain .defaultRest
  if !(← isAhead ")") then complain .restNotLast
  let whole ← finish start (node "RestElement" [("argument", target)])
  return (whole, names)

def parameter (r : Rules) (p : Parameters) : Grammar Parameters := do
  let (param, names) ←
    if ← isAhead "..." then restParameter r else patternWithDefault r ""
  let strict := (← context).strict
  let p := names.foldl (fun p token => p.bind strict (.token token) (pointsOf token.value)) p
  return p.add param

/-- A parameter list in parentheses; the name of the function may already be at fault. -/
def parameters (r : Rules) (firstRestricted : Option Culprit) : Grammar Parameters := do
  let none : Parameters := { firstRestricted }
  expect "("
  let p ←
    if ← isAhead ")" then pure none
    else
      repeatWhile none fun p => do
        if ← isEndAhead then return (p, false)
        let p ← parameter r p
        if ← isAhead ")" then return (p, false)
        expect ","
        if ← isAhead ")" then return (p, false)
        return (p, true)
  expect ")"
  return p

end ContractMeter.Script
