import ContractMeter.Script.Sequence

/-!
# ContractMeter.Script.Function

Functions:

* `directives` — the strings that open a script or a function, one of which makes it strict.
* `functionBody` — the statements of a function.
* `functionDeclaration`, `functionExpression` — functions with the keyword.
* `plainMethod`, `asyncMethod`, `getter`, `setter`, `generatorMethod` — functions without it.

Whether a function is strict is known only inside its body, so its name and its parameters are
checked once the body has been read.
-/

namespace ContractMeter.Script

/-! ## Bodies -/

/-- The words between the quotes of a string, as they are written. -/
def unquoted (raw : String) : String :=
  String.ofList (raw.toList.drop 1).dropLast

/-- A statement that begins with a string, and the directive that it is, if it is one. -/
def directiveStatement (r : Rules) : Grammar (Value × Option String) := do
  let token ← ahead
  let start ← here
  let expr ← expression r
  let words := if expr.hasKind "Literal" then unquoted token.raw else ""
  consumeSemicolon
  if words.isEmpty then
    let statement ← finish start (node "ExpressionStatement" [("expression", expr)])
    return (statement, none)
  else
    let statement ← finish start
      (node "ExpressionStatement" [("expression", expr), ("directive", .text words)])
    return (statement, some words)

/-- The directives at the start of a body. A string with an old octal escape may not stand before
the one that asks for strict code. -/
def directives (r : Rules) : Grammar (List Value) := do
  let (found, _) ← repeatWhile ([], none) fun (found, octal) => do
    let token ← ahead
    if token.kind ≠ .stringLiteral then return ((found, octal), false)
    let (statement, directive) ← directiveStatement r
    let found := statement :: found
    match directive with
    | none => return ((found, octal), false)
    | some "use strict" =>
      modifyContext fun c => { c with strict := true }
      match octal with
      | some culprit => rejectToken culprit .strictOctal
      | none => pure ()
      if !(← context).allowStrictDirective then rejectToken token .illegalDirective
      return ((found, octal), true)
    | some _ =>
      let octal := octal <|> if token.octal then some token else none
      return ((found, octal), true)
  return found.reverse

/-- Statements up to a closing brace or the end. -/
def itemsToBrace (r : Rules) : Grammar (List Value) :=
  collect do
    if (← isEndAhead) || (← isAhead closeBrace) then return none
    else
      let item ← r.item
      return some item

/-- The body of a function, where no outer label or loop can be left. -/
def functionBody (r : Rules) : Grammar Value := do
  let start ← here
  expect openBrace
  let opening ← directives r
  let before ← context
  modifyContext fun c => { c with
    labels := [], inIteration := false, inSwitch := false, inFunction := true }
  let items ← itemsToBrace r
  expect closeBrace
  modifyContext fun c => { c with
    labels := before.labels, inIteration := before.inIteration, inSwitch := before.inSwitch
    inFunction := before.inFunction }
  finish start (node "BlockStatement" [("body", .list (opening ++ items))])

/-- Reads the body of a function with the given parameters, and checks them if it is strict. -/
def bodyFor {α : Type} (p : Parameters) (body : Grammar α) : Grammar α := do
  let before ← context
  modifyContext fun c => { c with allowStrictDirective := p.simple }
  let result ← body
  refuseInStrict p.firstRestricted p.complaint
  refuseInStrict p.stricted p.complaint
  modifyContext fun c => { c with
    strict := before.strict, allowStrictDirective := before.allowStrictDirective }
  return result

/-- Reads a part of a function, where `await` and `yield` mean what they mean there. -/
def insideFunction {α : Type} (isAsync allowYield : Bool) (part : Grammar α) : Grammar α := do
  let before ← context
  modifyContext fun c => { c with inAsync := isAsync, allowYield }
  let result ← part
  modifyContext fun c => { c with inAsync := before.inAsync, allowYield := before.allowYield }
  return result

/-! ## Functions with the keyword -/

/-- How a function is marked. -/
structure FunctionMarks where
  isAsync : Bool := false
  isGenerator : Bool := false

/-- A function; an async one has its fields in another order. -/
def functionNode (kind : String) (marks : FunctionMarks) (name : Value) (params : List Value)
    (body : Value) : Value :=
  if marks.isAsync then
    node kind [
      ("generator", .bool false), ("expression", .bool false), ("async", .bool true),
      ("id", name), ("params", .list params), ("body", body)]
  else
    node kind [
      ("expression", .bool false), ("async", .bool false), ("id", name),
      ("params", .list params), ("body", body), ("generator", .bool marks.isGenerator)]

/-- The keyword with its marks. -/
def functionMarks : Grammar FunctionMarks := do
  let isAsync ← isContextualAhead "async"
  if isAsync then
    let _ ← take
  expectKeyword "function"
  if isAsync then return { isAsync }
  else
    let isGenerator ← takeIf "*"
    return { isGenerator }

/-- What strict code has against a function's name. -/
def nameComplaint? (name : String) : Option Complaint :=
  if isRestricted name then some .strictFunctionName
  else if isStrictReserved name then some .strictReserved
  else none

/-- Checks a function's name: around strict code at once, otherwise once its body is known. -/
def checkName (token : Token) : Grammar (Option (Token × Complaint)) := do
  if (← context).strict then
    if isRestricted token.text then rejectToken token .strictFunctionName
    return none
  else return (nameComplaint? token.text).map fun complaint => (token, complaint)

/-- The parameters and the body of a function whose name may be at fault. -/
def functionParts (r : Rules) (fault : Option (Token × Complaint)) :
    Grammar (List Value × Value) := do
  let p ← parameters r (fault.map fun f => .token f.1)
  let p := { p with complaint := p.complaint <|> fault.map fun f => f.2 }
  let body ← bodyFor p (functionBody r)
  return (p.params, body)

def functionDeclaration (r : Rules) : Grammar Value := do
  let start ← here
  let marks ← functionMarks
  let token ← ahead
  let name ← variableIdentifier ""
  let fault ← checkName token
  let (params, body) ← insideFunction marks.isAsync (!marks.isGenerator) (functionParts r fault)
  finish start (functionNode "FunctionDeclaration" marks name params body)

/-- The name of a function expression, if it has one, and what is wrong with it. -/
def expressionName (marks : FunctionMarks) : Grammar (Value × Option (Token × Complaint)) := do
  if ← isAhead "(" then return (.null, none)
  else
    let token ← ahead
    let strict := (← context).strict
    let name ←
      if !strict && !marks.isGenerator && token.isKeyword "yield" then identifierName
      else variableIdentifier ""
    let fault ← checkName token
    return (name, fault)

def functionExpression (r : Rules) : Grammar Value := do
  let start ← here
  let marks ← functionMarks
  insideFunction marks.isAsync (!marks.isGenerator) do
    let (name, fault) ← expressionName marks
    let (params, body) ← functionParts r fault
    finish start (functionNode "FunctionExpression" marks name params body)

/-! ## Methods -/

def methodBody (r : Rules) (p : Parameters) : Grammar Value := do
  plainValue
  bodyFor p (isolated (functionBody r))

/-- A method with parameters that pass a check. -/
def methodWith (r : Rules) (marks : FunctionMarks) (check : Parameters → Grammar Unit) :
    Grammar Value := do
  let start ← here
  let p ← parameters r none
  check p
  let body ← methodBody r p
  finish start (functionNode "FunctionExpression" marks .null p.params body)

def plainMethod (r : Rules) : Grammar Value :=
  withYield true (methodWith r {} fun _ => pure ())

def asyncMethod (r : Rules) : Grammar Value :=
  insideFunction true false (methodWith r { isAsync := true } fun _ => pure ())

/-- A generator reads its parameters, but not its body, with `yield` as a name. -/
def generatorMethod (r : Rules) : Grammar Value :=
  withYield true (methodWith r { isGenerator := true } fun _ =>
    modifyContext fun c => { c with allowYield := false })

def getter (r : Rules) : Grammar Value :=
  withYield true (methodWith r {} fun p =>
    match p.params with
    | [] => pure ()
    | _ => complainAhead .getterParameters)

def setter (r : Rules) : Grammar Value :=
  withYield true (methodWith r {} fun p =>
    match p.params with
    | [param] =>
      if param.hasKind "RestElement" then complainAhead .setterRest else pure ()
    | _ => complainAhead .setterParameters)

/-- A member that a word or a star announces before its key. -/
inductive Announced where
  | getter
  | setter
  | generator
deriving DecidableEq

/-- What a token announces if a key follows it. -/
def announced? (token next : Token) : Option Announced :=
  if !next.beginsKey then none
  else if token.isContextual "get" then some .getter
  else if token.isContextual "set" then some .setter
  else if token.isPunctuator "*" then some .generator
  else none

/-- The word for an accessor; a generator is an ordinary member. -/
def Announced.word (plain : String) : Announced → String
  | getter => "get"
  | setter => "set"
  | generator => plain

/-- A key, and whether it is computed. -/
def memberKey (r : Rules) : Grammar (Value × Bool) := do
  let computed ← isAhead "["
  let key ← propertyKey r
  return (key, computed)

/-- The function of an announced member, at its parameters. Behind a getter `yield` stays a
keyword. -/
def Announced.function (r : Rules) : Announced → Grammar Value
  | getter => do
    modifyContext fun c => { c with allowYield := false }
    Script.getter r
  | setter => Script.setter r
  | generator => generatorMethod r

end ContractMeter.Script
