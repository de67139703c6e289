import ContractMeter.Script.Function

/-!
# ContractMeter.Script.Class

Classes, whose code is strict:

* `classElement` — a method, an accessor or the constructor.
* `classDeclaration`, `classExpression` — a class with and without the need for a name.
-/

namespace ContractMeter.Script

/-- An element up to its parameters: the token it is told by, its key, its marks. -/
structure ElementStart where
  token : Token
  key : Option Value := none
  computed : Bool := false
  isStatic : Bool := false
  isAsync : Bool := false

/-- Reads on behind the word `static`. -/
def staticElement (r : Rules) (e : ElementStart) : Grammar ElementStart := do
  let token ← ahead
  let name := (e.key.map nameOf).getD ""
  if name = "static" && (token.beginsKey || token.isPunctuator "*") then
    let computed ← isAhead "["
    if ← takeIf "*" then return { e with token, computed, isStatic := true }
    else
      let key ← propertyKey r
      return { e with token, key := some key, computed, isStatic := true }
  else return e

/-- Reads on behind the word `async`, unless it is a key itself. -/
def asyncElement (r : Rules) (e : ElementStart) : Grammar ElementStart := do
  let s ← get
  let isWord := e.token.isContextual "async" && !s.newlineAhead
  if isWord && !([":", "(", "*"].contains s.ahead.text) then
    let token := s.ahead
    let key ← propertyKey r
    if token.isContextual "constructor" then rejectToken token .asyncConstructor
    return { e with token, key := some key, isAsync := true }
  else return e

def elementStart (r : Rules) : Grammar ElementStart := do
  let token ← ahead
  if ← takeIf "*" then return { token }
  else
    let (key, computed) ← memberKey r
    let e ← staticElement r { token, key := some key, computed }
    asyncElement r e

/-- An element's key, the word for its kind, and its function. -/
structure ElementBody where
  key : Value
  computed : Bool
  kind : String
  value : Value

def elementBody (r : Rules) (e : ElementStart) : Grammar ElementBody := do
  let next ← ahead
  match announced? e.token next, e.key with
  | some announced, _ =>
    let (key, computed) ← memberKey r
    let value ← announced.function r
    return ⟨key, computed, announced.word "method", value⟩
  | none, some key =>
    if next.isPunctuator "(" then
      let value ← if e.isAsync then asyncMethod r else plainMethod r
      return ⟨key, e.computed, "method", value⟩
    else unexpected next
  | none, none => unexpected next

/-- Whether an element is the constructor. A class has one at most, and it is a plain method. -/
def isConstructor (e : ElementStart) (b : ElementBody) (hasConstructor : Bool) :
    Grammar Bool := do
  if b.computed then return false
  if e.isStatic then
    if isKey b.key "prototype" then rejectToken e.token .staticPrototype
    return false
  if !isKey b.key "constructor" then return false
  let isGenerator := (b.value.field "generator").truthy
  if b.kind ≠ "method" || isGenerator then rejectToken e.token .specialConstructor
  if hasConstructor then rejectToken e.token .duplicateConstructor
  return true

/-- An element, and whether it is the constructor. -/
def classElement (r : Rules) (hasConstructor : Bool) : Grammar (Value × Bool) := do
  let start ← here
  let e ← elementStart r
  let b ← elementBody r e
  let found ← isConstructor e b hasConstructor
  let kind := if found then "constructor" else b.kind
  let whole ← finish start (node "MethodDefinition" [
    ("key", b.key), ("computed", .bool b.computed), ("value", b.value), ("kind", .text kind),
    ("static", .bool e.isStatic)])
  return (whole, found)

def classBody (r : Rules) : Grammar Value := do
  let start ← here
  expect openBrace
  let (elements, _) ← repeatWhile ([], false) fun (elements, hasConstructor) => do
    if ← isAhead closeBrace then return ((elements, hasConstructor), false)
    else if ← takeIf ";" then return ((elements, hasConstructor), true)
    else
      let (element, found) ← classElement r hasConstructor
      return ((element :: elements, hasConstructor || found), true)
  expect closeBrace
  finish start (node "ClassBody" [("body", .list elements.reverse)])

/-- A class of a kind, with its name read by `name`. -/
def classOf (r : Rules) (kind : String) (name : Grammar Value) : Grammar Value := do
  let start ← here
  let before ← context
  modifyContext fun c => { c with strict := true }
  expectKeyword "class"
  let id ← name
  let parent ← if ← takeKeywordIf "extends" then isolated r.call else pure .null
  let body ← classBody r
  modifyContext fun c => { c with strict := before.strict }
  finish start (node kind [("id", id), ("superClass", parent), ("body", body)])

def classDeclaration (r : Rules) : Grammar Value :=
  classOf r "ClassDeclaration" (variableIdentifier "")

def classExpression (r : Rules) : Grammar Value :=
  classOf r "ClassExpression" do
    if (← ahead).kind = .identifier then variableIdentifier "" else return .null

end ContractMeter.Script
