import ContractMeter.Script.Function

/-!
# ContractMeter.Script.Object

Object literals:

* `objectMember` — a property, a method or an accessor.
* `objectLiteral` — members in braces.
-/

namespace ContractMeter.Script

/-- A member's key as far as it has been read: none behind a star. -/
structure MemberStart where
  start : Mark
  token : Token
  key : Option Value
  computed : Bool
  isAsync : Bool

def memberStart (r : Rules) : Grammar MemberStart := do
  let start ← here
  let token ← ahead
  if token.kind = .identifier then
    let _ ← take
    let s ← get
    let isAsync := token.text = "async" && !s.newlineAhead && !s.ahead.isAny [":", "(", "*", ","]
    let computed ← isAhead "["
    let key ← if isAsync then propertyKey r else finish start (identifier token.value)
    return ⟨start, token, some key, computed, isAsync⟩
  else if ← takeIf "*" then return ⟨start, token, none, false, false⟩
  else
    let (key, computed) ← memberKey r
    return ⟨start, token, some key, computed, false⟩

/-- A name that is key and value at once; with a default it can only be part of a pattern. -/
def shorthandMember (r : Rules) (m : MemberStart) (key : Value) : Grammar Value := do
  let name ← finish m.start (identifier m.token.value)
  let sign ← ahead
  if sign.isPunctuator "=" then
    modifyContext fun c => { c with patternOnly := some sign }
    let _ ← take
    let right ← isolated r.assignment
    let value ← finish m.start (node "AssignmentPattern" [("left", name), ("right", right)])
    finish m.start (property "init" key m.computed value false true)
  else finish m.start (property "init" key m.computed name false true)

/-- A member whose key has been read, and whether it sets the prototype. -/
def keyedMember (r : Rules) (hasProto : Bool) (m : MemberStart) (key : Value) :
    Grammar (Value × Bool) := do
  if (← isAhead ":") && !m.isAsync then
    let setsProto := !m.computed && isKey key "__proto__"
    if setsProto && hasProto then complainAhead .duplicateProto
    let _ ← take
    let value ← inherited r.assignment
    let whole ← finish m.start (property "init" key m.computed value false false)
    return (whole, setsProto)
  else if ← isAhead "(" then
    let value ← if m.isAsync then asyncMethod r else plainMethod r
    let whole ← finish m.start (property "init" key m.computed value true false)
    return (whole, false)
  else if m.token.kind = .identifier then
    let whole ← shorthandMember r m key
    return (whole, false)
  else unexpected (← take)

/-- A member, and whether it sets the prototype, which only one may do. -/
def objectMember (r : Rules) (hasProto : Bool) : Grammar (Value × Bool) := do
  let m ← memberStart r
  let next ← ahead
  let announced? := if m.isAsync then none else announced? m.token next
  match announced? with
  | some announced =>
    let (key, computed) ← memberKey r
    let value ← announced.function r
    let isMethod := announced = .generator
    let whole ← finish m.start (property (announced.word "init") key computed value isMethod false)
    return (whole, false)
  | none =>
    match m.key with
    | some key => keyedMember r hasProto m key
    | none => unexpected next

def objectLiteral (r : Rules) : Grammar Value := do
  let start ← here
  expect openBrace
  let (members, _) ← repeatWhile ([], false) fun (members, hasProto) => do
    if ← isAhead closeBrace then return ((members, hasProto), false)
    let (member, setsProto) ←
      if ← isAhead "..." then
        let spread ← spreadElement r
        pure (spread, false)
      else objectMember r hasProto
    if !(← isAhead closeBrace) then expect ","
    return ((member :: members, hasProto || setsProto), true)
  expect closeBrace
  finish start (node "ObjectExpression" [("properties", .list members.reverse)])

end ContractMeter.Script
