import ContractMeter.Script.Member

/-!
# ContractMeter.Script.Operation

Operators that yield a value:

* `update`, `unary`, `exponentiation` — the tightest ones.
* `precedence` — how tightly an operator with two operands binds.
* `binary` — a row of operands, joined by precedence.
* `conditional` — a choice between two values.
-/

namespace ContractMeter.Script

/-! ## One operand -/

/-- Checks that an operand can be changed in place. -/
def checkUpdated (operand : Value) (restricted : Complaint) : Grammar Unit := do
  let c ← context
  if c.strict && isRestricted (nameOf operand) then complainAhead restricted
  if !c.isTarget then complainAhead .assignmentTarget

def updateNode (operator : String) (argument : Value) (isPrefix : Bool) : Value :=
  node "UpdateExpression" [
    ("operator", .text operator), ("argument", argument), ("prefix", .bool isPrefix)]

def update (r : Rules) : Grammar Value := do
  let first ← ahead
  if first.isAny ["++", "--"] then
    let _ ← take
    let operand ← inherited r.unary
    checkUpdated operand .strictPrefix
    plainValue
    finishFrom first (updateNode first.text operand true)
  else
    let operand ← inherited (call r)
    let s ← get
    if !s.newlineAhead && s.ahead.isAny ["++", "--"] then
      checkUpdated operand .strictPostfix
      plainValue
      let _ ← take
      finishFrom first (updateNode s.ahead.text operand false)
    else return operand

def isUnaryOperator (token : Token) : Bool :=
  token.isAny ["+", "-", "~", "!"] ||
    (token.kind = .keyword && ["delete", "void", "typeof"].contains token.text)

def unary (r : Rules) : Grammar Value := do
  let first ← ahead
  if isUnaryOperator first then
    let _ ← take
    let operand ← inherited r.unary
    let whole ← finishFrom first (node "UnaryExpression" [
      ("prefix", .bool true), ("operator", .text first.text), ("argument", operand)])
    if (← context).strict && first.text = "delete" && operand.hasKind "Identifier" then
      complainAhead .strictDelete
    plainValue
    return whole
  else if (← context).inAsync && first.isContextual "await" then
    let start ← here
    let _ ← take
    let operand ← r.unary
    finish start (node "AwaitExpression" [("argument", operand)])
  else update r

/-! ## Two operands -/

def binaryNode (operator : String) (left right : Value) : Value :=
  let kind := if operator = "||" ∨ operator = "&&" then "LogicalExpression" else "BinaryExpression"
  node kind [("operator", .text operator), ("left", left), ("right", right)]

def exponentiation (r : Rules) : Grammar Value := do
  let first ← ahead
  let left ← inherited (unary r)
  if !left.hasKind "UnaryExpression" && (← isAhead "**") then
    let _ ← take
    plainValue
    let right ← isolated r.exponentiation
    finishFrom first (binaryNode "**" left right)
  else return left

/-- How tightly an operator binds; zero if it is none. -/
def punctuatorPrecedence : String → Nat
  | "||" => 1
  | "&&" => 2
  | "|" => 3
  | "^" => 4
  | "&" => 5
  | "==" => 6
  | "!=" => 6
  | "===" => 6
  | "!==" => 6
  | "<" => 7
  | ">" => 7
  | "<=" => 7
  | ">=" => 7
  | "<<" => 8
  | ">>" => 8
  | ">>>" => 8
  | "+" => 9
  | "-" => 9
  | "*" => 11
  | "/" => 11
  | "%" => 11
  | _ => 0

def precedence (allowIn : Bool) (token : Token) : Nat :=
  match token.kind with
  | .punctuator => punctuatorPrecedence token.text
  | .keyword => if token.text = "instanceof" || (allowIn && token.text = "in") then 7 else 0
  | _ => 0

/-- An operand and the token it starts with. -/
structure Operand where
  value : Value
  first : Token

/-- An operator that waits for its right operand. -/
structure Pending where
  left : Operand
  operator : String
  precedence : Nat

/-- Joins the operand with the waiting operators that bind at least as tightly as the next one. -/
def joinTight (next : Nat) : List Pending → Operand → Grammar (List Pending × Operand)
  | [], operand => return ([], operand)
  | p :: waiting, operand => do
    if next ≤ p.precedence then
      let whole ← finishFrom p.left.first (binaryNode p.operator p.left.value operand.value)
      joinTight next waiting ⟨whole, p.left.first⟩
    else return (p :: waiting, operand)

/-- Joins the operand with all waiting operators. A left operand that spans lines counts its
column from the line of the right one. -/
def joinAll : List Pending → Operand → Grammar Value
  | [], operand => return operand.value
  | p :: waiting, operand => do
    let start := p.left.first.mark operand.first.lineStart
    let whole ← finish start (binaryNode p.operator p.left.value operand.value)
    joinAll waiting ⟨whole, p.left.first⟩

def binary (r : Rules) : Grammar Value := do
  let first ← ahead
  let value ← inherited (exponentiation r)
  let (waiting, operand) ← repeatWhile ([], ⟨value, first⟩) fun (waiting, operand) => do
    let token ← ahead
    let next := precedence (← context).allowIn token
    if next = 0 then return ((waiting, operand), false)
    let (waiting, operand) ← joinTight next waiting operand
    let _ ← take
    plainValue
    let first ← ahead
    let value ← isolated (exponentiation r)
    return ((⟨operand, token.text, next⟩ :: waiting, ⟨value, first⟩), true)
  joinAll waiting operand

/-! ## Three operands -/

def conditional (r : Rules) : Grammar Value := do
  let first ← ahead
  let test ← inherited (binary r)
  if ← takeIf "?" then
    let consequent ← withIn true (isolated r.assignment)
    expect ":"
    let alternate ← isolated r.assignment
    plainValue
    finishFrom first (node "ConditionalExpression" [
      ("test", test), ("consequent", consequent), ("alternate", alternate)])
  else return test

end ContractMeter.Script
