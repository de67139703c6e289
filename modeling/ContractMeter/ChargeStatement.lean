import ContractMeter.Tree.Node

/-!
# ContractMeter.ChargeStatement

The metering call `host.primitive(amount);` as a statement of the tree:

* `MeteringCall` — the names of the host namespace and of its metering primitive.
* `MeteringCall.statement` — the call for an amount.
* `MeteringCall.recognizes` — whether a statement is such a call, whatever its arguments.
-/

namespace ContractMeter

structure MeteringCall where
  host : String
  primitive : String
deriving DecidableEq

namespace MeteringCall

def identifier (name : String) : Value :=
  .record [("type", .text "Identifier"), ("name", .text name)]

/-- The member access `host.primitive`. -/
def callee (call : MeteringCall) : Value :=
  .record [
    ("type", .text "MemberExpression"),
    ("computed", .bool false),
    ("object", identifier call.host),
    ("property", identifier call.primitive)]

/-- A literal that shows its value as its source text. -/
def amountLiteral (amount : Value) : Value :=
  .record [("type", .text "Literal"), ("value", amount), ("raw", .text amount.display)]

/-- The statement that charges an amount. -/
def statement (call : MeteringCall) (amount : Value) : Value :=
  .record [
    ("type", .text "ExpressionStatement"),
    ("expression", .record [
      ("type", .text "CallExpression"),
      ("callee", call.callee),
      ("arguments", .list [amountLiteral amount])])]

/-- Whether a node is an identifier of the given name. -/
def isNamed (node : Value) (name : String) : Bool :=
  node.hasKind "Identifier" && (node.field "name").isText name

/-- Whether a statement calls the metering primitive by plain member access. -/
def recognizes (call : MeteringCall) (statement : Value) : Bool :=
  let expression := statement.field "expression"
  let callee := expression.field "callee"
  statement.hasKind "ExpressionStatement" && expression.hasKind "CallExpression" &&
    callee.hasKind "MemberExpression" && !(callee.field "computed").truthy &&
    isNamed (callee.field "object") call.host && isNamed (callee.field "property") call.primitive

end MeteringCall

end ContractMeter
