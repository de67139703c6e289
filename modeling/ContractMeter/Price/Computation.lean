import ContractMeter.Ledger
import ContractMeter.Price.Literal
import ContractMeter.Price.Operator

/-!
# ContractMeter.Price.Computation

The gamma of a computation, by cases on the kind of its node. Operators are priced from their
table, statements cost what they wrap, declared literals pay for the bytes they store.

* `PriceRule` — what a kind of node costs.
* `Pricing.gammaFor` — the gamma of a node or of a list of nodes.
* `Pricing.gammaPerIteration` — what a loop spends between two passes through its body.

A kind without a rule costs nothing and leaves a warning; strict pricing rejects it instead.
-/

namespace ContractMeter

/-- What the gamma of a node is made of. -/
inductive PriceRule where
  /-- Nothing; statements inside a block carry charges of their own. -/
  | free
  | operator
  | expression
  | argument
  | declarations
  | declarator
  | assignment
  | test
  | testAndInit
  | unpriced
deriving DecidableEq

namespace PriceRule

/-- Kinds that execute nothing on their own. -/
def idleKinds : List String :=
  ["BlockStatement", "BreakStatement", "ContinueStatement", "EmptyStatement",
    "FunctionDeclaration", "Identifier", "Literal", "ThisExpression"]

/-- The rule of a kind that executes something. A `do` loop pays for every test per iteration, so
entering it is free. -/
def ofActiveKind : String → PriceRule
  | "CallExpression" => free
  | "DoWhileStatement" => free
  | "BinaryExpression" => operator
  | "UpdateExpression" => operator
  | "ExpressionStatement" => expression
  | "ReturnStatement" => argument
  | "VariableDeclaration" => declarations
  | "VariableDeclarator" => declarator
  | "AssignmentExpression" => assignment
  | "IfStatement" => test
  | "WhileStatement" => test
  | "ForStatement" => testAndInit
  | _ => unpriced

def ofKind (kind : String) : PriceRule :=
  if idleKinds.contains kind then free else ofActiveKind kind

end PriceRule

/-- How computations are priced. -/
structure Pricing where
  strict : Bool
  maxDepth : Int

namespace Pricing

def tooDeep {α : Type} (p : Pricing) : Metered α :=
  .reject (.tooDeep (some p.maxDepth))

/-- A kind that has no rule. -/
def unpriced (p : Pricing) (kind : Value) : Metered Nat :=
  if p.strict then .reject (.unhandledNode kind)
  else (Metered.warn (unhandledMessage kind)).map fun _ => 0

/-- A price that only fails or succeeds. -/
def settled : Except Failure Nat → Metered Nat
  | .ok gamma => .pure gamma
  | .error failure => .fail failure

/-- The sum of the prices of a list, from the first to the last. -/
def sumOf (price : Value → Metered Nat) : List Value → Metered Nat
  | [] => .pure 0
  | item :: rest => do
    let first ← price item
    (sumOf price rest).map fun others => first + others

/-- A null part costs nothing. -/
def optional (price : Value → Metered Nat) (part : Value) : Metered Nat :=
  match part with
  | .null => .pure 0
  | part => price part

/-- A field that the node must have. -/
def required (node : Value) (name : String) : Metered Value :=
  match node.field? name with
  | some value => .pure value
  | none => .fault (.missingField name)

/-- The literal a declared node stores. A regular expression stores its source and flags. -/
def declaredLiteral (node : Value) : Value :=
  let regex := node.field "regex"
  if regex.truthy then regex else node.field "value"

/-- The price of a declared variable's initial value. -/
def initial (price : Value → Metered Nat) (init : Value) : Metered Nat :=
  match init with
  | .null => .pure 0
  | init =>
    if init.hasKind "Literal" then settled (gammaForLiteral (declaredLiteral init)) else price init

/-- The price of the operator of an assignment; plain assignment has none. -/
def assignedOperator (operator : Value) : Metered Nat :=
  if operator.isText "=" then .pure 0
  else
    match compoundOperator operator with
    | .ok shortened => settled (gammaForOperator shortened)
    | .error cause => .fault cause

/-- Applies a rule to a node, pricing its parts with `price`. -/
def byRule (p : Pricing) (price : Value → Metered Nat) (rule : PriceRule) (node : Value) :
    Metered Nat :=
  match rule with
  | .free => .pure 0
  | .operator => do
    let operator ← required node "operator"
    settled (gammaForOperator operator)
  | .expression => do
    let inner ← required node "expression"
    price inner
  | .argument => optional price (node.field "argument")
  | .declarations => price ((node.field? "declarations").getD (.list []))
  | .declarator => initial price (node.field "init")
  | .assignment => do
    let right ← price (node.field "right")
    let operator ← assignedOperator ((node.field? "operator").getD (.text "="))
    return right + operator
  | .test => optional price (node.field "test")
  | .testAndInit => do
    let test ← optional price (node.field "test")
    let init ← optional price (node.field "init")
    return test + init
  | .unpriced => p.unpriced node.kind

/-- The gamma of a computation that may be so many levels deep. -/
def gammaAt (p : Pricing) : Nat → Value → Metered Nat
  | 0, _ => p.tooDeep
  | levels + 1, .list items => sumOf (gammaAt p levels) items
  | levels + 1, node =>
    match node.kind with
    | .text name => p.byRule (gammaAt p levels) (PriceRule.ofKind name) node
    | kind => if kind.usableKey then p.unpriced kind else .fault .unusableKey

/-- The gamma of a node or of a list of nodes that stands at a depth. -/
def gammaFor (p : Pricing) (depth : Int) (computation : Value) : Metered Nat :=
  p.gammaAt (levelsLeft p.maxDepth depth) computation

/-- The test and the update of a loop, which run after every pass through its body. -/
def gammaPerIterationAt (p : Pricing) : Nat → Value → Metered Nat
  | 0, _ => p.tooDeep
  | levels + 1, .record fields => do
    let test ← optional (p.gammaAt levels) (Fields.get fields "test")
    let update ← optional (p.gammaAt levels) (Fields.get fields "update")
    return test + update
  | _ + 1, _ => .fault .notARecord

/-- The gamma a loop at a depth spends between two passes through its body. -/
def gammaPerIteration (p : Pricing) (depth : Int) (loop : Value) : Metered Nat :=
  p.gammaPerIterationAt (levelsLeft p.maxDepth depth) loop

end Pricing

end ContractMeter
