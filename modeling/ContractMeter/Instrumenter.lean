import ContractMeter.ChargeStatement
import ContractMeter.Price.Computation

/-!
# ContractMeter.Instrumenter

Placing of metering calls. A call stands in front of every statement, so that execution cannot
reach a computation before it is paid for. A loop also carries a call at the top of its body,
for the test and update that run between two passes.

* `Container` — which parts of a node hold statements.
* `Instrumenter.node`, `Instrumenter.statements` — the instrumented node, the instrumented list.

A walk enters so many levels of the tree; a node's depth follows from the levels left.
-/

namespace ContractMeter

/-- How a kind of node holds statements. -/
inductive Container where
  /-- Its `body` is a list of statements. -/
  | sequence
  /-- Its `body` is one node. -/
  | body
  /-- Its test runs again after every pass through its `body`. -/
  | loop
  /-- Its `body` stands where a statement does and may be a bare one. -/
  | statementBody
  /-- Its `value` is one node. -/
  | value
  | branch
  | attempt
  | switch
  /-- It holds none. -/
  | leaf
deriving DecidableEq

def Container.ofKind : String → Container
  | "Program" => sequence
  | "BlockStatement" => sequence
  | "ClassBody" => sequence
  | "StaticBlock" => sequence
  | "FunctionDeclaration" => body
  | "FunctionExpression" => body
  | "ArrowFunctionExpression" => body
  | "ClassDeclaration" => body
  | "ClassExpression" => body
  | "CatchClause" => body
  | "LabeledStatement" => body
  | "WhileStatement" => loop
  | "DoWhileStatement" => loop
  | "ForStatement" => loop
  | "ForInStatement" => statementBody
  | "ForOfStatement" => statementBody
  | "WithStatement" => statementBody
  | "MethodDefinition" => value
  | "IfStatement" => branch
  | "TryStatement" => attempt
  | "SwitchStatement" => switch
  | _ => leaf

/-- Declarations that get no charge of their own. -/
def unchargedKinds : List String := ["MethodDefinition", "ClassDeclaration"]

structure Instrumenter where
  pricing : Pricing
  call : MeteringCall
  maxDepth : Int

namespace Instrumenter

def tooDeep {α : Type} (m : Instrumenter) : Metered α :=
  .reject (.tooDeep (some m.maxDepth))

/-- The metering call for a price. -/
def charge (m : Instrumenter) (gamma : Nat) : Value :=
  m.call.statement (.int gamma)

/-- Records a charge of a statement. -/
def recordCharge (statement : Value) (gamma : Nat) (label : Option String) : Metered Unit := do
  let entry ← Metered.ofExcept (Charge.of statement gamma label)
  Metered.record entry

def isUncharged (statement : Value) : Bool :=
  unchargedKinds.any statement.hasKind

/-- A statement behind its charge, unless it is a declaration that gets none. -/
def charged (m : Instrumenter) (statement : Value) : Metered (List Value) :=
  if isUncharged statement then
    .pure [statement]
  else do
    let gamma ← m.pricing.gammaFor 0 statement
    recordCharge statement gamma none
    return [m.charge gamma, statement]

/-- Instruments and charges the statements of a list in order. -/
def chargeEach (m : Instrumenter) (instrument : Value → Metered Value) :
    List Value → Metered (List Value)
  | [] => .pure []
  | statement :: rest => do
    let statement ← instrument statement
    let placed ← m.charged statement
    (m.chargeEach instrument rest).map fun others => placed ++ others

/-- Instruments and charges whatever a value yields as statements. -/
def chargeElements (m : Instrumenter) (instrument : Value → Metered Value) (statements : Value) :
    Metered Value := do
  let items ← Metered.ofExcept statements.elements
  let items ← m.chargeEach instrument items
  return .list items

def block (statements : Value) : Value :=
  .record [("type", .text "BlockStatement"), ("body", statements)]

/-- Instruments a part in statement position. A bare statement gets a block to carry its charge;
`inner` instruments the list of that block. -/
def statementPart (node inner : Value → Metered Value) (part : Value) : Metered Value :=
  match part with
  | .null => node .null
  | part =>
    if part.hasKind "BlockStatement" then node part
    else do
      let statements ← inner (.list [part])
      return block statements

/-- A block with one more statement in front. -/
def prepend (statement : Value) : Value → Value
  | .record fields =>
    match Fields.get fields "body" with
    | .list items => .record (Fields.set fields "body" (.list (statement :: items)))
    | _ => .record (Fields.set fields "body" (.list [statement]))
  | other => other

/-- The body a loop runs; an empty block if it has none. -/
def loopBody (fields : Fields) : Value :=
  let body := Fields.get fields "body"
  if body.truthy then body else block (.list [])

/-- Instruments the statements of every case of a `switch`. -/
def eachCase (inner : Value → Metered Value) : List Value → Metered (List Value)
  | [] => .pure []
  | .record fields :: rest => do
    let consequent ← inner ((Fields.get? fields "consequent").getD (.list []))
    (eachCase inner rest).map fun others =>
      .record (Fields.set fields "consequent" consequent) :: others
  | _ :: _ => .fault .notFields

/-- Charges a loop for what it spends between two passes, at the top of its body. The depth is
that of the loop's parts. -/
def meterLoop (m : Instrumenter) (node inner : Value → Metered Value) (depth : Int)
    (kind : String) (fields : Fields) : Metered Value := do
  let gamma ← m.pricing.gammaPerIteration depth (.record fields)
  recordCharge (.record fields) gamma (some (kind ++ " iteration"))
  let body ← statementPart node inner (loopBody fields)
  return .record (Fields.set fields "body" (prepend (m.charge gamma) body))

/-- Instruments the parts of a node: `node` its child nodes, `sequence` a list directly in it,
`inner` a list one level further down. -/
def parts (m : Instrumenter) (node sequence inner : Value → Metered Value) (depth : Int)
    (kind : String) (fields : Fields) : Metered Value :=
  match Container.ofKind kind with
  | .sequence => do
    let body ← sequence ((Fields.get? fields "body").getD (.list []))
    return .record (Fields.set fields "body" body)
  | .body => do
    let body ← node (Fields.get fields "body")
    return .record (Fields.set fields "body" body)
  | .loop => m.meterLoop node inner depth kind fields
  | .statementBody => do
    let body ← statementPart node inner (Fields.get fields "body")
    return .record (Fields.set fields "body" body)
  | .value => do
    let value ← node (Fields.get fields "value")
    return .record (Fields.set fields "value" value)
  | .branch => do
    let consequent ← statementPart node inner (Fields.get fields "consequent")
    let alternate ← statementPart node inner (Fields.get fields "alternate")
    return .record (Fields.set (Fields.set fields "consequent" consequent) "alternate" alternate)
  | .attempt => do
    let block ← node (Fields.get fields "block")
    let handler ← node (Fields.get fields "handler")
    let finalizer ← node (Fields.get fields "finalizer")
    return .record
      (Fields.set (Fields.set (Fields.set fields "block" block) "handler" handler)
        "finalizer" finalizer)
  | .switch => do
    let cases ← Metered.ofExcept ((Fields.get? fields "cases").getD (.list [])).elements
    let cases ← eachCase inner cases
    return .record (Fields.set fields "cases" (.list cases))
  | .leaf => .pure (.record fields)

mutual

/-- The instrumented node, if it is no more than so many levels deep; anything that holds no
statements comes back as it is. -/
def nodeAt (m : Instrumenter) : Nat → Value → Metered Value
  | 0, _ => m.tooDeep
  | levels + 1, .record fields =>
    match Fields.get? fields "type" with
    | none => .pure (.record fields)
    | some (.text kind) =>
      m.parts (nodeAt m levels) (sequenceAt m levels) (innerSequenceAt m levels)
        (m.maxDepth - levels + 1) kind fields
    | some kind => if kind.comparable then .pure (.record fields) else .fault .unusableKey
  | _ + 1, other => .pure other

/-- The instrumented list of statements. -/
def sequenceAt (m : Instrumenter) : Nat → Value → Metered Value
  | 0, _ => m.tooDeep
  | levels + 1, statements => m.chargeElements (nodeAt m levels) statements

/-- The instrumented list of statements one level further down. -/
def innerSequenceAt (m : Instrumenter) : Nat → Value → Metered Value
  | 0, _ => m.tooDeep
  | levels + 1, statements => sequenceAt m levels statements

end

/-- The instrumented node of a tree whose root stands at a depth. -/
def node (m : Instrumenter) (depth : Int) (tree : Value) : Metered Value :=
  m.nodeAt (levelsLeft m.maxDepth depth) tree

/-- The instrumented tree, where a list is a sequence of statements. -/
def statements (m : Instrumenter) (tree : Value) : Metered Value :=
  match tree with
  | .list _ => m.sequenceAt (levelsLeft m.maxDepth 0) tree
  | _ => m.node 0 tree

end Instrumenter

end ContractMeter
