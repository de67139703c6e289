import ContractMeter.Instrumenter
import ContractMeter.Proofs.Price

/-!
# ContractMeter.Proofs.Execution

The control flow of statements, as far as a bill depends on it. Evaluating an expression is one
step whose value is left open, so a test goes either way; a declaration of a function or class
does nothing when it is reached.

* `Task` — what is left to do; a run works on a stack of tasks.
* `Event` — what a run does: executing an inserted charge, beginning a computation, leaving.
* `Reading` — whether a tree is read as it is, or as an instrumented one, in which the inserted
  charges are told from their position.
* `Step`, `Run` — one step of a run, and finitely many.
-/

namespace ContractMeter
namespace Execution

open Instrumenter (loopBody isUncharged)

/-- What a run does that its bill depends on. -/
inductive Event where
  | charge (statement : Value)
  | compute (computation : Value)
  /-- A `break` or `return` is executed. -/
  | leave

namespace Event

/-- The computations begun, in order. -/
def computations : List Event → List Value
  | [] => []
  | compute computation :: rest => computation :: computations rest
  | _ :: rest => computations rest

/-- What is left of a run without its charges. -/
def withoutCharges : List Event → List Event
  | [] => []
  | charge _ :: rest => withoutCharges rest
  | event :: rest => event :: withoutCharges rest

/-- The amount that a metering call names. -/
def amount (statement : Value) : Int :=
  match (statement.field "expression").field "arguments" with
  | .list [literal] =>
    match literal.field "value" with
    | .int n => n
    | _ => 0
  | _ => 0

def charged : List Event → Int
  | [] => 0
  | charge statement :: rest => amount statement + charged rest
  | _ :: rest => charged rest

/-- The event of evaluating a part; a null part is not evaluated. -/
def evaluate (part : Value) : List Event :=
  (Pricing.present part).map compute

end Event

inductive Task where
  | charge (statement : Value)
  | run (statement : Value)
  /-- The test of a loop, and another pass if it holds. -/
  | test (loop : Fields)
  /-- The end of a pass through a loop's body. -/
  | again (loop : Fields)

/-- How the statements of a tree are read. -/
inductive Reading where
  | plain
  | metered

namespace Reading

/-- The statements of an instrumented list. Each but an uncharged declaration stands behind its
charge. -/
def meteredTasks : List Value → List Task
  | [] => []
  | [item] => [.run item]
  | item :: statement :: rest =>
    if isUncharged item then .run item :: meteredTasks (statement :: rest)
    else .charge item :: .run statement :: meteredTasks rest

def tasks : Reading → List Value → List Task
  | plain, items => items.map .run
  | metered, items => meteredTasks items

/-- A pass through the body of a loop. In an instrumented loop it starts with a charge. -/
def pass : Reading → Fields → List Task
  | plain, loop => [.run (loopBody loop)]
  | metered, loop =>
    match (Fields.get loop "body").field "body" with
    | .list (charge :: items) => .charge charge :: meteredTasks items
    | _ => []

end Reading

namespace Task

/-- A part in statement position; a null part is none. -/
def part (statement : Value) : List Task :=
  (Pricing.present statement).map run

/-- What is left behind the innermost loop. -/
def behindLoop : List Task → List Task
  | [] => []
  | again _ :: rest => rest
  | _ :: rest => behindLoop rest

/-- What is left from the end of the innermost loop's pass on. -/
def endOfPass : List Task → List Task
  | [] => []
  | again loop :: rest => again loop :: rest
  | _ :: rest => endOfPass rest

end Task

/-- A step of a run. A `break` or `continue` with a label does not occur. -/
inductive Step (reading : Reading) : List Task → List Event → List Task → Prop where
  | charge {s : Value} {rest : List Task} :
      Step reading (.charge s :: rest) [.charge s] rest
  | sequence {fields : Fields} {name : String} {items : List Value} {rest : List Task}
      (hn : name ∈ ["Program", "BlockStatement"])
      (hk : (Value.record fields).hasKind name = true)
      (hb : ((Fields.get? fields "body").getD (.list [])).elements = .ok items) :
      Step reading (.run (.record fields) :: rest) [] (reading.tasks items ++ rest)
  | compute {fields : Fields} {name : String} {rest : List Task}
      (hn : name ∈ ["ExpressionStatement", "VariableDeclaration"])
      (hk : (Value.record fields).hasKind name = true) :
      Step reading (.run (.record fields) :: rest) [.compute (.record fields)] rest
  | idle {fields : Fields} {name : String} {rest : List Task}
      (hn : name ∈ ["EmptyStatement", "FunctionDeclaration", "ClassDeclaration"])
      (hk : (Value.record fields).hasKind name = true) :
      Step reading (.run (.record fields) :: rest) [] rest
  | returns {fields : Fields} {rest : List Task}
      (hk : (Value.record fields).hasKind "ReturnStatement" = true) :
      Step reading (.run (.record fields) :: rest)
        (Event.evaluate (Fields.get fields "argument") ++ [.leave]) []
  | breaks {fields : Fields} {rest : List Task}
      (hk : (Value.record fields).hasKind "BreakStatement" = true)
      (hl : Fields.get fields "label" = .null) :
      Step reading (.run (.record fields) :: rest) [.leave] (Task.behindLoop rest)
  | continues {fields : Fields} {rest : List Task}
      (hk : (Value.record fields).hasKind "ContinueStatement" = true)
      (hl : Fields.get fields "label" = .null) :
      Step reading (.run (.record fields) :: rest) [] (Task.endOfPass rest)
  | branch {fields : Fields} {side : String} {rest : List Task}
      (hk : (Value.record fields).hasKind "IfStatement" = true)
      (hs : side ∈ ["consequent", "alternate"]) :
      Step reading (.run (.record fields) :: rest) (Event.evaluate (Fields.get fields "test"))
        (Task.part (Fields.get fields side) ++ rest)
  | whileLoop {fields : Fields} {rest : List Task}
      (hk : (Value.record fields).hasKind "WhileStatement" = true) :
      Step reading (.run (.record fields) :: rest) [] (.test fields :: rest)
  | forLoop {fields : Fields} {rest : List Task}
      (hk : (Value.record fields).hasKind "ForStatement" = true) :
      Step reading (.run (.record fields) :: rest) (Event.evaluate (Fields.get fields "init"))
        (.test fields :: rest)
  | doLoop {fields : Fields} {rest : List Task}
      (hk : (Value.record fields).hasKind "DoWhileStatement" = true) :
      Step reading (.run (.record fields) :: rest) [] (reading.pass fields ++ .again fields :: rest)
  | pass {loop : Fields} {rest : List Task} :
      Step reading (.test loop :: rest) (Event.evaluate (Fields.get loop "test"))
        (reading.pass loop ++ .again loop :: rest)
  /-- A loop without a test does not end by it. -/
  | done {loop : Fields} {rest : List Task} (ht : Fields.get loop "test" ≠ .null) :
      Step reading (.test loop :: rest) (Event.evaluate (Fields.get loop "test")) rest
  /-- Only a `for` loop has an update. -/
  | again {loop : Fields} {rest : List Task} :
      Step reading (.again loop :: rest) (Event.evaluate (Fields.get loop "update"))
        (.test loop :: rest)

/-- A run of any length, with its events in order. -/
inductive Run (reading : Reading) : List Task → List Event → List Task → Prop where
  | refl {tasks : List Task} : Run reading tasks [] tasks
  | step {tasks next last : List Task} {events more : List Event}
      (hs : Step reading tasks events next) (hr : Run reading next more last) :
      Run reading tasks (events ++ more) last

namespace Run

variable {reading : Reading} {tasks next last : List Task} {events more : List Event}

theorem single (hs : Step reading tasks events next) : Run reading tasks events next := by
  simpa using Run.step hs .refl

theorem trans (h : Run reading tasks events next) (h' : Run reading next more last) :
    Run reading tasks (events ++ more) last := by
  induction h with
  | refl => exact h'
  | step hs _ ih =>
    rw [List.append_assoc]
    exact .step hs (ih h')

end Run

namespace Event

variable {events more : List Event}

theorem computations_append :
    computations (events ++ more) = computations events ++ computations more := by
  induction events with
  | nil => rfl
  | cons event rest ih => cases event <;> simp [computations, ih]

theorem withoutCharges_append :
    withoutCharges (events ++ more) = withoutCharges events ++ withoutCharges more := by
  induction events with
  | nil => rfl
  | cons event rest ih => cases event <;> simp [withoutCharges, ih]

@[simp]
theorem computations_evaluate (part : Value) :
    computations (evaluate part) = Pricing.present part := by
  cases part <;> rfl

@[simp]
theorem withoutCharges_evaluate (part : Value) :
    withoutCharges (evaluate part) = evaluate part := by
  cases part <;> rfl

@[simp]
theorem charged_evaluate (part : Value) : charged (evaluate part) = 0 := by
  cases part <;> rfl

theorem charged_append : charged (events ++ more) = charged events + charged more := by
  induction events with
  | nil => simp [charged]
  | cons event rest ih => cases event <;> simp [charged, ih, Int.add_assoc]

end Event

end Execution
end ContractMeter
