import ContractMeter.Instrumenter
import ContractMeter.Sanitizer

/-!
# ContractMeter.Session

Several steps on one evaluator, one instrumenter and one sanitizer. What they record adds up; it
never changes what a later step answers.

* `Step` — one operation on a tree.
* `Workbench.perform` — the answer of a step and what it recorded.
* `Workbench.run` — the answers of a sequence, with the totals after each step.
-/

namespace ContractMeter

/-- Where a step takes its tree from. -/
inductive Operand where
  | given (tree : Value)
  /-- The result of an earlier step; null if that step failed. -/
  | result (index : Nat)

inductive Operation where
  | gamma (depth : Int)
  | perIteration (depth : Int)
  | sanitize (depth : Int)
  | instrument (depth : Int)
  | record (gamma : Int) (label : Option String)

structure Step where
  operation : Operation
  operand : Operand

/-- The passes that the steps of a session share. -/
structure Workbench where
  instrumenter : Instrumenter
  sanitizer : Sanitizer

namespace Workbench

/-- A price as the answer of a step. -/
def gammaValue (run : Metered Nat) : Metered Value :=
  run.bind fun gamma => .pure (.int gamma)

/-- Performs an operation on a tree. -/
def perform (w : Workbench) (operation : Operation) (tree : Value) : Metered Value :=
  match operation with
  | .gamma depth => gammaValue (w.instrumenter.pricing.gammaFor depth tree)
  | .perIteration depth => gammaValue (w.instrumenter.pricing.gammaPerIteration depth tree)
  | .sanitize depth => ⟨.empty, w.sanitizer.sanitize depth tree⟩
  | .instrument depth => w.instrumenter.node depth tree
  | .record gamma label =>
    (Metered.ofExcept (Charge.of tree gamma label)).bind fun charge =>
      (Metered.record charge).bind fun _ => .pure .null

end Workbench

/-- The answer of a step, and everything recorded once it was done. -/
structure StepAnswer where
  outcome : Except Failure Value
  ledger : Ledger

namespace Workbench

/-- The tree of an operand, given the answers so far. -/
def operandTree (answers : List StepAnswer) : Operand → Value
  | .given tree => tree
  | .result index =>
    match answers[index]? with
    | some ⟨.ok value, _⟩ => value
    | _ => .null

/-- Continues after the answers so far with the ledger they left. -/
def runFrom (w : Workbench) (answers : List StepAnswer) (ledger : Ledger) :
    List Step → List StepAnswer
  | [] => answers
  | step :: rest =>
    let run := w.perform step.operation (operandTree answers step.operand)
    let ledger := ledger ++ run.ledger
    w.runFrom (answers ++ [⟨run.outcome, ledger⟩]) ledger rest

/-- The answers of a sequence of steps. -/
def run (w : Workbench) (steps : List Step) : List StepAnswer :=
  w.runFrom [] .empty steps

end Workbench

end ContractMeter
