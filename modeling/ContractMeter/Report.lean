import ContractMeter.Compilation

/-!
# ContractMeter.Report

What is told about a compilation:

* `Compilation.report` — a Markdown report, a table row for each charge.
* `Compilation.toValue` — the compilation as a record.
* `estimateGamma` — the bill of a source, without the tree.
-/

namespace ContractMeter

/-- A charge as a record. -/
def Charge.toValue (charge : Charge) : Value :=
  .record [("statement", charge.statement), ("line", charge.line), ("gamma", .int charge.gamma)]

/-- What every report ends with. -/
def reportFooter : String :=
  "---\n*Gamma is charged per statement before it runs. Operands are free; each statement pays " ++
  "for its outermost operator, and declared literals pay 2,500 gamma per stored byte.*"

namespace Report

/-- The line of a charge in a table row; a dash if it has none. -/
def lineText : Value → String
  | .null => "-"
  | line => line.display

def row (charge : Charge) : String :=
  "| " ++ lineText charge.line ++ " | " ++ charge.statement.display ++ " | " ++
    Text.groupThousands charge.gamma ++ " |"

def summary (total : Int) (calls : Nat) : List String :=
  ["## Gamma Estimation", "", "### Summary",
    "- **Total Gamma:** " ++ Text.groupThousands total,
    s!"- **Metering Calls:** {calls}",
    "", "### Breakdown by Statement", "", "| Line | Statement | Gamma |",
    "|------|-----------|-------|"]

/-- The notes of a report; nothing without warnings. -/
def notes (warnings : List String) : List String :=
  if warnings.isEmpty then []
  else ["", "### ⚠️ Notes", ""] ++ warnings.map fun warning => "- " ++ warning

end Report

namespace Compilation

/-- The lines of the report. -/
def reportLines (c : Compilation) : List String :=
  Report.summary c.totalGamma c.charges.length ++ c.charges.map Report.row ++
    Report.notes c.warnings ++ ["", reportFooter]

def report (c : Compilation) : String :=
  String.intercalate "\n" c.reportLines

def chargesValue (c : Compilation) : Value :=
  .list (c.charges.map Charge.toValue)

def warningsValue (c : Compilation) : Value :=
  .list (c.warnings.map .text)

def toValue (c : Compilation) : Value :=
  .record [
    ("ast", c.tree),
    ("gamma_total", .int c.totalGamma),
    ("charges", c.chargesValue),
    ("warnings", c.warningsValue)]

/-- The bill of a compilation, with its report. -/
def estimate (c : Compilation) : Value :=
  .record [
    ("breakdown", c.chargesValue),
    ("total_gamma", .int c.totalGamma),
    ("warnings", c.warningsValue),
    ("report", .text c.report)]

end Compilation

/-- Estimates what a contract will be charged. -/
def estimateGamma (parse : Parser) (settings : Settings) (strict : Bool) (source : String) :
    Logged Value :=
  let run := compile parse settings { strict } source
  match run.outcome with
  | .error failure => ⟨run.log, .error failure⟩
  | .ok c => ⟨run.log, .ok c.estimate⟩

end ContractMeter
