import ContractMeter.CommandLine
import ContractMeter.Script.Parse

/-!
# ContractMeter.Main

The command itself: reads the file and the variables, runs, prints.
-/

namespace ContractMeter

/-- What stands under a path. -/
def lookupFile (path : String) : IO FileLookup := do
  try
    let content ← IO.FS.readBinFile path
    return .file content
  catch
    | .noFileOrDirectory .. => return .missing
    | .inappropriateType .. => return .directory
    | failure => throw failure

/-- The variables that are set. -/
def readEnvironment : IO Environment :=
  Settings.variableNames.filterMapM fun name => do
    let value ← IO.getEnv name
    return value.map fun value => (name, value)

/-- The code of a run that could not be finished. -/
def failed (fault : Fault) : IO UInt32 := do
  IO.eprintln (fault.message?.getD "The contract cannot be compiled")
  return 1

end ContractMeter

open ContractMeter

def main (arguments : List String) : IO UInt32 := do
  let found ← match arguments with
    | [] => pure .missing
    | path :: _ => lookupFile path
  let env ← readEnvironment
  match CommandLine.run Script.parse (fun _ => found) env arguments with
  | .error fault => failed fault
  | .ok result =>
    IO.print result.stdout
    IO.eprint result.stderr
    return result.code.toUInt32
