import ContractMeter.Report
import ContractMeter.Tree.Json

/-!
# ContractMeter.Dump

The JSON file that records a compilation:

* `Dump.truncate` — a text cut to a limit, with a mark.
* `Dump.content` — the text of the file. Long parts are cut before they are encoded, so it stays
  one JSON text.
* `Dump.write` — what becomes of a dump in a directory.
-/

namespace ContractMeter

namespace Dump

def truncationMark : String := "\n\n[Content truncated due to size limit]"

/-- The first characters of a text; a negative limit counts from its end. -/
def keep (limit : Int) (text : String) : String :=
  let count := if limit < 0 then text.length + limit else limit
  String.ofList (text.toList.take count.toNat)

/-- A text longer than the limit is cut and marked. -/
def truncate (limit : Int) (text : String) : String :=
  if limit < text.length then keep limit text ++ truncationMark else text

/-- The tree of a dump: itself, or its text on one line if that has to be cut. -/
def treeValue (limit : Int) (tree : Value) : Value :=
  let text := tree.json .line
  if (text.length : Int) ≤ limit then tree else .text (truncate limit text)

def optionsValue (options : CompileOptions) : Value :=
  .record [("strict", .bool options.strict), ("include_report", .bool options.includeReport)]

/-- What a dump records. -/
def value (limit : Int) (source : String) (options : CompileOptions) (c : Compilation) : Value :=
  .record [
    ("options", optionsValue options),
    ("source_code", .text (truncate limit source)),
    ("gamma_total", .int c.totalGamma),
    ("warnings", c.warningsValue),
    ("ast", treeValue limit c.tree)]

/-- The text of a dump; a fault if an integer is too long to be written. -/
def content (limit : Int) (source : String) (options : CompileOptions) (c : Compilation) :
    Except Fault String :=
  let value := value limit source options c
  match c.tree.unwritable? true, value.unwritable? true with
  | none, none => .ok (value.json .pretty)
  | _, _ => .error .hugeInteger

/-- Where a dump goes. -/
inductive Directory where
  /-- Dumping is off. -/
  | off
  /-- A directory that is there or can be made. -/
  | usable
  /-- A path that is taken by something else. -/
  | blocked
deriving DecidableEq

/-- The text of the file that is written, if one is. -/
def write (directory : Directory) (limit : Int) (source : String) (options : CompileOptions)
    (c : Compilation) : Except Fault (Option String) :=
  match directory with
  | .off => .ok none
  | .usable =>
    match content limit source options c with
    | .error fault => .error fault
    | .ok text => .ok (some text)
  | .blocked =>
    match content limit source options c with
    | .error fault => .error fault
    | .ok _ => .ok none

end Dump

end ContractMeter
