import ContractMeter.Dump

/-!
# ContractMeter.CommandLine

The command that compiles one file:

* `FileLookup` — what stands under a path.
* `CommandLine.readSource` — the text of a file, every line ending in a line feed.
* `CommandLine.run` — what the command prints and the code it ends with.
-/

namespace ContractMeter

inductive FileLookup where
  | missing
  | directory
  | file (content : ByteArray)

/-- What a finished command leaves. -/
structure CommandResult where
  code : Nat
  stdout : String
  stderr : String

namespace CommandLine

def usage : String := "Usage: python compile_service.py <contract.js> [--strict]\n"

/-- Carriage returns, with a line feed after them or without, become line feeds. -/
def unifyNewlines : List Char → List Char
  | '\r' :: '\n' :: rest => '\n' :: unifyNewlines rest
  | '\r' :: rest => '\n' :: unifyNewlines rest
  | c :: rest => c :: unifyNewlines rest
  | [] => []

/-- The text of a file in UTF-8. -/
def readSource (content : ByteArray) : Except Fault String :=
  match String.fromUTF8? content with
  | some text => .ok (String.ofList (unifyNewlines text.toList))
  | none => .error .undecodable

/-- The text the command prints for a compilation. -/
def treeText (c : Compilation) : Except Fault String :=
  match c.tree.unwritable? true with
  | some _ => .error .hugeInteger
  | none => .ok (c.tree.json .pretty ++ "\n")

/-- Compiles a source under the settings of an environment. -/
def compileSource (parse : Parser) (env : Environment) (strict : Bool) (source : String) :
    Except Fault CommandResult :=
  match Settings.fromEnvironment env with
  | .error fault => .error fault
  | .ok settings =>
    match (compile parse settings { strict } source).outcome with
    | .error (.faulted fault) => .error fault
    | .error (.rejected reason) => .ok ⟨1, "✗ Contract rejected: " ++ reason.message ++ "\n", ""⟩
    | .ok c =>
      match treeText c with
      | .error fault => .error fault
      | .ok text => .ok ⟨0, text, c.report ++ "\n"⟩

/-- Runs the command with its arguments: a path, then options. -/
def run (parse : Parser) (lookup : String → FileLookup) (env : Environment)
    (arguments : List String) : Except Fault CommandResult :=
  match arguments with
  | [] => .ok ⟨1, usage, ""⟩
  | path :: options =>
    match lookup path with
    | .missing => .ok ⟨1, "✗ Error: File not found: " ++ path ++ "\n", ""⟩
    | .directory => .error .isDirectory
    | .file content =>
      match readSource content with
      | .error fault => .error fault
      | .ok source => compileSource parse env (options.contains "--strict") source

end CommandLine

end ContractMeter
