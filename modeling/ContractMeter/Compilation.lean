import ContractMeter.Instrumenter
import ContractMeter.Log
import ContractMeter.Sanitizer
import ContractMeter.Settings

/-!
# ContractMeter.Compilation

From a contract's source to its metered tree: parse, rename, place charges. Renaming comes first,
so the metering calls are never renamed.

* `Parser` — the tree of a source, with or without locations.
* `compile` — the metered tree with its charges and warnings.
* `sanitizeSource` — the renamed tree alone.
-/

namespace ContractMeter

/-- A parser, told whether to attach locations. -/
abbrev Parser := Bool → String → Except Failure Value

structure CompileOptions where
  strict : Bool := false
  includeReport : Bool := false

/-- A metered tree and everything learned while building it. -/
structure Compilation where
  tree : Value
  charges : List Charge
  warnings : List String

namespace Compilation

def totalGamma (c : Compilation) : Int :=
  ContractMeter.totalGamma c.charges

end Compilation

namespace Settings

def sanitizer (settings : Settings) : Sanitizer where
  excluded := settings.excluded
  marker := settings.marker
  host := settings.host
  maxDepth := settings.maxTreeDepth

/-- The instrumenter of one compilation. -/
def instrumenter (settings : Settings) (strict : Bool) : Instrumenter where
  pricing := ⟨strict, settings.maxTreeDepth⟩
  call := ⟨settings.host, settings.primitive⟩
  maxDepth := settings.maxTreeDepth

/-- The rejection of a source that is too long, if it is. -/
def sourceTooLarge? (settings : Settings) (source : String) : Option Rejection :=
  if settings.maxSourceLength < source.length then
    some (.sourceTooLarge source.length settings.maxSourceLength)
  else
    none

end Settings

/-- What the parser logs when it rejects a source. -/
def parserLog : Failure → List LogEntry
  | .rejected (.syntaxError description line _) =>
    [⟨.parser, .info, s!"Rejected contract source at line {line}: {description}"⟩]
  | .rejected (.tooDeep _) =>
    [⟨.parser, .info, "Rejected contract source: parser recursion limit reached"⟩]
  | _ => []

/-- A switch in a log message. -/
def switchText (b : Bool) : String := if b then "True" else "False"

/-- What a compilation logs when it starts, with names in braces where its values go. -/
def requestTemplate : String :=
  "Compile request received with options: strict=\x7bstrict\x7d, " ++
  "include_report=\x7binclude_report\x7d. Host namespace: \x7bhost_namespace\x7d, " ++
  "max tree depth: \x7bmax_depth\x7d, source length: \x7bsource_length\x7d"

/-- Puts values in the place of their names. The name being read, if any, is held reversed. -/
def fillTemplate (values : List (String × String)) (name : Option (List Char)) :
    List Char → List Char
  | [] => []
  | '{' :: rest => fillTemplate values (some []) rest
  | '}' :: rest =>
    let key := String.ofList (name.getD []).reverse
    ((List.lookup key values).getD "").toList ++ fillTemplate values none rest
  | c :: rest =>
    match name with
    | some cs => fillTemplate values (some (c :: cs)) rest
    | none => c :: fillTemplate values none rest

def requestEntry (settings : Settings) (options : CompileOptions) (strict : Bool)
    (source : String) : LogEntry :=
  let values := [
    ("strict", switchText strict),
    ("include_report", switchText options.includeReport),
    ("host_namespace", settings.host),
    ("max_depth", toString settings.maxTreeDepth),
    ("source_length", toString source.length)]
  ⟨.compiler, .info, String.ofList (fillTemplate values none requestTemplate.toList)⟩

/-- Every warning of the evaluator is logged when it arises. -/
def warningEntries (warnings : List String) : List LogEntry :=
  warnings.map fun message => ⟨.evaluator, .warning, message⟩

/-- Compiles a source. A limit on its length is checked before it is parsed. -/
def compile (parse : Parser) (settings : Settings) (options : CompileOptions) (source : String) :
    Logged Compilation :=
  let strict := options.strict || settings.strict
  let start := requestEntry settings options strict source
  match settings.sourceTooLarge? source with
  | some reason => ⟨[start], .error (.rejected reason)⟩
  | none =>
    match parse true source with
    | .error failure => ⟨start :: parserLog failure, .error failure⟩
    | .ok tree =>
      match settings.sanitizer.sanitize 0 tree with
      | .error failure => ⟨[start], .error failure⟩
      | .ok renamed =>
        let run := (settings.instrumenter strict).node 0 renamed
        let log := start :: warningEntries run.ledger.warnings
        match run.outcome with
        | .error failure => ⟨log, .error failure⟩
        | .ok tree => ⟨log, .ok ⟨tree, run.ledger.charges, run.ledger.warnings⟩⟩

/-- Parses and renames a source without metering it. -/
def sanitizeSource (parse : Parser) (settings : Settings) (source : String) : Logged Value :=
  match settings.sourceTooLarge? source with
  | some reason => ⟨[], .error (.rejected reason)⟩
  | none =>
    match parse false source with
    | .error failure => ⟨parserLog failure, .error failure⟩
    | .ok tree => ⟨[], settings.sanitizer.sanitize 0 tree⟩

end ContractMeter
