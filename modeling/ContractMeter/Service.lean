import ContractMeter.Dump

/-!
# ContractMeter.Service

The endpoints of the compilation service:

* `Request` — a body that has been read, with `Request.read` for each endpoint.
* `Answer` — a response, a refusal with its status, or the fields of a body that are not valid.
* `Service.reply` — what an endpoint answers to a request under given settings.
* `Service.answer` — what an endpoint answers, logs and dumps.
* `Service.health` — the answer that needs no request.
-/

namespace ContractMeter

inductive Endpoint where
  | compile
  | sanitize
  | gamma
deriving DecidableEq

inductive Answer where
  | success (body : Value)
  | refused (status : Nat) (detail : Value)
  /-- The paths of the fields that are missing or of the wrong type, sorted. -/
  | invalid (paths : List String)

/-- An answer, or the failure that no endpoint expects, with what was logged and dumped. -/
structure Reply where
  log : List LogEntry
  dumps : List String
  outcome : Except Fault Answer

/-- What an endpoint is asked. -/
structure Request where
  source : String
  options : CompileOptions

namespace Request

/-- Words that stand for a switch, in any case of their letters. -/
def switchWord? (s : String) : Option Bool :=
  let word := String.ofList (s.toList.map Char.toLower)
  if ["1", "on", "t", "true", "y", "yes"].contains word then some true
  else if ["0", "off", "f", "false", "n", "no"].contains word then some false
  else none

/-- A switch: a boolean, zero or one, or a word for either. -/
def switch? : Value → Option Bool
  | .bool b => some b
  | .int 0 => some false
  | .int 1 => some true
  | .text s => switchWord? s
  | _ => none

/-- The switch in a field; a missing field is off, and a field of another type gives the path. -/
def switchField (fields : Fields) (path name : String) : Except String Bool :=
  match Fields.get? fields name with
  | none => .ok false
  | some value =>
    match switch? value with
    | some b => .ok b
    | none => .error path

def sourceField (fields : Fields) : Except String String :=
  match Fields.get? fields "source_code" with
  | some (.text s) => .ok s
  | _ => .error "source_code"

/-- The path of what could not be read, if anything. -/
def path? {α : Type} : Except String α → List String
  | .ok _ => []
  | .error path => [path]

/-- Reads the options of a compilation. -/
def readOptions (fields : Fields) : Except (List String) CompileOptions :=
  match Fields.get? fields "options" with
  | none => .ok {}
  | some (.record options) =>
    match switchField options "options.include_report" "include_report",
        switchField options "options.strict" "strict" with
    | .ok includeReport, .ok strict => .ok { strict, includeReport }
    | includeReport, strict => .error (path? includeReport ++ path? strict)
  | some _ => .error ["options"]

/-- The options that an endpoint reads from its body. -/
def endpointOptions (endpoint : Endpoint) (fields : Fields) :
    Except (List String) CompileOptions :=
  match endpoint with
  | .compile => readOptions fields
  | .gamma =>
    match switchField fields "strict" "strict" with
    | .ok strict => .ok { strict }
    | .error path => .error [path]
  | .sanitize => .ok {}

/-- Reads a body; otherwise the paths of what is wrong in it. The paths of options sort before
that of the source, and that of `strict` after it. -/
def read (endpoint : Endpoint) (body : Value) : Except (List String) Request :=
  match body with
  | .record fields =>
    match sourceField fields, endpointOptions endpoint fields with
    | .ok source, .ok options => .ok ⟨source, options⟩
    | .ok _, .error paths => .error paths
    | .error path, .ok _ => .error [path]
    | .error path, .error paths =>
      match endpoint with
      | .compile => .error (paths ++ [path])
      | .sanitize => .error (path :: paths)
      | .gamma => .error (path :: paths)
  | _ => .error [""]

end Request

namespace Service

/-- The refusal of a blank source. -/
def blankAnswer : Answer := .refused 400 (.text "Please provide contract code to compile.")

def refusal (status : Nat) (message : String) (reason : Rejection) : Answer :=
  .refused status
    (.record [("message", .text message), ("errors", .list [.text reason.message])])

/-- A source too large has a status of its own. -/
def rejectionAnswer : Rejection → Answer
  | .sourceTooLarge length limit =>
    refusal 413 "Contract source too large." (.sourceTooLarge length limit)
  | reason => refusal 422 "Contract rejected." reason

/-- The reply to a source that did not go through. -/
def failureReply (log : List LogEntry) : Failure → Reply
  | .faulted fault => ⟨log, [], .error fault⟩
  | .rejected reason =>
    ⟨log ++ [⟨.service, .warning, "Contract rejected: " ++ reason.message⟩], [],
      .ok (rejectionAnswer reason)⟩

/-- The body of a compilation. -/
def compileBody (options : CompileOptions) (c : Compilation) : Value :=
  .record [
    ("ast", c.tree),
    ("gamma_total", .int c.totalGamma),
    ("charges", c.chargesValue),
    ("warnings", c.warningsValue),
    ("errors", .list []),
    ("report", if options.includeReport then .text c.report else .null)]

/-- Where the settings send dumps, if a path can be used as `target` says. -/
def dumpTarget (settings : Settings) (target : String → Dump.Directory) : Dump.Directory :=
  match settings.dumpDirectory with
  | none => .off
  | some path => target path

/-- Compiles and dumps. -/
def compileReply (parse : Parser) (target : String → Dump.Directory) (settings : Settings)
    (request : Request) : Reply :=
  let run := compile parse settings request.options request.source
  match run.outcome with
  | .error failure => failureReply run.log failure
  | .ok c =>
    let dump := Dump.write (dumpTarget settings target) defaultDumpLimit request.source
      request.options c
    match dump with
    | .error fault => ⟨run.log, [], .error fault⟩
    | .ok written => ⟨run.log, written.toList, .ok (.success (compileBody request.options c))⟩

def sanitizeReply (parse : Parser) (settings : Settings) (request : Request) : Reply :=
  let run := sanitizeSource parse settings request.source
  match run.outcome with
  | .error failure => failureReply run.log failure
  | .ok tree => ⟨run.log, [], .ok (.success (.record [("ast", tree)]))⟩

def gammaReply (parse : Parser) (settings : Settings) (request : Request) : Reply :=
  let run := estimateGamma parse settings request.options.strict request.source
  match run.outcome with
  | .error failure => failureReply run.log failure
  | .ok estimate => ⟨run.log, [], .ok (.success estimate)⟩

/-- The answer that the service is up. -/
def health : Reply :=
  ⟨[], [], .ok (.success (.record [("status", .text "ok"), ("version", .text version)]))⟩

/-- Answers a request whose source is not blank. -/
def serve (parse : Parser) (target : String → Dump.Directory) (settings : Settings)
    (endpoint : Endpoint) (request : Request) : Reply :=
  match endpoint with
  | .compile => compileReply parse target settings request
  | .sanitize => sanitizeReply parse settings request
  | .gamma => gammaReply parse settings request

/-- The reply to a request that has been read. A blank source is refused before the settings are
looked at. -/
def reply (parse : Parser) (target : String → Dump.Directory) (settings : Except Fault Settings)
    (endpoint : Endpoint) (request : Request) : Reply :=
  if Text.isAllBlank request.source then ⟨[], [], .ok blankAnswer⟩
  else
    match settings with
    | .error fault => ⟨[], [], .error fault⟩
    | .ok settings => serve parse target settings endpoint request

/-- What an endpoint answers to a body, under the settings of the environment. -/
def answer (parse : Parser) (target : String → Dump.Directory) (env : Environment)
    (endpoint : Endpoint) (body : Value) : Reply :=
  match Request.read endpoint body with
  | .error paths => ⟨[], [], .ok (.invalid paths)⟩
  | .ok request => reply parse target (Settings.fromEnvironment env) endpoint request

end Service

end ContractMeter
