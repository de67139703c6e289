import ContractMeter.Failure

/-!
# ContractMeter.Log

Log entries and the levels that loggers are set to:

* `LogEntry` — a component, a level, a message.
* `Logged` — a result or a failure with the entries logged on the way.
* `levelOfSetting` — the level that a word names.
* `Loggers.configure` — sets a logger's level; its handler keeps the first one.
-/

namespace ContractMeter

inductive Severity where
  | info
  | warning
  | error
deriving DecidableEq

def Severity.name : Severity → String
  | .info => "INFO"
  | .warning => "WARNING"
  | .error => "ERROR"

inductive Component where
  | compiler
  | parser
  | evaluator
  | service
deriving DecidableEq

/-- The name a component logs under. -/
def Component.name : Component → String
  | .compiler => "compile_service"
  | .parser => "contract_parser"
  | .evaluator => "gamma_evaluator"
  | .service => "main"

structure LogEntry where
  component : Component
  severity : Severity
  message : String

/-- A result or a failure, and what was logged before it. -/
structure Logged (α : Type) where
  log : List LogEntry
  outcome : Except Failure α

/-- How log lines are laid out. -/
def logFormat : String := "%(asctime)s - %(name)s - %(levelname)s - %(message)s"

/-- Upper case, as far as the name of a level can tell: two letters outside ASCII have an upper
case in it, and so have the ligatures of `s` and `t`. -/
def upperLetters (c : Char) : List Char :=
  if c = 'ı' then ['I']
  else if c = 'ſ' then ['S']
  else if c = 'ﬅ' ∨ c = 'ﬆ' then ['S', 'T']
  else [c.toUpper]

/-- The level that applies if a word names none. -/
def warningLevel : Int := 30

/-- The level a word names in any case. Two names stand for something that is no level. -/
def levelOfName (word : String) : Except Fault Int :=
  match String.ofList (word.toList.flatMap upperLetters) with
  | "DEBUG" => .ok 10
  | "INFO" => .ok 20
  | "WARN" => .ok 30
  | "WARNING" => .ok 30
  | "ERROR" => .ok 40
  | "CRITICAL" => .ok 50
  | "FATAL" => .ok 50
  | "NOTSET" => .ok 0
  | "BASIC_FORMAT" => .error .unknownLevel
  | "_STYLES" => .error .notALevel
  | _ => .ok warningLevel

def levelOfSetting : Option String → Except Fault Int
  | none => .ok warningLevel
  | some word => levelOfName word

/-- Loggers that have a handler, with the level of that handler. -/
abbrev Loggers := List (String × Int)

/-- Sets the level of a logger and attaches a handler unless it has one. Yields the level of the
logger and of its handler. -/
def Loggers.configure (loggers : Loggers) (name : String) (setting : Option String) :
    Except Fault (Int × Int) × Loggers :=
  match levelOfSetting setting with
  | .error fault => (.error fault, loggers)
  | .ok level =>
    match List.lookup name loggers with
    | some handlerLevel => (.ok (level, handlerLevel), loggers)
    | none => (.ok (level, level), (name, level) :: loggers)

end ContractMeter
