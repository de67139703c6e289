import ContractMeter.Tree.Display

/-!
# ContractMeter.Failure

Why a run does not finish:

* `Rejection` — a reason not to deploy the contract, with its `message`.
* `Fault` — a tree or setting that no pass can read, or a text that cannot be written.
-/

namespace ContractMeter

/-- A reason to reject a contract. -/
inductive Rejection where
  | operatorNotCosted (operator : Value)
  | unhandledNode (kind : Value)
  | literalNotCosted (typeName : String)
  | syntaxError (description : String) (line column : Int)
  | sourceTooLarge (length : Nat) (limit : Int)
  /-- Without a limit, the parser itself gave up. -/
  | tooDeep (limit : Option Int)

/-- The message of a node that has no price. -/
def unhandledMessage (kind : Value) : String :=
  "Gamma for computation not implemented for: " ++ kind.display

def Rejection.message : Rejection → String
  | .operatorNotCosted operator => "No gamma cost defined for operator: " ++ operator.display
  | .unhandledNode kind => unhandledMessage kind
  | .literalNotCosted typeName => "No gamma cost defined for literal of type: " ++ typeName
  | .syntaxError description line column =>
    s!"Contract syntax error (line {line}, column {column}): {description}"
  | .sourceTooLarge length limit =>
    s!"Contract source is {length} characters long, the limit is {limit}"
  | .tooDeep none => "Contract nests deeper than the parser can follow"
  | .tooDeep (some limit) => s!"Contract exceeds the maximum nesting depth of {limit}"

/-- A cause of failure that is no verdict on the contract. -/
inductive Fault where
  /-- A node lacks a field that its kind must have. -/
  | missingField (name : String)
  /-- A setting that must be an integer is not one. -/
  | notAnInteger (setting value : String)
  /-- A list, record or set stands where a name is looked up. -/
  | unusableKey
  /-- A value that has no elements stands where a list is read. -/
  | notIterable
  /-- A value that is no text stands where an operator is shortened. -/
  | notSliceable
  /-- A value that is no record stands where fields are copied. -/
  | notFields
  /-- A value that is no record stands where a field is read. -/
  | notARecord
  /-- An integer has too many digits to be written. -/
  | hugeInteger
  /-- A text holds half of a surrogate pair and has no byte encoding. -/
  | unencodable
  /-- Bytes that are no text. -/
  | undecodable
  /-- A directory stands where a file is read. -/
  | isDirectory
  /-- A name that is no logging level. -/
  | unknownLevel
  /-- A value that can be no logging level. -/
  | notALevel
  /-- A template continues where none was begun. -/
  | strayTemplate

/-- The message of a fault that has one. -/
def Fault.message? : Fault → Option String
  | .missingField name => some (Text.quoted name)
  | .notAnInteger setting value => some s!"{setting} must be an integer, got {Text.quoted value}"
  | _ => none

inductive Failure where
  | rejected (reason : Rejection)
  | faulted (fault : Fault)

end ContractMeter
