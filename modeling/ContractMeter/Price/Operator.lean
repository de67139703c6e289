import ContractMeter.Tree.Node

/-!
# ContractMeter.Price.Operator

The price of an operator. Every priced operator is in one of four tiers:

* `Tier` — its name, its price, its operators.
* `operatorGamma?` — the price of an operator, if it has one.
* `gammaForOperator` — the price of whatever a node holds as its operator, or why there is none.
-/

namespace ContractMeter

inductive Tier where
  | base
  | low
  | medium
  | mediumHigh
deriving DecidableEq

namespace Tier

def all : List Tier := [base, low, medium, mediumHigh]

def name : Tier → String
  | base => "BASE"
  | low => "LOW"
  | medium => "MEDIUM"
  | mediumHigh => "MEDIUM_HIGH"

def gamma : Tier → Nat
  | base => 2
  | low => 3
  | medium => 5
  | mediumHigh => 6

def operators : Tier → List String
  | base => ["^", "==", "!=", "===", "!==", "<=", "<", ">", ">=", "instanceof", "|", "&", "<<",
      ">>", ">>>", "in"]
  | low => ["+", "-"]
  | medium => ["*", "/", "%"]
  | mediumHigh => ["++", "--"]

end Tier

/-- The price of the tier that lists an operator. -/
def operatorGamma? (operator : String) : Option Nat :=
  (Tier.all.find? fun tier => tier.operators.contains operator).map Tier.gamma

/-- The prices of all operators. -/
def operatorTable : List (String × Nat) :=
  Tier.all.flatMap fun tier => tier.operators.map fun operator => (operator, tier.gamma)

/-- The price of an operator; a value that cannot be looked up is a fault, and one that is not
found rejects the contract. -/
def gammaForOperator (operator : Value) : Except Failure Nat :=
  if operator.usableKey then
    match operator with
    | .text s =>
      match operatorGamma? s with
      | some gamma => .ok gamma
      | none => .error (.rejected (.operatorNotCosted operator))
    | _ => .error (.rejected (.operatorNotCosted operator))
  else
    .error (.faulted .unusableKey)

/-- Whether an operator has a price. -/
def isCosted (operator : Value) : Except Fault Bool :=
  if operator.usableKey then
    match operator with
    | .text s => .ok (operatorGamma? s).isSome
    | _ => .ok false
  else
    .error .unusableKey

/-- The operator of a compound assignment without its equals sign. -/
def compoundOperator (operator : Value) : Except Fault Value :=
  match operator with
  | .text s => .ok (.text (String.ofList s.toList.dropLast))
  | .broken t => .ok (.ofPoints t.points.dropLast)
  | .list items => .ok (.list items.dropLast)
  | .host .bytes => .ok operator
  | _ => .error .notSliceable

end ContractMeter
