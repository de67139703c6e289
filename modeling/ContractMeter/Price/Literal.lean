import ContractMeter.Failure
import ContractMeter.Tree.Json

/-!
# ContractMeter.Price.Literal

A declared literal pays for the bytes it is stored as: its compact JSON text in UTF-8.

* `encodeLiteral` — the stored text.
* `gammaForLiteral` — 2500 for each of its bytes.
-/

namespace ContractMeter

/-- The price of a stored byte. -/
def gammaPerByte : Nat := 2500

/-- A floating-point number without a fractional part is stored as an integer; inside a list or
record it is stored as it is. -/
def storedLiteral : Value → Value
  | .float x =>
    match x.integer? with
    | some n => .int n
    | none => .float x
  | v => v

/-- The text a literal is stored as. A value with a host object in it has none, which rejects the
contract; an integer too long or a text without encoding is a fault. -/
def encodeLiteral (value : Value) : Except Failure String :=
  let stored := storedLiteral value
  match stored.unwritable? false with
  | some .hostObject => .error (.rejected (.literalNotCosted stored.typeName))
  | some .hugeInteger => .error (.faulted .hugeInteger)
  | none =>
    if stored.encodable then .ok (stored.json .compact) else .error (.faulted .unencodable)

def gammaForLiteral (value : Value) : Except Failure Nat :=
  match encodeLiteral value with
  | .ok text => .ok (gammaPerByte * text.utf8ByteSize)
  | .error failure => .error failure

end ContractMeter
