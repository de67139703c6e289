import ContractMeter.Script.Character
import ContractMeter.Text.Point

/-!
# ContractMeter.Script.Pattern.Escape

Unicode escapes in a regular expression:

* `replaceEscapes` — the pattern with its escapes replaced by the points they denote.
* `joinPairs` — two halves of a surrogate pair in a row as one point.
* `resolve?` — both.
-/

namespace ContractMeter.Script.Pattern

/-- What stands for a character beyond U+FFFF, which the engine need not know. -/
def astralStandIn : TextPoint := .scalar '\uFFFF'

/-- Replaces the escapes of a pattern by the points they denote; none if one denotes no point.
The count skips the rest of an escape that has been replaced. -/
def replaceEscapes : Nat → List Char → Option (List TextPoint)
  | _, [] => some []
  | skip + 1, _ :: rest => replaceEscapes skip rest
  | 0, '\\' :: 'u' :: rest =>
    match rest with
    | '{' :: tail =>
      let digits := tail.takeWhile isHexDigit
      if digits.isEmpty || (tail.drop digits.length).head? ≠ some '}' then
        (replaceEscapes 0 ('u' :: rest)).map (.scalar '\\' :: ·)
      else
        let code := digitsValue 16 digits
        if 0x10FFFF < code then none
        else
          let point := if code ≤ 0xFFFF then TextPoint.ofCode code else astralStandIn
          (replaceEscapes (digits.length + 3) ('u' :: rest)).map (point :: ·)
    | _ =>
      let digits := rest.take 4
      if digits.length = 4 ∧ digits.all isHexDigit then
        (replaceEscapes 5 ('u' :: rest)).map (TextPoint.ofCode (digitsValue 16 digits) :: ·)
      else
        (replaceEscapes 0 ('u' :: rest)).map (.scalar '\\' :: ·)
  | 0, c :: rest => (replaceEscapes 0 rest).map (.scalar c :: ·)

/-- Replaces two halves of a surrogate pair in a row by one point. -/
def joinPairs : List TextPoint → List TextPoint
  | .surrogate high :: .surrogate low :: rest =>
    if high.val < 0x400 ∧ 0x400 ≤ low.val then astralStandIn :: joinPairs rest
    else .surrogate high :: joinPairs (.surrogate low :: rest)
  | point :: rest => point :: joinPairs rest
  | [] => []

def resolve? (pattern : String) : Option (List TextPoint) :=
  (replaceEscapes 0 pattern.toList).map joinPairs

end ContractMeter.Script.Pattern
