import ContractMeter.Number.Decimal

/-!
# ContractMeter.Number.Shortest

The shortest decimal text of a floating-point number:

* `Binary64.shortest` — the fewest digits that read back as the number, and of those the nearest.
* `DecimalLayout` — where positional notation ends and how the special values are spelled.
* `Binary64.format` — the text of a number in a layout.
-/

namespace ContractMeter

namespace Binary64

/-- Four times the least and the greatest real that round to a finite number, in units of
`2 ^ scale`. Below a power of two the neighbour is half as far. -/
def interval (x : Binary64) : Nat × Nat :=
  let m := 4 * x.significand
  if x.fraction.val = 0 ∧ 1 < x.exponent.val then (m - 1, m + 2) else (m - 2, m + 2)

/-- The count of decimal digits before the point, or minus the count of zeros after it, of the
positive number `num / den`. -/
def decimalPoint (num den : Nat) : Int :=
  if den ≤ num then
    (Nat.toDigits 10 (num / den)).length
  else
    let inverse := (den - 1) / num
    if inverse = 0 then 1 else 1 - (Nat.toDigits 10 inverse).length

/-- Divides by ten while that is exact. -/
def dropZeros : Nat → Nat → Int → Nat × Int
  | 0, digits, exponent => (digits, exponent)
  | fuel + 1, digits, exponent =>
    if digits ≠ 0 ∧ digits % 10 = 0 then dropZeros fuel (digits / 10) (exponent + 1)
    else (digits, exponent)

/-- Looks for a decimal of the given exponent that reads back as the number `num / den`, whose
interval is `low / den` to `high / den`: one of the two neighbours on that grid. -/
def candidate? (inclusive : Bool) (low num high den : Nat) (exponent : Int) : Option Nat :=
  let unit := Nat.pow 10 exponent.toNat * den
  let up := Nat.pow 10 (-exponent).toNat
  let below := num * up / unit
  let fits (n : Nat) : Bool :=
    let v := n * unit
    if inclusive then low * up ≤ v && v ≤ high * up else low * up < v && v < high * up
  let nearer := (divRoundEven (num * up) unit)
  let other := if nearer = below then below + 1 else below
  if fits nearer then some nearer
  else if fits other then some other
  else none

/-- Tries one digit, two digits and so on; seventeen always suffice. -/
def searchDigits (inclusive : Bool) (low num high den : Nat) (point : Int) :
    Nat → Nat → Decimal
  | 0, count =>
    let digits := num * Nat.pow 10 (count - point).toNat / (den * Nat.pow 10 (point - count).toNat)
    ⟨digits, point - count⟩
  | fuel + 1, count =>
    match candidate? inclusive low num high den (point - count) with
    | some digits =>
      let (digits, exponent) := dropZeros 20 digits (point - count)
      ⟨digits, exponent⟩
    | none => searchDigits inclusive low num high den point fuel (count + 1)

/-- The fewest decimal digits that read back as a finite number other than zero. -/
def shortest (x : Binary64) : Decimal :=
  let (low, high) := x.interval
  let up := Nat.pow 2 x.scale.toNat
  let den := 4 * Nat.pow 2 (-x.scale).toNat
  let num := 4 * x.significand * up
  searchDigits (x.significand % 2 = 0) (low * up) num (high * up) den (decimalPoint num den) 17 1

end Binary64

/-- How a floating-point number is laid out. -/
structure DecimalLayout where
  /-- The least and the greatest decimal exponent written in positional notation. -/
  leastPositional : Int
  greatestPositional : Int
  infinity : String
  notANumber : String

namespace DecimalLayout

def zeros (n : Int) : String := String.ofList (List.replicate n.toNat '0')

/-- An exponent with its sign, at least two digits wide. -/
def exponentText (e : Int) : String :=
  let digits := toString e.natAbs
  (if e < 0 then "-" else "+") ++ (if digits.length < 2 then "0" ++ digits else digits)

/-- A decimal in positional notation, always with a point. -/
def positional (d : Decimal) : String :=
  let digits := toString d.digits
  let point : Int := digits.length + d.exponent
  if 0 ≤ d.exponent then digits ++ zeros d.exponent ++ ".0"
  else if 0 < point then
    String.ofList (digits.toList.take point.toNat) ++ "." ++
      String.ofList (digits.toList.drop point.toNat)
  else "0." ++ zeros (-point) ++ digits

/-- A decimal in scientific notation; a single digit stands without a point. -/
def scientific (d : Decimal) : String :=
  let digits := (toString d.digits).toList
  let places := digits.drop 1
  String.ofList (digits.take 1) ++ (if places.isEmpty then "" else "." ++ String.ofList places) ++
    "e" ++ exponentText (digits.length + d.exponent - 1)

end DecimalLayout

/-- The text of a number in a layout. -/
def Binary64.format (layout : DecimalLayout) (x : Binary64) : String :=
  let sign := if x.negative && !x.isNaN then "-" else ""
  if x.isNaN then layout.notANumber
  else if !x.isFinite then sign ++ layout.infinity
  else if x.isZero then sign ++ "0.0"
  else
    let d := x.shortest
    let exponent : Int := (toString d.digits).length + d.exponent - 1
    if layout.leastPositional ≤ exponent ∧ exponent ≤ layout.greatestPositional then
      sign ++ DecimalLayout.positional d
    else
      sign ++ DecimalLayout.scientific d

end ContractMeter
