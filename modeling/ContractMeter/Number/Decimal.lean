import ContractMeter.Number.Binary64

/-!
# ContractMeter.Number.Decimal

Decimal numerals:

* `Decimal` — an integer times a power of ten.
* `Decimal.read?` — digits, a point, an exponent.
* `Decimal.toBinary64` — the nearest floating-point number.
* `readBinary64?` — also infinities and the number that is none.
-/

namespace ContractMeter

/-- The number `digits * 10 ^ exponent`. -/
structure Decimal where
  digits : Nat
  exponent : Int
deriving DecidableEq, Repr

namespace Decimal

def digitValue (c : Char) : Nat := c.toNat - '0'.toNat

/-- The number written by a list of decimal digits. -/
def ofDigits (cs : List Char) : Nat :=
  cs.foldl (fun n c => 10 * n + digitValue c) 0

/-- The leading decimal digits of a list, and what follows them. -/
def splitDigits (cs : List Char) : List Char × List Char :=
  (cs.takeWhile Char.isDigit, cs.dropWhile Char.isDigit)

/-- An exponent part, or nothing; `none` if a mark is not followed by digits alone. -/
def readExponent? : List Char → Option Int
  | [] => some 0
  | e :: rest =>
    if e = 'e' ∨ e = 'E' then
      let (negative, rest) :=
        match rest with
        | '-' :: rest => (true, rest)
        | '+' :: rest => (false, rest)
        | _ => (false, rest)
      let (digits, tail) := splitDigits rest
      if digits.isEmpty || !tail.isEmpty then none
      else some (if negative then -(ofDigits digits : Int) else ofDigits digits)
    else
      none

/-- Reads a numeral without a sign: digits, perhaps a point and digits, perhaps an exponent; at
least one digit stands beside the point. -/
def read? (cs : List Char) : Option Decimal :=
  let (whole, rest) := splitDigits cs
  let (places, rest) :=
    match rest with
    | '.' :: rest => splitDigits rest
    | _ => ([], rest)
  if whole.isEmpty && places.isEmpty then
    none
  else
    (readExponent? rest).map fun e => ⟨ofDigits (whole ++ places), e - places.length⟩

/-- The nearest floating-point number. Numerals beyond the range on either side are settled by
their count of digits, so no power of ten grows with the exponent. -/
def toBinary64 (x : Decimal) (negative : Bool) : Binary64 :=
  let top : Int := x.exponent + (Nat.toDigits 10 x.digits).length
  if x.digits = 0 ∨ top < -400 then .zero negative
  else if 400 < top then .infinity negative
  else .ofRatio negative (x.digits * Nat.pow 10 x.exponent.toNat) (Nat.pow 10 (-x.exponent).toNat)

end Decimal

/-- Reads a floating-point number: a decimal numeral, `inf` or `nan`, with a sign or without. -/
def readBinary64? (s : String) : Option Binary64 :=
  let (negative, cs) :=
    match s.toList with
    | '-' :: rest => (true, rest)
    | '+' :: rest => (false, rest)
    | cs => (false, cs)
  let word := String.ofList (cs.map Char.toLower)
  if word = "inf" ∨ word = "infinity" then some (.infinity negative)
  else if word = "nan" then some .nan
  else (Decimal.read? cs).map fun d => d.toBinary64 negative

end ContractMeter
