/-!
# ContractMeter.Number.Binary64

Floating-point numbers of 64 bits, held by their three fields so that equality is decidable and
every operation is exact arithmetic on natural numbers:

* `Binary64` — sign, exponent field and fraction.
* `Binary64.ofRatio` — the number nearest to a quotient, a tie going to the even neighbour.
* `Binary64.integer?` — the exact value of a number without a fractional part.
-/

namespace ContractMeter

/-- A number in the interchange format binary64. -/
structure Binary64 where
  negative : Bool
  exponent : Fin 2048
  fraction : Fin (Nat.pow 2 52)
deriving DecidableEq

namespace Binary64

def infinity (negative : Bool) : Binary64 := ⟨negative, 2047, 0⟩

def nan : Binary64 := ⟨false, 2047, ⟨Nat.pow 2 51, by decide⟩⟩

def zero (negative : Bool) : Binary64 := ⟨negative, 0, 0⟩

instance : Inhabited Binary64 := ⟨zero false⟩

def isFinite (x : Binary64) : Bool := x.exponent.val < 2047

def isNaN (x : Binary64) : Bool := !x.isFinite && x.fraction.val ≠ 0

/-- Whether a number is a zero of either sign. -/
def isZero (x : Binary64) : Bool := x.exponent.val = 0 && x.fraction.val = 0

/-- A finite number is `significand * 2 ^ scale` up to its sign. -/
def significand (x : Binary64) : Nat :=
  if x.exponent.val = 0 then x.fraction.val else Nat.pow 2 52 + x.fraction.val

def scale (x : Binary64) : Int :=
  (max x.exponent.val 1 : Nat) - 1075

/-- The number whose exponent field and fraction, read as one natural number, are `fields`;
infinity if they do not fit. -/
def ofFields (negative : Bool) (fields : Nat) : Binary64 :=
  if fields < 2047 * Nat.pow 2 52 then
    ⟨negative, Fin.ofNat 2048 (fields / Nat.pow 2 52),
      Fin.ofNat (Nat.pow 2 52) (fields % Nat.pow 2 52)⟩
  else
    infinity negative

/-- The quotient rounded to the nearest integer, a tie going to the even one. -/
def divRoundEven (num den : Nat) : Nat :=
  let q := num / den
  let twice := 2 * (num % den)
  if twice < den then q
  else if den < twice then q + 1
  else q + q % 2

/-- `num * 2 ^ (-scale) / den`, as a numerator and a denominator. -/
def scaled (num den : Nat) (scale : Int) : Nat × Nat :=
  (num * Nat.pow 2 (-scale).toNat, den * Nat.pow 2 scale.toNat)

/-- The scale at which a quotient has 53 binary digits before the point, or the smallest scale
there is. -/
def scaleOf (num den : Nat) : Int :=
  let guess : Int := (num.log2 : Int) - den.log2 - 52
  let (n, d) := scaled num den guess
  max (-1074) (if n / d < Nat.pow 2 52 then guess - 1 else guess)

/-- The number nearest to `num / den`. A carry out of the significand moves on into the exponent
field, which is how the next binade begins. -/
def ofRatio (negative : Bool) (num den : Nat) : Binary64 :=
  if num = 0 then
    zero negative
  else
    let scale := scaleOf num den
    let (n, d) := scaled num den scale
    ofFields negative ((scale + 1074).toNat * Nat.pow 2 52 + divRoundEven n d)

/-- The value of a finite number without a fractional part. -/
def integer? (x : Binary64) : Option Int :=
  if x.isFinite then
    let magnitude? :=
      if 0 ≤ x.scale then some (x.significand * Nat.pow 2 x.scale.toNat)
      else
        let unit := Nat.pow 2 (-x.scale).toNat
        if x.significand % unit = 0 then some (x.significand / unit) else none
    magnitude?.map fun n => if x.negative then -(n : Int) else n
  else
    none

end Binary64

end ContractMeter
