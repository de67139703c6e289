import ContractMeter.Text.Blank
import ContractMeter.Text.Digit

/-!
# ContractMeter.Text.Integer

Integers as they are written in settings and reports:

* `readInteger?` — a sign and decimal digits of any script, single underscores between digits,
  white space around.
* `groupThousands` — an integer with a comma before every group of three digits.
-/

namespace ContractMeter.Text

/-- The most digits an integer is read or written with. -/
def maxDigits : Nat := 4300

/-- Continues a number with the digits of a list, a single underscore allowed before each. -/
def continueDigits? (value : Nat) : List Char → Option Nat
  | [] => some value
  | '_' :: c :: rest =>
    match decimalDigit? c with
    | some d => continueDigits? (10 * value + d) rest
    | none => none
  | c :: rest =>
    match decimalDigit? c with
    | some d => continueDigits? (10 * value + d) rest
    | none => none

/-- A number that starts with a digit. -/
def readDigits? : List Char → Option Nat
  | [] => none
  | c :: rest =>
    match decimalDigit? c with
    | some d => continueDigits? d rest
    | none => none

/-- Reads an integer; nothing else may stand beside it, and it has at most `maxDigits` digits. -/
def readInteger? (s : String) : Option Int :=
  let cs := stripChars isSpace s.toList
  if maxDigits < (cs.filter fun c => (decimalDigit? c).isSome).length then
    none
  else
    match cs with
    | '-' :: rest => (readDigits? rest).map fun n => -(n : Int)
    | '+' :: rest => (readDigits? rest).map fun n => (n : Int)
    | _ => (readDigits? cs).map fun n => (n : Int)

/-- A comma after every third character, counted from the start. -/
def commaEveryThree : List Char → List Char
  | a :: b :: c :: d :: rest => a :: b :: c :: ',' :: commaEveryThree (d :: rest)
  | rest => rest

/-- An integer with its digits in groups of three. -/
def groupThousands (n : Int) : String :=
  let digits := String.ofList (commaEveryThree (Nat.toDigits 10 n.natAbs).reverse).reverse
  if n < 0 then "-" ++ digits else digits

end ContractMeter.Text
