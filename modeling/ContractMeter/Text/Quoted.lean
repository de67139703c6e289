import ContractMeter.Text.Point
import ContractMeter.Text.Printable

/-!
# ContractMeter.Text.Quoted

Texts shown between quotes in messages:

* `hexPadded` — a number in lower-case hexadecimal, at least so many digits wide.
* `quoted` — the text between apostrophes, or between quotation marks if it holds an apostrophe
  and no quotation mark; what is not printable is escaped.
-/

namespace ContractMeter.Text

/-- Lower-case hexadecimal digits, padded with zeros to a width. -/
def hexPadded (width n : Nat) : List Char :=
  let digits := Nat.toDigits 16 n
  List.replicate (width - digits.length) '0' ++ digits

/-- A point that cannot be shown, by its code: two, four or eight digits as it needs. -/
def escapedCode (code : Nat) : List Char :=
  if code ≤ 0xFF then '\\' :: 'x' :: hexPadded 2 code
  else if code ≤ 0xFFFF then '\\' :: 'u' :: hexPadded 4 code
  else '\\' :: 'U' :: hexPadded 8 code

/-- One point inside quotes of the given kind. -/
def quotedPoint (quote : Char) : TextPoint → List Char
  | .surrogate offset => escapedCode (0xD800 + offset.val)
  | .scalar c =>
    if c = quote ∨ c = '\\' then ['\\', c]
    else if c = '\t' then ['\\', 't']
    else if c = '\n' then ['\\', 'n']
    else if c = '\r' then ['\\', 'r']
    else if isPrintable c then [c]
    else escapedCode c.toNat

/-- The mark that a text is quoted with. -/
def quoteMark (points : List TextPoint) : Char :=
  if points.contains (.scalar '\'') && !points.contains (.scalar '"') then '"' else '\''

def quotedPoints (points : List TextPoint) : String :=
  let mark := quoteMark points
  String.ofList (mark :: (points.flatMap (quotedPoint mark) ++ [mark]))

def quoted (s : String) : String :=
  quotedPoints (TextPoint.ofString s)

end ContractMeter.Text
