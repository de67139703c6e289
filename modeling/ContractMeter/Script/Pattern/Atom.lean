import ContractMeter.Script.Character
import ContractMeter.Script.Pattern.Scan

/-!
# ContractMeter.Script.Pattern.Atom

The smallest parts of a regular expression:

* `Last` — what a quantifier behind a part would apply to.
* `escape` — a backslash with what belongs to it.
* `charClass` — the members of a class in brackets.
-/

namespace ContractMeter.Script.Pattern

/-- What has been read last, as a quantifier sees it. -/
inductive Last where
  | nothing
  | anchor
  | item
  | repeated
deriving DecidableEq

/-! ## Codes -/

/-- A character by the letter of its escape, given its code. -/
def letterCode? : Char → Option Nat
  | 'a' => some 0x07
  | 'f' => some 0x0C
  | 'n' => some 0x0A
  | 'r' => some 0x0D
  | 't' => some 0x09
  | 'v' => some 0x0B
  | '\\' => some 0x5C
  | _ => none

/-- The letters of the classes that an escape can stand for. -/
def isCategory (c : Char) : Bool := "dDsSwW".toList.contains c

/-- A code of exactly so many hexadecimal digits. -/
def hexCode (count : Nat) : Check Nat := do
  let digits ← takeUpTo count isHexDigit
  need (digits.length = count)
  return digitsValue 16 digits

/-- A code behind the letter that tells how many hexadecimal digits it has; none for any other
letter. -/
def hexEscape (letter : Char) : Check (Option Nat) := do
  match letter with
  | 'x' => return some (← hexCode 2)
  | 'u' => return some (← hexCode 4)
  | 'U' =>
    let code ← hexCode 8
    need (code ≤ 0x10FFFF)
    return some code
  | _ => return none

/-- The greatest code that octal digits may give. -/
def octalLimit : Nat := 0o377

/-! ## Outside a class -/

/-- An escape that begins with a digit other than zero: three octal digits are a code, and
otherwise one or two digits are the number of a group. -/
def numericEscape (first : Char) : Check Width := do
  let digits ← takeUpTo 1 Char.isDigit
  let octal := isOctalDigit first && !digits.isEmpty && digits.all isOctalDigit
  let third ← if octal then takeUpTo 1 isOctalDigit else pure []
  if third.isEmpty then groupWidth (digitsValue 10 (first :: digits))
  else
    need (digitsValue 8 (first :: digits ++ third) ≤ octalLimit)
    return .exactly 1

/-- An escape outside a class. Letters without a meaning are refused. -/
def escape (point : TextPoint) : Check (Last × Width) := do
  match point with
  | .surrogate _ => return (.item, .exactly 1)
  | .scalar c =>
    if ['A', 'b', 'B', 'Z'].contains c then return (.anchor, .exactly 0)
    else if isCategory c || (letterCode? c).isSome then return (.item, .exactly 1)
    else if (← hexEscape c).isSome then return (.item, .exactly 1)
    else if c = '0' then
      let _ ← takeUpTo 2 isOctalDigit
      return (.item, .exactly 1)
    else if c.isDigit then return (.item, ← numericEscape c)
    else
      need !c.isAlpha
      return (.item, .exactly 1)

/-! ## Classes -/

/-- The code of an escape in a class; none if it stands for a class itself. -/
def memberEscape (point : TextPoint) : Check (Option Nat) := do
  match point with
  | .surrogate _ => return some point.code
  | .scalar c =>
    if isCategory c then return none
    else if c = 'b' then return some 0x08
    else if let some code := letterCode? c then return some code
    else if let some code ← hexEscape c then return some code
    else if isOctalDigit c then
      let digits ← takeUpTo 2 isOctalDigit
      let code := digitsValue 8 (c :: digits)
      need (code ≤ octalLimit)
      return some code
    else
      need !(c.isAlpha || c.isDigit)
      return some c.toNat

/-- The code of a member of a class. -/
def memberCode : Piece → Check (Option Nat)
  | .escaped point => memberEscape point
  | .plain point => return some point.code

/-- The members of a class behind the given one, up to the closing bracket. The ends of a range
are characters in order; a hyphen before the bracket is a member. -/
def members : Nat → Piece → Check Unit
  | 0, _ => refuse
  | fuel + 1, piece => do
    let low ← memberCode piece
    if ← takeIf '-' then
      let bound ← next
      if bound.char? = some ']' then return ()
      let high ← memberCode bound
      match low, high with
      | some a, some b => need (a ≤ b)
      | _, _ => refuse
    let following ← next
    if following.char? = some ']' then return () else members fuel following

/-- A class behind its opening bracket, with so many members at most. A closing bracket that comes
first is a member. -/
def charClass (most : Nat) : Check Unit := do
  let _ ← takeIf '^'
  let first ← next
  members most first

end ContractMeter.Script.Pattern
