/-!
# ContractMeter.Text.Blank

Blank characters:

* `isBlank` — white space and the separators U+001C to U+001F, which may surround a setting.
* `trimBlank` — a text without the blanks around it.
-/

namespace ContractMeter.Text

/-- Unicode white space, without the information separators U+001C to U+001F. -/
def isSpace (c : Char) : Bool :=
  let n := c.toNat
  (9 ≤ n && n ≤ 13) || n == 0x20 || n == 0x85 || n == 0xA0 || n == 0x1680 ||
    (0x2000 ≤ n && n ≤ 0x200A) || n == 0x2028 || n == 0x2029 || n == 0x202F || n == 0x205F ||
    n == 0x3000

/-- White space or an information separator. -/
def isBlank (c : Char) : Bool :=
  isSpace c || (0x1C ≤ c.toNat && c.toNat ≤ 0x1F)

/-- The characters of a list without those at both ends that satisfy `p`. -/
def stripChars (p : Char → Bool) (cs : List Char) : List Char :=
  ((cs.dropWhile p).reverse.dropWhile p).reverse

/-- A text without the blanks around it. -/
def trimBlank (s : String) : String :=
  String.ofList (stripChars isBlank s.toList)

def isAllBlank (s : String) : Bool :=
  s.toList.all isBlank

end ContractMeter.Text
