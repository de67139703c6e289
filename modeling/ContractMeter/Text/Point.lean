/-!
# ContractMeter.Text.Point

Strings a contract can denote. A script string is a sequence of 16-bit units, so an escape may
leave half of a surrogate pair that stands for no character:

* `TextPoint`  — a character, or one half of a surrogate pair.
* `TextPoint.chars?` — the characters of a sequence of points, if every point is one.
* `TextPoint.text` — a text that shows a sequence of points.
* `BrokenText` — a sequence that holds at least one half of a pair.
-/

namespace ContractMeter

/-- A character, or one half of a surrogate pair counted from U+D800. -/
inductive TextPoint where
  | scalar (c : Char)
  | surrogate (offset : Fin 2048)
deriving DecidableEq, Inhabited

namespace TextPoint

/-- The code of a point; characters and halves of pairs never share one. -/
def code : TextPoint → Nat
  | scalar c => c.toNat
  | surrogate offset => 0xD800 + offset.val

/-- The point with a given code; a code beyond U+10FFFF gives the NUL character. -/
def ofCode (code : Nat) : TextPoint :=
  if h : 0xD800 ≤ code ∧ code < 0xE000 then
    .surrogate ⟨code - 0xD800, by omega⟩
  else
    .scalar (Char.ofNat code)

def ofString (s : String) : List TextPoint :=
  s.toList.map .scalar

/-- The characters, if no point is half of a pair. -/
def chars? : List TextPoint → Option (List Char)
  | [] => some []
  | .scalar c :: rest => (chars? rest).map (c :: ·)
  | .surrogate _ :: _ => none

/-- A text for points, in which U+FFFD stands for half of a pair. -/
def text (points : List TextPoint) : String :=
  String.ofList (points.map fun
    | .scalar c => c
    | .surrogate _ => '\uFFFD')

theorem chars?_scalar (cs : List Char) : chars? (cs.map .scalar) = some cs := by
  induction cs with
  | nil => rfl
  | cons c rest ih => simp [chars?, ih]

end TextPoint

/-- A sequence of points with half of a surrogate pair in it: no character string has these
points, and no byte encoding exists. -/
structure BrokenText where
  points : List TextPoint
  broken : TextPoint.chars? points = none
deriving DecidableEq

end ContractMeter
