import ContractMeter.Text.Point

/-!
# ContractMeter.Script.Pattern.Piece

The pieces that a regular expression is read by:

* `Piece` — a point, alone or behind a backslash.
* `pieces?` — the pieces of a pattern.
* `nameText?` — the text of pieces that are plain characters.
-/

namespace ContractMeter.Script.Pattern

/-- A point of a pattern, or a backslash with the point behind it. -/
inductive Piece where
  | plain (point : TextPoint)
  | escaped (point : TextPoint)
deriving DecidableEq

/-- The pieces of a pattern. A backslash may not be its last point. -/
def pieces? : List TextPoint → Option (List Piece)
  | [] => some []
  | [.scalar '\\'] => none
  | .scalar '\\' :: point :: rest => (pieces? rest).map (.escaped point :: ·)
  | point :: rest => (pieces? rest).map (.plain point :: ·)

/-- The character of a piece that stands alone. -/
def Piece.char? : Piece → Option Char
  | plain (.scalar c) => some c
  | _ => none

/-- The text of pieces that are characters without a backslash. -/
def nameText? (pieces : List Piece) : Option String :=
  (pieces.mapM Piece.char?).map String.ofList

end ContractMeter.Script.Pattern
