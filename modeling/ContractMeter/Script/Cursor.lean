import ContractMeter.Failure

/-!
# ContractMeter.Script.Cursor

A position in a script:

* `Cursor` — the characters left, with the index, line and start of line they stand at.
* `Cursor.advance`, `Cursor.newline` — moving on, over a line terminator or anything else.
* `Cursor.error` — the rejection of a script at a position.

Past the end stands the NUL character, which no token begins with. Reading it moves the index on
all the same, so a position may lie beyond the end.
-/

namespace ContractMeter.Script

/-- A place in a script. Lines count from one, columns and indices from zero. -/
structure Cursor where
  rest : List Char
  index : Nat
  line : Nat
  lineStart : Nat
  /-- The length of the whole script, which bounds every loop over it. -/
  size : Nat

/-- The place of a character, whose column may have been carried across lines. -/
structure Mark where
  index : Nat
  line : Int
  column : Int
deriving Inhabited

/-- Line feed, carriage return and the two Unicode separators end a line. -/
def isLineTerminator (c : Char) : Bool :=
  c = '\n' || c = '\r' || c = '\u2028' || c = '\u2029'

/-- The rejection of a script, with its line in the description too. -/
def rejectAt (line column : Int) (message : String) : Failure :=
  .rejected (.syntaxError s!"Line {line}: {message}" line column)

namespace Cursor

/-- The start of a script. An empty script has no line. -/
def start (source : String) : Cursor where
  rest := source.toList
  index := 0
  line := if source.isEmpty then 0 else 1
  lineStart := 0
  size := source.length

def atEnd (c : Cursor) : Bool := c.rest.isEmpty

/-- The next character. -/
def peek (c : Cursor) : Char := c.rest.headD '\x00'

/-- The character after so many others. -/
def peekAt (c : Cursor) (offset : Nat) : Char := (c.rest.drop offset).headD '\x00'

/-- The place so many characters further on the same line. -/
def advance (c : Cursor) (count : Nat) : Cursor :=
  { c with rest := c.rest.drop count, index := c.index + count }

def next (c : Cursor) : Cursor := c.advance 1

/-- The place behind a line terminator, which is one character or a carriage return with a line
feed. -/
def newline (c : Cursor) : Cursor :=
  let behind := if c.peek = '\r' ∧ c.peekAt 1 = '\n' then c.advance 2 else c.advance 1
  { behind with line := c.line + 1, lineStart := behind.index }

/-- The place so many characters back to `start`, keeping the line that was reached. -/
def backTo (c start : Cursor) : Cursor :=
  { c with rest := start.rest, index := start.index }

def column (c : Cursor) : Int := (c.index : Int) - c.lineStart

def mark (c : Cursor) : Mark := ⟨c.index, c.line, c.column⟩

/-- The characters from one place to a later one. -/
def textTo (c stop : Cursor) : String :=
  String.ofList (c.rest.take (stop.index - c.index))

/-- A rejection at a place; columns count from one here. -/
def error {α : Type} (c : Cursor) (message : String) : Except Failure α :=
  .error (rejectAt c.line (c.column + 1) message)

/-- A rejection of a character that begins or continues nothing. -/
def illegal {α : Type} (c : Cursor) : Except Failure α :=
  c.error "Unexpected token ILLEGAL"

/-- The leading characters that satisfy `p`, and the place behind them; none ends a line. -/
def span (c : Cursor) (p : Char → Bool) : List Char × Cursor :=
  let run := c.rest.takeWhile p
  (run, c.advance run.length)

/-- Repeats a step until it yields a result. A loop that moves on with every step ends within the
length of the script. -/
def repeatStep {σ ρ : Type} (step : σ → Except Failure (σ ⊕ ρ)) : Nat → σ → Except Failure ρ
  | 0, _ => .error (.rejected (.tooDeep none))
  | fuel + 1, state =>
    match step state with
    | .error failure => .error failure
    | .ok (.inl state) => repeatStep step fuel state
    | .ok (.inr result) => .ok result

/-- Repeats a step as often as a loop over the script can. -/
def loop {σ ρ : Type} (c : Cursor) (step : σ → Except Failure (σ ⊕ ρ)) (state : σ) :
    Except Failure ρ :=
  repeatStep step (c.size + 2) state

end Cursor

end ContractMeter.Script
