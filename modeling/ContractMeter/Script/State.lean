import ContractMeter.Script.Lexer

/-!
# ContractMeter.Script.State

The state a grammar works on:

* `Context` — what surrounding code allows.
* `State` — the token ahead, where it and the last token stand, the context.
* `Grammar` — a computation on the state that may reject the script.
* `take`, `expect`, `consumeSemicolon` — moving over tokens.
* `unexpected`, `complain`, `complainAhead` — the rejections, which differ in the place they name.

The token ahead is read as soon as the one before it is taken, under the rules in force then.
-/

namespace ContractMeter.Script

/-- What the code around a place allows, and what is known about the expression just read. -/
structure Context where
  /-- Whether `in` is an operator here. -/
  allowIn : Bool := true
  allowStrictDirective : Bool := true
  allowYield : Bool := true
  inAsync : Bool := false
  /-- Whether the expression just read can be assigned to. -/
  isTarget : Bool := false
  /-- Whether the expression just read can be read as a binding pattern. -/
  isBinding : Bool := false
  inFunction : Bool := false
  inIteration : Bool := false
  inSwitch : Bool := false
  labels : List (List TextPoint) := []
  strict : Bool := false
  /-- The equals sign of a property that only a pattern can hold. -/
  patternOnly : Option Token := none

structure State where
  /-- Whether nodes get their locations. -/
  locate : Bool
  /-- The place behind the token ahead. -/
  cursor : Cursor
  braces : Braces
  ahead : Token
  /-- The place of the token ahead. -/
  aheadAt : Cursor
  /-- The start of the token ahead and the end of the last token taken. -/
  startMark : Mark
  lastMark : Mark
  /-- Whether a line ends between the last token taken and the token ahead. -/
  newlineAhead : Bool
  context : Context

abbrev Grammar := StateT State (Except Failure)

/-! ## Rejections -/

/-- A rejection at the end of the last token. -/
def complain {α : Type} (complaint : Complaint) : Grammar α := do
  let s ← get
  throw (rejectAt s.lastMark.line (s.lastMark.column + 1) complaint.text)

/-- A rejection at the end of the last token, on the line that has been read up to. -/
def complainAhead {α : Type} (complaint : Complaint) : Grammar α := do
  let s ← get
  throw (rejectAt s.cursor.line (s.lastMark.column + 1) complaint.text)

/-- What is wrong with a token that is not expected. -/
def unexpectedComplaint (strict : Bool) (token : Token) : Complaint :=
  match token.kind with
  | .endOfFile => .unexpectedEnd
  | .identifier => .unexpectedIdentifier
  | .numericLiteral => .unexpectedNumber
  | .stringLiteral => .unexpectedString
  | .template => .unexpectedTemplate token.text
  | .keyword =>
    if isFutureReserved token.text then .unexpectedReserved
    else if strict && isStrictReserved token.text then .strictReserved
    else .unexpectedToken token.text
  | .regularExpression => .unexpectedToken ""
  | _ => .unexpectedToken token.text

/-- A rejection of a token. Its column counts from the start of the line that the last token
ended on. -/
def rejectToken {α : Type} (token : Token) (complaint : Complaint) : Grammar α := do
  let s ← get
  let lineStart : Int := s.lastMark.index - s.lastMark.column
  throw (rejectAt token.line (token.start - lineStart + 1) complaint.text)

/-- A rejection of a token that is not expected. -/
def unexpected {α : Type} (token : Token) : Grammar α := do
  let s ← get
  rejectToken token (unexpectedComplaint s.context.strict token)

def tooNested {α : Type} : Grammar α := throw (.rejected (.tooDeep none))

/-! ## Tokens -/

/-- A word reserved in strict code is a keyword there. -/
def underContext (context : Context) (token : Token) : Token :=
  if context.strict && token.kind = .identifier && isStrictReserved token.text then
    { token with kind := .keyword }
  else token

/-- Reads the token behind the one ahead. -/
def readAhead : Grammar Unit := do
  let s ← get
  let place ← skipComments s.cursor
  let (next, cursor, braces) ← lex place s.braces
  set { s with
    cursor, braces
    ahead := underContext s.context next
    aheadAt := place
    startMark := place.mark
    lastMark := s.cursor.mark
    newlineAhead := s.ahead.line ≠ next.line }

/-- Takes the token ahead. -/
def take : Grammar Token := do
  let s ← get
  readAhead
  return s.ahead

/-- Reads the token ahead again as a regular expression, and takes it. -/
def takePattern : Grammar Token := do
  let s ← get
  let (token, cursor) ← lexPattern (s.cursor.backTo s.aheadAt)
  set { s with cursor, ahead := token }
  readAhead
  return token

/-- The kind and text of the token behind the one ahead, which stays where it is. Braces that
were seen stay seen. -/
def peekBehind : Grammar Token := do
  let s ← get
  let place ← skipComments s.cursor
  let (next, _, braces) ← lex place s.braces
  set { s with braces }
  return next

def ahead : Grammar Token := return (← get).ahead

def isAhead (s : String) : Grammar Bool := return (← get).ahead.isPunctuator s

def isKeywordAhead (s : String) : Grammar Bool := return (← get).ahead.isKeyword s

def isContextualAhead (s : String) : Grammar Bool := return (← get).ahead.isContextual s

def isEndAhead : Grammar Bool := return (← get).ahead.kind = .endOfFile

def expect (s : String) : Grammar Unit := do
  let token ← take
  if token.isPunctuator s then return () else unexpected token

def expectKeyword (s : String) : Grammar Unit := do
  let token ← take
  if token.isKeyword s then return () else unexpected token

/-- Takes a punctuator if it is ahead. -/
def takeIf (s : String) : Grammar Bool := do
  if ← isAhead s then
    let _ ← take
    return true
  else return false

/-- Takes a keyword if it is ahead. -/
def takeKeywordIf (s : String) : Grammar Bool := do
  if ← isKeywordAhead s then
    let _ ← take
    return true
  else return false

/-- Ends a statement: at a semicolon, at the end of a line, before a closing brace or at the end.
A statement that ends without a semicolon reaches up to what follows it. -/
def consumeSemicolon : Grammar Unit := do
  let s ← get
  if s.ahead.isPunctuator ";" then
    let _ ← take
  else if !s.newlineAhead then
    if s.ahead.kind = .endOfFile || s.ahead.isPunctuator closeBrace then
      set { s with lastMark := s.startMark }
    else unexpected s.ahead

/-! ## Context -/

def context : Grammar Context := return (← get).context

def modifyContext (f : Context → Context) : Grammar Unit :=
  modify fun s => { s with context := f s.context }

/-- What has been read is no target and no pattern. -/
def plainValue : Grammar Unit :=
  modifyContext fun c => { c with isTarget := false, isBinding := false }

/-- Reads a part that stands on its own: whether it is a target or a pattern does not matter to
what surrounds it, and what only a pattern can hold is not accepted. -/
def isolated {α : Type} (part : Grammar α) : Grammar α := do
  let before ← context
  modifyContext fun c => { c with isBinding := true, isTarget := true, patternOnly := none }
  let result ← part
  match (← context).patternOnly with
  | some token => unexpected token
  | none => pure ()
  modifyContext fun c => { c with
    isBinding := before.isBinding, isTarget := before.isTarget
    patternOnly := before.patternOnly }
  return result

/-- Reads a part that the surrounding expression takes over: the whole is a target or a pattern
only if the part is one. -/
def inherited {α : Type} (part : Grammar α) : Grammar α := do
  let before ← context
  modifyContext fun c => { c with isBinding := true, isTarget := true, patternOnly := none }
  let result ← part
  modifyContext fun c => { c with
    isBinding := c.isBinding && before.isBinding
    isTarget := c.isTarget && before.isTarget
    patternOnly := before.patternOnly <|> c.patternOnly }
  return result

/-- Reads a part where `in` is an operator or is not. -/
def withIn {α : Type} (allowIn : Bool) (part : Grammar α) : Grammar α := do
  let before ← context
  modifyContext fun c => { c with allowIn }
  let result ← part
  modifyContext fun c => { c with allowIn := before.allowIn }
  return result

/-- Reads a part where `yield` is a name or is not. -/
def withYield {α : Type} (allowYield : Bool) (part : Grammar α) : Grammar α := do
  let before ← context
  modifyContext fun c => { c with allowYield }
  let result ← part
  modifyContext fun c => { c with allowYield := before.allowYield }
  return result

/-! ## Loops -/

/-- Repeats a step while it says so. -/
def iterate {σ : Type} (step : σ → Grammar (σ × Bool)) : Nat → σ → Grammar σ
  | 0, _ => tooNested
  | fuel + 1, state => do
    let (state, more) ← step state
    if more then iterate step fuel state else return state

/-- Repeats a step as often as there can be tokens. -/
def repeatWhile {σ : Type} (state : σ) (step : σ → Grammar (σ × Bool)) : Grammar σ := do
  let s ← get
  iterate step (s.cursor.size + 2) state

/-- The results of a part, as long as there is one. -/
def collect {α : Type} (part : Grammar (Option α)) : Grammar (List α) := do
  let found ← repeatWhile [] fun found => do
    match ← part with
    | some a => return (a :: found, true)
    | none => return (found, false)
  return found.reverse

end ContractMeter.Script
