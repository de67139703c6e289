import ContractMeter.Number.Decimal
import ContractMeter.Script.Pattern
import ContractMeter.Script.Token

/-!
# ContractMeter.Script.Lexer

Tokens from characters:

* `skipComments` — the place behind blanks and comments.
* `lex` — the next token and the place behind it.
* `lexPattern` — a regular expression, where the grammar allows one.

A closing brace continues a template if the innermost open brace was a template's, so the lexer
keeps the braces that are open.
-/

namespace ContractMeter.Script

/-! ## Comments -/

/-- The place behind the rest of a line and its terminator. -/
def skipLine (c : Cursor) : Cursor :=
  let stop := (c.span fun ch => !isLineTerminator ch).2
  if stop.atEnd then stop else stop.newline

/-- The place behind a comment in stars; it must be closed. -/
def skipBlockComment (c : Cursor) : Except Failure Cursor :=
  c.loop (fun c =>
    if c.atEnd then c.illegal
    else if isLineTerminator c.peek then .ok (.inl c.newline)
    else if c.peek = '*' ∧ c.peekAt 1 = '/' then .ok (.inr (c.advance 2))
    else .ok (.inl c.next)) c

/-- The place behind blanks and comments. An arrow of two dashes is a comment where only blanks
and comments stand before it on its line. -/
def skipComments (c : Cursor) : Except Failure Cursor :=
  c.loop (fun (c, fresh) =>
    if c.atEnd then .ok (.inr c)
    else if isScriptSpace c.peek then .ok (.inl (c.next, fresh))
    else if isLineTerminator c.peek then .ok (.inl (c.newline, true))
    else
      match c.peek, c.peekAt 1, c.peekAt 2, c.peekAt 3 with
      | '/', '/', _, _ => .ok (.inl (skipLine (c.advance 2), true))
      | '/', '*', _, _ =>
        match skipBlockComment (c.advance 2) with
        | .error failure => .error failure
        | .ok c => .ok (.inl (c, fresh))
      | '-', '-', '>', _ =>
        if fresh then .ok (.inl (skipLine (c.advance 3), fresh)) else .ok (.inr c)
      | '<', '!', '-', '-' => .ok (.inl (skipLine (c.advance 4), fresh))
      | _, _, _, _ => .ok (.inr c)) (c, c.index == 0)

/-! ## Escapes -/

/-- Hexadecimal digits, exactly so many; without them, the place where they end. -/
def scanHexDigits (count : Nat) (c : Cursor) : Option Nat × Cursor :=
  let run := (c.rest.take count).takeWhile isHexDigit
  (if run.length = count then some (digitsValue 16 run) else none, c.advance run.length)

/-- A code point in braces, behind the opening one. -/
def scanCodePoint (c : Cursor) : Except Failure (Nat × Cursor) :=
  if c.peek = '}' then c.illegal
  else
    let (run, stop) := c.span isHexDigit
    let code := digitsValue 16 run
    if stop.atEnd then stop.illegal
    else if stop.peek = '}' ∧ code ≤ 0x10FFFF then .ok (code, stop.next)
    else stop.next.illegal

/-- A letter of an identifier written as an escape, behind the backslash; in braces any code
point will do. -/
def scanEscapedLetter (allowed : Char → Bool) (c : Cursor) : Except Failure (TextPoint × Cursor) :=
  if c.peek ≠ 'u' then c.illegal
  else if c.peekAt 1 = '{' then
    match scanCodePoint (c.advance 2) with
    | .error failure => .error failure
    | .ok (code, stop) => .ok (.ofCode code, stop)
  else
    let (code, stop) := scanHexDigits 4 c.next
    match code.map TextPoint.ofCode with
    | some (.scalar ch) =>
      if ch ≠ '\\' ∧ allowed ch then .ok (.scalar ch, stop) else stop.illegal
    | _ => stop.illegal

/-- An octal escape, behind its first digit: its code, and whether it is more than a zero. -/
def scanOctalEscape (first : Char) (c : Cursor) : Nat × Bool × Cursor :=
  let digit (ch : Char) : Nat := ch.toNat - '0'.toNat
  if isOctalDigit c.peek then
    let code := 8 * digit first + digit c.peek
    if first ≤ '3' ∧ isOctalDigit (c.peekAt 1) then
      (8 * code + digit (c.peekAt 1), true, c.advance 2)
    else (code, true, c.next)
  else (digit first, first ≠ '0', c)

/-! ## Words -/

/-- The points of an identifier with escapes in it. -/
def scanEscapedName (c : Cursor) : Except Failure (List TextPoint × Cursor) :=
  let letters (c : Cursor) (points : List TextPoint) :=
    c.loop (fun (c, points) =>
      if c.atEnd || !isIdentifierPart c.peek then .ok (.inr (points.reverse, c))
      else if c.peek = '\\' then
        match scanEscapedLetter isIdentifierPart c.next with
        | .error failure => .error failure
        | .ok (point, c) => .ok (.inl (c, point :: points))
      else .ok (.inl (c.next, TextPoint.scalar c.peek :: points))) (c, points)
  if c.peek = '\\' then
    match scanEscapedLetter isIdentifierStart c.next with
    | .error failure => .error failure
    | .ok (point, stop) => letters stop [point]
  else letters c.next [.scalar c.peek]

/-- The points of a word. -/
def scanName (c : Cursor) : Except Failure (List TextPoint × Cursor) :=
  let (run, stop) := c.span isIdentifierPart
  if run.contains '\\' then scanEscapedName c else .ok (run.map .scalar, stop)

/-- The kind of a word; a single letter is always an identifier. -/
def wordKind (word : String) : TokenKind :=
  if word.length = 1 then .identifier
  else if isKeyword word then .keyword
  else if word = "null" then .nullLiteral
  else if word = "true" ∨ word = "false" then .booleanLiteral
  else .identifier

/-- A word. What is no identifier must be written without escapes. -/
def lexWord (c : Cursor) : Except Failure (Token × Cursor) :=
  match scanName c with
  | .error failure => .error failure
  | .ok (points, stop) =>
    let word := TextPoint.text points
    let kind := wordKind word
    if kind ≠ .identifier ∧ c.index + points.length ≠ stop.index then
      c.complain .escapedKeyword
    else
      .ok ({ Token.between c stop kind word with value := .ofPoints points }, stop)

/-! ## Punctuators -/

def longPunctuators : List String :=
  [">>>=", "===", "!==", ">>>", "<<=", ">>=", "**=", "&&", "||", "==", "!=", "+=", "-=", "*=",
    "/=", "++", "--", "<<", ">>", "&=", "|=", "^=", "%=", "<=", ">=", "=>", "**", "..."]

def shortPunctuators : List Char :=
  ['(', ')', ';', ',', '[', ']', ':', '?', '~', '.', '<', '>', '=', '!', '+', '-', '*', '%', '&',
    '|', '^', '/', '{', '}']

/-- The longest punctuator at a place. -/
def punctuatorAt? (c : Cursor) : Option String :=
  match longPunctuators.find? fun s => s.toList.isPrefixOf c.rest with
  | some s => some s
  | none => if shortPunctuators.contains c.peek then some (String.singleton c.peek) else none

/-- The open braces; those of a template are true. -/
abbrev Braces := List Bool

def lexPunctuator (c : Cursor) (braces : Braces) : Except Failure (Token × Cursor × Braces) :=
  match punctuatorAt? c with
  | none => c.illegal
  | some s =>
    let stop := c.advance s.length
    let braces :=
      if s = openBrace then false :: braces
      else if s = closeBrace then braces.drop 1
      else braces
    .ok (Token.between c stop .punctuator s, stop, braces)

/-! ## Numbers -/

/-- A number behind its last digit, where no word may begin. -/
def endNumber (first stop : Cursor) (value : Value) (octal : Bool) :
    Except Failure (Token × Cursor) :=
  if isIdentifierStart stop.peek then stop.illegal
  else
    let token := Token.between first stop .numericLiteral (first.textTo stop)
    .ok ({ token with value, octal }, stop)

/-- An integer with a base mark, behind the mark. No decimal digit may follow it. -/
def lexBased (first digitsAt : Cursor) (base : Nat) (isDigit : Char → Bool) (octal : Bool) :
    Except Failure (Token × Cursor) :=
  let (digits, stop) := digitsAt.span isDigit
  if digits.isEmpty || stop.peek.isDigit then stop.illegal
  else endNumber first stop (.int (digitsValue base digits)) octal

/-- Whether a zero begins an octal number: its digits hold no eight and no nine. -/
def isOldOctal (c : Cursor) : Bool :=
  match (c.rest.drop 1).dropWhile isOctalDigit with
  | '8' :: _ => false
  | '9' :: _ => false
  | _ => true

/-- The exponent part at a place, if one is there. -/
def scanExponent (c : Cursor) : Except Failure Cursor :=
  if c.peek = 'e' ∨ c.peek = 'E' then
    let digitsAt := if c.peekAt 1 = '+' ∨ c.peekAt 1 = '-' then c.advance 2 else c.next
    let (digits, stop) := digitsAt.span Char.isDigit
    if digits.isEmpty then stop.illegal else .ok stop
  else .ok c

/-- The value of a decimal numeral: an integer if the nearest floating-point number is one. -/
def decimalValue (text : String) : Value :=
  match readBinary64? text with
  | none => .null
  | some x =>
    match x.integer? with
    | some n => .int n
    | none => .float x

def lexDecimal (c : Cursor) : Except Failure (Token × Cursor) :=
  let whole := (c.span Char.isDigit).2
  let places := if whole.peek = '.' then (whole.next.span Char.isDigit).2 else whole
  match scanExponent places with
  | .error failure => .error failure
  | .ok stop => endNumber c stop (decimalValue (c.textTo stop)) false

def lexNumber (c : Cursor) : Except Failure (Token × Cursor) :=
  if c.peek = '0' then
    match c.peekAt 1 with
    | 'x' => lexBased c (c.advance 2) 16 isHexDigit false
    | 'X' => lexBased c (c.advance 2) 16 isHexDigit false
    | 'b' => lexBased c (c.advance 2) 2 (fun ch => ch = '0' || ch = '1') false
    | 'B' => lexBased c (c.advance 2) 2 (fun ch => ch = '0' || ch = '1') false
    | 'o' => lexBased c (c.advance 2) 8 isOctalDigit false
    | 'O' => lexBased c (c.advance 2) 8 isOctalDigit false
    | ch =>
      if isOctalDigit ch ∧ isOldOctal c then lexBased c c.next 8 isOctalDigit true
      else lexDecimal c
  else lexDecimal c

/-! ## Texts -/

/-- The character that a letter stands for behind a backslash. -/
def simpleEscape? : Char → Option Char
  | 'n' => some '\n'
  | 'r' => some '\r'
  | 't' => some '\t'
  | 'b' => some '\x08'
  | 'f' => some '\x0c'
  | 'v' => some '\x0b'
  | _ => none

/-- A text being read: the place reached, its points in reverse, whether it has an octal escape. -/
structure TextState where
  cursor : Cursor
  points : List TextPoint
  octal : Bool

def TextState.push (s : TextState) (c : Cursor) (point : TextPoint) : TextState :=
  { s with cursor := c, points := point :: s.points }

/-- An escape in a string, at the character behind the backslash. -/
def scanStringEscape (s : TextState) (c : Cursor) : Except Failure TextState :=
  let ch := c.peek
  if isLineTerminator ch then .ok { s with cursor := c.newline }
  else
    match simpleEscape? ch with
    | some meant => .ok (s.push c.next (.scalar meant))
    | none =>
      if ch = 'u' then
        if c.peekAt 1 = '{' then
          match scanCodePoint (c.advance 2) with
          | .error failure => .error failure
          | .ok (code, stop) => .ok (s.push stop (.ofCode code))
        else
          match scanHexDigits 4 c.next with
          | (some code, stop) => .ok (s.push stop (.ofCode code))
          | (none, stop) => stop.illegal
      else if ch = 'x' then
        match scanHexDigits 2 c.next with
        | (some code, stop) => .ok (s.push stop (.ofCode code))
        | (none, stop) => stop.complain .hexEscape
      else if ch = '8' ∨ ch = '9' then c.next.illegal
      else if isOctalDigit ch then
        let (code, octal, stop) := scanOctalEscape ch c.next
        .ok { s.push stop (.ofCode code) with octal := octal || s.octal }
      else .ok (s.push c.next (.scalar ch))

def lexString (c : Cursor) : Except Failure (Token × Cursor) :=
  let quote := c.peek
  let read := c.loop (fun (s : TextState) =>
    let c := s.cursor
    if c.atEnd then .ok (.inr (false, s))
    else if c.peek = quote then .ok (.inr (true, { s with cursor := c.next }))
    else if c.peek = '\\' then
      match scanStringEscape s c.next with
      | .error failure => .error failure
      | .ok s => .ok (.inl s)
    else if isLineTerminator c.peek then .ok (.inr (false, s))
    else .ok (.inl (s.push c.next (.scalar c.peek)))) ⟨c.next, [], false⟩
  match read with
  | .error failure => .error failure
  | .ok (closed, s) =>
    if closed then
      let points := s.points.reverse
      .ok ({ Token.between c s.cursor .stringLiteral (TextPoint.text points) with
        value := .ofPoints points, octal := s.octal }, s.cursor)
    else (s.cursor.backTo c).illegal

/-- An escape in a template, at the character behind the backslash. A Unicode escape that is not
complete stands for its letter. -/
def scanTemplateEscape (s : TextState) (c : Cursor) : Except Failure TextState :=
  let ch := c.peek
  if isLineTerminator ch then .ok { s with cursor := c.newline }
  else
    match simpleEscape? ch with
    | some meant => .ok (s.push c.next (.scalar meant))
    | none =>
      if ch = 'u' then
        if c.peekAt 1 = '{' then
          match scanCodePoint (c.advance 2) with
          | .error failure => .error failure
          | .ok (code, stop) => .ok (s.push stop (.ofCode code))
        else
          match scanHexDigits 4 c.next with
          | (some code, stop) => .ok (s.push stop (.ofCode code))
          | (none, _) => .ok (s.push c.next (.scalar ch))
      else if ch = 'x' then
        match scanHexDigits 2 c.next with
        | (some code, stop) => .ok (s.push stop (.ofCode code))
        | (none, stop) => stop.complain .hexEscape
      else if ch = '0' then
        if c.next.peek.isDigit then c.next.complain .templateOctal
        else .ok (s.push c.next (.scalar '\x00'))
      else if isOctalDigit ch then c.next.complain .templateOctal
      else .ok (s.push c.next (.scalar ch))

/-- How a chunk of a template ends. -/
inductive ChunkEnd where
  | template
  | expression
deriving DecidableEq

/-- A chunk of a template, from its opening mark to the next expression or the end. -/
def lexTemplate (c : Cursor) (braces : Braces) : Except Failure (Token × Cursor × Braces) :=
  let head := c.peek == '`'
  let read := c.loop (fun (s : TextState) =>
    let c := s.cursor
    if c.atEnd then c.illegal
    else if c.peek = '`' then .ok (.inr (ChunkEnd.template, { s with cursor := c.next }))
    else if c.peek = '$' ∧ c.peekAt 1 = '{' then
      .ok (.inr (ChunkEnd.expression, { s with cursor := c.advance 2 }))
    else if c.peek = '\\' then
      match scanTemplateEscape s c.next with
      | .error failure => .error failure
      | .ok s => .ok (.inl s)
    else if isLineTerminator c.peek then .ok (.inl (s.push c.newline (.scalar '\n')))
    else .ok (.inl (s.push c.next (.scalar c.peek)))) ⟨c.next, [], false⟩
  match read with
  | .error failure => .error failure
  | .ok (chunk, s) =>
    let tail := chunk = .template
    let mark := if tail then 1 else 2
    let text := c.next.textTo { s.cursor with index := s.cursor.index - mark }
    let opened := if tail then braces else true :: braces
    let token := Token.between c s.cursor .template text
    .ok ({ token with value := .ofPoints s.points.reverse, head, tail }, s.cursor,
      if head then opened else opened.drop 1)

/-! ## Regular expressions -/

/-- The place of the slash that ends a pattern; inside a class a slash is plain. -/
def patternEnd (c : Cursor) : Except Failure Cursor :=
  c.loop (fun (c, inClass) =>
    if c.atEnd then c.complain .unterminatedPattern
    else if isLineTerminator c.peek then c.next.complain .unterminatedPattern
    else if c.peek = '\\' then
      if isLineTerminator (c.peekAt 1) then (c.advance 2).complain .unterminatedPattern
      else .ok (.inl (c.advance 2, inClass))
    else if inClass then .ok (.inl (c.next, c.peek ≠ ']'))
    else if c.peek = '/' then .ok (.inr c)
    else .ok (.inl (c.next, c.peek = '['))) (c, false)

/-- The flags of a pattern; an escape among them is not accepted. -/
def scanFlags (c : Cursor) : Except Failure (String × Cursor) :=
  let (run, stop) := c.span isIdentifierPart
  match run.findIdx? (· = '\\') with
  | none => .ok (String.ofList run, stop)
  | some i =>
    let behind := c.advance (i + 1)
    if behind.atEnd then .ok (String.ofList run, stop)
    else if behind.peek = 'u' then
      match scanHexDigits 4 behind.next with
      | (some _, stop) => stop.illegal
      | (none, _) => behind.next.illegal
    else behind.illegal

def lexPattern (c : Cursor) : Except Failure (Token × Cursor) :=
  match patternEnd c.next with
  | .error failure => .error failure
  | .ok slash =>
    match scanFlags slash.next with
    | .error failure => .error failure
    | .ok (flags, stop) =>
      let pattern := c.next.textTo slash
      match compilePattern? pattern flags with
      | none => stop.complain .invalidPattern
      | some value =>
        .ok ({ Token.between c stop .regularExpression pattern with value, flags }, stop)

/-! ## Any token -/

def withBraces (braces : Braces) :
    Except Failure (Token × Cursor) → Except Failure (Token × Cursor × Braces)
  | .error failure => .error failure
  | .ok (token, stop) => .ok (token, stop, braces)

/-- The next token, at a place without blanks. -/
def lex (c : Cursor) (braces : Braces) : Except Failure (Token × Cursor × Braces) :=
  if c.atEnd then .ok (Token.between c c .endOfFile "", c, braces)
  else if isIdentifierStart c.peek then withBraces braces (lexWord c)
  else if c.peek = '\'' ∨ c.peek = '"' then withBraces braces (lexString c)
  else if c.peek.isDigit ∨ (c.peek = '.' ∧ (c.peekAt 1).isDigit) then
    withBraces braces (lexNumber c)
  else if c.peek = '`' ∨ (c.peek = '}' ∧ braces.head? = some true) then lexTemplate c braces
  else lexPunctuator c braces

end ContractMeter.Script
