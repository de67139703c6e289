import ContractMeter.Script.Complaint

/-!
# ContractMeter.Script.Token

Tokens of a script:

* `Token` — its kind, its text, the value of a literal, where it stands.
* `isKeyword`, `isFutureReserved`, `isStrictReserved`, `isRestricted` — classes of words.
-/

namespace ContractMeter.Script

inductive TokenKind where
  | endOfFile
  | identifier
  | keyword
  | nullLiteral
  | booleanLiteral
  | numericLiteral
  | stringLiteral
  | template
  | punctuator
  | regularExpression
deriving DecidableEq

structure Token where
  kind : TokenKind
  /-- What the token says: a word, a punctuator, the raw text of a template, the pattern of a
  regular expression. -/
  text : String
  /-- The name of an identifier, the value of a literal, the cooked text of a template. -/
  value : Value := .null
  /-- The characters of the script. -/
  raw : String := ""
  /-- Whether a literal is written with octal digits in the old way. -/
  octal : Bool := false
  /-- Whether a template chunk begins, and whether it ends, its template. -/
  head : Bool := false
  tail : Bool := false
  /-- The flags of a regular expression. -/
  flags : String := ""
  /-- The line of the token; the last one of a text that spans lines. -/
  line : Nat
  lineStart : Nat
  start : Nat
  stop : Nat

namespace Token

/-- A token between two places. -/
def between (first last : Cursor) (kind : TokenKind) (text : String) : Token :=
  { kind, text, raw := first.textTo last, line := last.line, lineStart := last.lineStart,
    start := first.index, stop := last.index }

def isPunctuator (t : Token) (s : String) : Bool := t.kind = .punctuator && t.text = s

def isKeyword (t : Token) (s : String) : Bool := t.kind = .keyword && t.text = s

/-- A word that is a keyword only where it stands. -/
def isContextual (t : Token) (s : String) : Bool := t.kind = .identifier && t.text = s

def isAny (t : Token) (ss : List String) : Bool := t.kind = .punctuator && ss.contains t.text

/-- Whether a token may name a property. -/
def isName (t : Token) : Bool :=
  match t.kind with
  | .identifier => true
  | .keyword => true
  | .booleanLiteral => true
  | .nullLiteral => true
  | _ => false

/-- Whether a token may begin the key of a property. -/
def beginsKey (t : Token) : Bool :=
  t.isName || t.kind = .stringLiteral || t.kind = .numericLiteral || t.isPunctuator "["

end Token

def openBrace : String := "\x7b"

def closeBrace : String := "\x7d"

def keywords : List String :=
  ["if", "in", "do", "var", "for", "new", "try", "let", "this", "else", "case", "void", "with",
    "enum", "while", "break", "catch", "throw", "const", "yield", "class", "super", "return",
    "typeof", "delete", "switch", "export", "import", "default", "finally", "extends", "function",
    "continue", "debugger", "instanceof"]

def isKeyword (word : String) : Bool := keywords.contains word

/-- Words that no script may use. -/
def isFutureReserved (word : String) : Bool :=
  ["enum", "export", "import", "super"].contains word

/-- Words that strict code may not use. -/
def isStrictReserved (word : String) : Bool :=
  ["implements", "interface", "package", "private", "protected", "public", "static", "yield",
    "let"].contains word

/-- Names that strict code may not bind. -/
def isRestricted (word : String) : Bool := word = "eval" || word = "arguments"

end ContractMeter.Script
