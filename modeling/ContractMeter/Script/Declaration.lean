import ContractMeter.Script.Assignment

/-!
# ContractMeter.Script.Declaration

Declared variables:

* `variableList` — what `var` declares.
* `bindings` — what `let` or `const` declares.
* `isLexicalAhead` — whether `let` is ahead as a declaration.
-/

namespace ContractMeter.Script

def declarationNode (kind : String) (declarations : List Value) : Value :=
  node "VariableDeclaration" [("declarations", .list declarations), ("kind", .text kind)]

def declarator (start : Mark) (target init : Value) : Grammar Value :=
  finish start (node "VariableDeclarator" [("id", target), ("init", init)])

/-- The target of a declaration. Strict code may not declare `eval` or `arguments`. -/
def declared (r : Rules) (kind : String) : Grammar Value := do
  let (target, _) ← pattern r kind
  if (← context).strict && isRestricted (nameOf target) then complainAhead .strictVariable
  return target

/-- The initial value of a variable, whose sign must follow. -/
def initializer (r : Rules) : Grammar Value := do
  expect "="
  isolated r.assignment

/-- One variable. In the head of a loop a pattern needs no initial value. -/
def variableOf (r : Rules) (inFor : Bool) : Grammar Value := do
  let start ← here
  let target ← declared r "var"
  let needed := !target.hasKind "Identifier" && !inFor
  let init ← if needed || (← isAhead "=") then initializer r else pure .null
  declarator start target init

def variableList (r : Rules) (inFor : Bool) : Grammar (List Value) :=
  separated (variableOf r inFor)

/-- One variable of a lexical declaration. A constant has an initial value unless a loop gives it
one. -/
def binding (r : Rules) (kind : String) (inFor : Bool) : Grammar Value := do
  let start ← here
  let target ← declared r kind
  let init ←
    if ← isAhead "=" then initializer r
    else if kind = "const" then
      if (← isKeywordAhead "in") || (← isContextualAhead "of") then pure .null
      else complain (.missingInitializer "const")
    else if !inFor && !target.hasKind "Identifier" then initializer r
    else pure .null
  declarator start target init

def bindings (r : Rules) (kind : String) (inFor : Bool) : Grammar (List Value) :=
  separated (binding r kind inFor)

def variableStatement (r : Rules) : Grammar Value := do
  let start ← here
  expectKeyword "var"
  let declarations ← variableList r false
  consumeSemicolon
  finish start (declarationNode "var" declarations)

def lexicalDeclaration (r : Rules) : Grammar Value := do
  let start ← here
  let kind := (← take).text
  let declarations ← bindings r kind false
  consumeSemicolon
  finish start (declarationNode kind declarations)

/-- Whether the word `let` that is ahead begins a declaration. -/
def isLexicalAhead : Grammar Bool := do
  let next ← peekBehind
  return next.kind = .identifier || next.isAny ["[", openBrace] ||
    next.isKeyword "let" || next.isKeyword "yield"

end ContractMeter.Script
