import ContractMeter.Script.Cursor

/-!
# ContractMeter.Script.Complaint

Why a script is not accepted, with the words of each complaint.
-/

namespace ContractMeter.Script

inductive Complaint where
  | defaultRest
  | duplicateBinding (name : String)
  | duplicateConstructor
  | duplicateProto
  | asyncConstructor
  | specialConstructor
  | staticPrototype
  | escapedKeyword
  | forLoopInitializer (loop : String)
  | generatorLabel
  | getterParameters
  | hexEscape
  | illegalBreak
  | illegalContinue
  | illegalDirective
  | illegalReturn
  | misplaced
  | assignmentTarget
  | forInTarget
  | forLoopTarget
  | letBinding
  | missingInitializer (kind : String)
  | multipleDefaults
  | newlineAfterThrow
  | noCatchOrFinally
  | restNotLast
  | redeclaredLabel (name : String)
  | invalidPattern
  | unterminatedPattern
  | setterParameters
  | setterRest
  | strictCatch
  | strictDelete
  | strictFunction
  | strictFunctionName
  | strictAssignment
  | strictPostfix
  | strictPrefix
  | strictWith
  | strictOctal
  | strictDuplicate
  | strictParameter
  | strictReserved
  | strictVariable
  | templateOctal
  | unexpectedEnd
  | unexpectedIdentifier
  | unexpectedNumber
  | unexpectedReserved
  | unexpectedString
  | unexpectedTemplate (text : String)
  | unexpectedToken (text : String)
  | unknownLabel (name : String)
deriving DecidableEq

def Complaint.text : Complaint → String
  | defaultRest => "Unexpected token ="
  | duplicateBinding name => s!"Duplicate binding {name}"
  | duplicateConstructor => "A class may only have one constructor"
  | duplicateProto => "Duplicate __proto__ fields are not allowed in object literals"
  | asyncConstructor => "Class constructor may not be an async method"
  | specialConstructor => "Class constructor may not be an accessor"
  | staticPrototype => "Classes may not have static property named prototype"
  | escapedKeyword => "Keyword must not contain escaped characters"
  | forLoopInitializer loop => s!"{loop} loop variable declaration may not have an initializer"
  | generatorLabel => "Generator declarations are not allowed in legacy contexts"
  | getterParameters => "Getter must not have any formal parameters"
  | hexEscape => "Invalid hexadecimal escape sequence"
  | illegalBreak => "Illegal break statement"
  | illegalContinue => "Illegal continue statement"
  | illegalDirective =>
    "Illegal 'use strict' directive in function with non-simple parameter list"
  | illegalReturn => "Illegal return statement"
  | misplaced => "Unexpected token"
  | assignmentTarget => "Invalid left-hand side in assignment"
  | forInTarget => "Invalid left-hand side in for-in"
  | forLoopTarget => "Invalid left-hand side in for-loop"
  | letBinding => "let is disallowed as a lexically bound name"
  | missingInitializer kind => s!"Missing initializer in {kind} declaration"
  | multipleDefaults => "More than one default clause in switch statement"
  | newlineAfterThrow => "Illegal newline after throw"
  | noCatchOrFinally => "Missing catch or finally after try"
  | restNotLast => "Rest parameter must be last formal parameter"
  | redeclaredLabel name => s!"Label '{name}' has already been declared"
  | invalidPattern => "Invalid regular expression"
  | unterminatedPattern => "Invalid regular expression: missing /"
  | setterParameters => "Setter must have exactly one formal parameter"
  | setterRest => "Setter function argument must not be a rest parameter"
  | strictCatch => "Catch variable may not be eval or arguments in strict mode"
  | strictDelete => "Delete of an unqualified identifier in strict mode."
  | strictFunction =>
    "In strict mode code, functions can only be declared at top level or inside a block"
  | strictFunctionName => "Function name may not be eval or arguments in strict mode"
  | strictAssignment => "Assignment to eval or arguments is not allowed in strict mode"
  | strictPostfix =>
    "Postfix increment/decrement may not have eval or arguments operand in strict mode"
  | strictPrefix =>
    "Prefix increment/decrement may not have eval or arguments operand in strict mode"
  | strictWith => "Strict mode code may not include a with statement"
  | strictOctal => "Octal literals are not allowed in strict mode."
  | strictDuplicate => "Strict mode function may not have duplicate parameter names"
  | strictParameter => "Parameter name eval or arguments is not allowed in strict mode"
  | strictReserved => "Use of future reserved word in strict mode"
  | strictVariable => "Variable name may not be eval or arguments in strict mode"
  | templateOctal => "Octal literals are not allowed in template strings."
  | unexpectedEnd => "Unexpected end of input"
  | unexpectedIdentifier => "Unexpected identifier"
  | unexpectedNumber => "Unexpected number"
  | unexpectedReserved => "Unexpected reserved word"
  | unexpectedString => "Unexpected string"
  | unexpectedTemplate text => s!"Unexpected quasi {text}"
  | unexpectedToken text => s!"Unexpected token {text}"
  | unknownLabel name => s!"Undefined label '{name}'"

/-- A complaint about the character at a place. -/
def Cursor.complain {α : Type} (c : Cursor) (complaint : Complaint) : Except Failure α :=
  c.error complaint.text

end ContractMeter.Script
