import LineScript.Value.Basic

namespace LineScript

inductive SyntaxCause where
  | missingExpression
  | invalidNumber
  | invalidToken
  | missingFunctionName
  | badFunctionName (lexeme : Bytes)
  | abruptEnd
  | missingHandler
  | badHandler
  | unexpectedToken (lexeme : Bytes)
  | badVariableName (lexeme : Bytes)
  | badVariableType (lexeme : Bytes)
  | badAssignment
  | unclosed (closing opening : Bytes) (line : Int)
  /-- A cause that is known by its message only. -/
  | stated (text : Bytes)
  deriving DecidableEq, Repr, Inhabited

def SyntaxCause.message : SyntaxCause → Bytes
  | missingExpression => utf8 "Missing expression!"
  | invalidNumber => utf8 "Invalid numeric literal!"
  | invalidToken => utf8 "Invalid token in expression!"
  | missingFunctionName => utf8 "Function name is missing!"
  | badFunctionName lexeme => utf8 "\"" ++ lexeme ++ utf8 "\" is not a valid function name!"
  | abruptEnd => utf8 "Expression ended abruptly!"
  | missingHandler => utf8 "Missing handler after \"->\"!"
  | badHandler => utf8 "Expected a label or a function after \"->\"!"
  | unexpectedToken lexeme =>
      utf8 "Unexpected token \"" ++ lexeme ++ utf8 "\" after expression!"
  | badVariableName lexeme => utf8 "Variable name \"" ++ lexeme ++ utf8 "\" is invalid!"
  | badVariableType lexeme => utf8 "Variable type \"" ++ lexeme ++ utf8 "\" is invalid!"
  | badAssignment => utf8 "Invalid assignment!"
  | unclosed closing opening line =>
      utf8 "Nesting error, missing a closing " ++ Text.quote closing ++ utf8 " for " ++
        Text.quote opening ++ utf8 " opened at line " ++ Text.Decimal.ofInt line ++ utf8 "!"
  | stated text => text

inductive RuntimeCause where
  | divisionByZero
  | endOfInput
  | negative (z : Int)
  | conversion (v : Value) (kind : Kind)
  | wrongCount (expected given : Nat)
  | tooFewArguments (least : Int) (given : Nat)
  /-- The argument at a position, counted from one, fails for the given cause. -/
  | argument (position : Nat) (cause : RuntimeCause)
  | unsupportedArgument (kind : Kind) (position : Nat)
  /-- A text that is to be read as an integer or natural number and holds none. -/
  | notANumber (text : Bytes)
  | notNatural (text : Bytes)
  /-- A text that is to be read as a number of either variant and holds none. -/
  | notNumeric (text : Bytes)
  | exitOutOfRange (code : Int)
  | unknownFunction (name : Bytes)
  | undefinedVariable (name : Bytes)
  | redefinedVariable (name : Bytes) (kind old : Kind)
  | undeclaredVariable (name : Bytes)
  | badAssignment (name : Bytes) (cause : RuntimeCause)
  | redefinedLabel (name : Bytes)
  | labelNotFound (name : Bytes)
  | stated (text : Bytes)
  deriving DecidableEq, Repr, Inhabited

def RuntimeCause.message : RuntimeCause → Bytes
  | divisionByZero => utf8 "Division by zero!"
  | endOfInput => utf8 "End of input reached!"
  | negative z => Text.Decimal.ofInt z ++ utf8 " is not a natural number"
  | conversion v kind => utf8 "cannot convert " ++ v.describe ++ utf8 " to " ++ kind.name
  | wrongCount expected given =>
      utf8 "Expected " ++ Text.Decimal.ofNat expected ++ utf8 " arguments, got " ++
        Text.Decimal.ofNat given ++ utf8 "!"
  | tooFewArguments least given =>
      utf8 "Expected at least " ++ Text.Decimal.ofInt least ++ utf8 " arguments, got " ++
        Text.Decimal.ofNat given ++ utf8 "!"
  | argument position cause =>
      utf8 "Argument " ++ Text.Decimal.ofNat position ++ utf8 ": " ++ cause.message
  | unsupportedArgument kind position =>
      utf8 "Unsupported argument type " ++ kind.name ++ utf8 " at position " ++
        Text.Decimal.ofNat position ++ utf8 "!"
  | notANumber text => Text.quote text ++ utf8 " is not a number!"
  | notNatural text =>
      utf8 "Cannot convert " ++ Text.quote text ++ utf8 " to a natural number!"
  | notNumeric text => utf8 "Cannot convert " ++ Text.quote text ++ utf8 " to a number!"
  | exitOutOfRange code =>
      utf8 "Number " ++ Text.Decimal.ofInt code ++ utf8 " is out of range for an exit code!"
  | unknownFunction name => utf8 "Function \"" ++ name ++ utf8 "\" not found!"
  | undefinedVariable name => utf8 "Variable \"" ++ name ++ utf8 "\" accessed while undefined!"
  | redefinedVariable name kind old =>
      utf8 "Redefinition of variable \"" ++ name ++ utf8 "\" with a different type (" ++
        kind.name ++ utf8 ", was " ++ old.name ++ utf8 ")!"
  | undeclaredVariable name => utf8 "Variable \"" ++ name ++ utf8 "\" assigned before definition!"
  | badAssignment name cause =>
      utf8 "Cannot assign to \"" ++ name ++ utf8 "\": " ++ cause.message
  | redefinedLabel name => utf8 "Redefinition of label \"" ++ name ++ utf8 "\"!"
  | labelNotFound name => utf8 "Label \"" ++ name ++ utf8 "\" not found!"
  | stated text => text

end LineScript
