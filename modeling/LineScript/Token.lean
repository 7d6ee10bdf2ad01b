import LineScript.Value.Basic

namespace LineScript

inductive TokenType where
  | assign
  | functionStart
  | functionEnd
  | onFail
  | dataType (kind : Kind)
  | text
  | label
  | number
  | reference
  | plain
  deriving DecidableEq, Repr, Inhabited

namespace TokenType

def name : TokenType → Bytes
  | assign => utf8 "ASSIGN"
  | functionStart => utf8 "FUNCTION_START"
  | functionEnd => utf8 "FUNCTION_END"
  | onFail => utf8 "ON_FAIL"
  | dataType _ => utf8 "DATA_TYPE"
  | text => utf8 "TEXT"
  | label => utf8 "LABEL"
  | number => utf8 "NUMBER"
  | reference => utf8 "VARIABLE"
  | plain => utf8 "PLAIN"

def all : List TokenType :=
  [assign, functionStart, functionEnd, onFail, dataType .nat, text, label, number, reference, plain]

/-- The name of the token type with the given code, empty when there is none. -/
def nameOfCode (code : Nat) : Bytes :=
  match all[code]? with
  | some type => type.name
  | none => []

end TokenType

structure Token where
  type : TokenType
  lexeme : Bytes
  /-- What the word stands for: the content of a text, the name of a label or variable, and
  otherwise the word itself. -/
  text : Bytes
  line : Int
  column : Int
  deriving DecidableEq, Repr, Inhabited

namespace Token

def quoteMark : UInt8 := '"'.toUInt8

/-- The type of a word and what it stands for. A number comes first; a word of two bytes or more is
a text between two quotes, a label after an exclamation mark or a variable after a dollar sign. -/
def classifyWord (word : Bytes) : TokenType × Bytes :=
  if (Number.parse? word).isSome then (.number, word)
  else if 2 ≤ word.length ∧ word.head? = some quoteMark ∧ word.getLast? = some quoteMark then
    (.text, word.tail.dropLast)
  else if 2 ≤ word.length ∧ word.head? = some '!'.toUInt8 then (.label, word.tail)
  else if 2 ≤ word.length ∧ word.head? = some '$'.toUInt8 then (.reference, word.tail)
  else if word = utf8 ":" then (.assign, word)
  else if word = utf8 "(" then (.functionStart, word)
  else if word = utf8 ")" then (.functionEnd, word)
  else if word = utf8 "->" then (.onFail, word)
  else
    match Kind.ofKeyword? word with
    | some kind => (.dataType kind, word)
    | none => (.plain, word)

def ofWord (word : Bytes) (line column : Int) : Token :=
  let (type, text) := classifyWord word
  { type, lexeme := word, text, line, column }

example : (ofWord (utf8 "\"a b\"") 1 1).text = utf8 "a b" := by decide

example : (ofWord (utf8 "-7") 1 1).type = .number ∧ (ofWord (utf8 "!") 1 1).type = .plain := by
  decide

def ofWord? (word : Bytes) (line column : Int) : Option Token :=
  if word = [] then none else some (ofWord word line column)

def describe (token : Token) : Bytes :=
  token.type.name ++ utf8 " " ++ Text.quote token.lexeme ++ utf8 " " ++
    Text.Decimal.ofInt token.line ++ utf8 ":" ++ Text.Decimal.ofInt token.column

end Token

end LineScript
