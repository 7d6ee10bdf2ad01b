import LineScript.Token

namespace LineScript

/-- A statement and the lines it was read from. -/
structure Statement where
  /-- The number of the first line, counted from one; zero while no line has been read. -/
  number : Int := 0
  source : List Bytes := []
  tokens : List Token := []
  deriving DecidableEq, Repr, Inhabited

namespace Statement

/-- The label that a statement declares: a statement does so when it is a single label. -/
def label? (statement : Statement) : Option Bytes :=
  match statement.tokens with
  | [token] => if token.type = .label then some token.text else none
  | _ => none

def sourceLine? (statement : Statement) (number : Int) : Option Bytes :=
  let offset := number - statement.number
  if offset < 0 then none else statement.source[offset.toNat]?

def text (statement : Statement) : Bytes :=
  Text.join (utf8 " ") (statement.tokens.map Token.lexeme)

end Statement

end LineScript
