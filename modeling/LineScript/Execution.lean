import LineScript.Expression
import LineScript.Target
import LineScript.Yaml.Encoder

namespace LineScript

structure Config where
  name : Bytes := []
  /-- Whether every statement is announced before it is executed and the state is dumped at the end
  of a run. -/
  debug : Bool := false
  /-- Whether a printed value always ends its line. -/
  interactive : Bool := false
  encoder : Yaml.Encoder := .block
  deriving Inhabited

/-- What the program is called in messages; a program without a name comes from the standard
input. -/
def Config.file (config : Config) : Bytes :=
  if config.name = [] then utf8 "<stdin>" else config.name

namespace Statement

def announcement (statement : Statement) : Bytes :=
  utf8 "RUN " ++ Text.Decimal.ofInt statement.number ++ utf8 "\t| " ++ statement.text ++ utf8 "\n"

/-- Announces the statement if the configuration asks for it. A refused write has no effect. -/
def announce (config : Config) (context : Context) (statement : Statement) : Context :=
  if config.debug then
    { context with streams := (context.streams.writeErr statement.announcement).1 }
  else context

/-- What may follow the expression of a statement: nothing, or one handler. -/
def checkEnd : List Token → Except Failure Unit
  | [] => .ok ()
  | token :: rest =>
      if token.type = .onFail then
        match Expression.skipHandler token rest with
        | ⟨_, .error failure⟩ => .error failure
        | ⟨length, .ok ()⟩ =>
            match rest.drop (length - 1) with
            | [] => .ok ()
            | token :: _ => .error (.malformed token (.unexpectedToken token.lexeme))
      else .error (.malformed token (.unexpectedToken token.lexeme))

def printedText (config : Config) (value : Value) : Bytes :=
  let text := value.text
  if config.interactive ∧ text ≠ [] ∧ text.getLast? ≠ some Text.lineFeed then
    text ++ [Text.lineFeed]
  else text

/-- Puts the value of a statement where it belongs: into its target, or onto the standard output. -/
def deliver (config : Config) (context : Context) (statement : Statement)
    (target : Option Target) (value : Value) : Context × Except Failure Unit :=
  match target with
  | none =>
      match context.streams.writeOut (printedText config value) with
      | (streams, none) => ({ context with streams }, .ok ())
      | (streams, some reason) => ({ context with streams }, .error (.stream reason))
  | some target =>
      let stored := match target.kind with
        | some kind => context.store.declare target.name kind value
        | none => context.store.assign target.name value
      match stored with
      | .ok store => ({ context with store }, .ok ())
      | .error cause => (context, .error (.runtime statement.tokens.head? cause))

def missingExpression (statement : Statement) : Failure :=
  match statement.tokens.getLast? with
  | some token => .malformed token .missingExpression
  | none => .misuse

/-- Executes a statement; the label to go on at comes back if there is one. -/
def execute (config : Config) (context : Context) (statement : Statement) :
    Context × Except Failure (Option Bytes) :=
  let context := statement.announce config context
  match Target.split statement.tokens with
  | .error failure => (context, .error failure)
  | .ok (target, start) =>
      match statement.tokens.drop start with
      | [] => (context, .error statement.missingExpression)
      | tokens =>
          match Expression.evaluate context tokens with
          | (context, ⟨_, .error failure⟩) => (context, .error failure)
          | (context, ⟨length, .ok outcome⟩) =>
              match checkEnd (tokens.drop length) with
              | .error failure => (context, .error failure)
              | .ok () =>
                  match deliver config context statement target outcome.value with
                  | (context, .error failure) => (context, .error failure)
                  | (context, .ok ()) => (context, .ok outcome.jump)

end Statement

end LineScript
