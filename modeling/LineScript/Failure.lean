import LineScript.Cause
import LineScript.Statement

namespace LineScript

structure Location where
  file : Bytes
  line : Int := 0
  source : Bytes := []
  column : Int := 0
  deriving DecidableEq, Repr, Inhabited

inductive Failure where
  | malformed (token : Option Token) (cause : SyntaxCause)
  /-- A well-formed statement cannot be executed. Only this failure can be handled. -/
  | runtime (token : Option Token) (cause : RuntimeCause)
  | exit (code : Int)
  | stream (reason : Bytes)
  | unreadable (line : Nat) (reason : Bytes)
  | ended
  | undumpable
  | dumpRefused (reason : Bytes)
  /-- An operation was used on something it is not meant for. -/
  | misuse
  | stated (text : Bytes)
  | located (location : Location) (failure : Failure)
  deriving DecidableEq, Repr, Inhabited

namespace Failure

/-- The failure itself, without the places it was located at. -/
def root : Failure → Failure
  | located _ failure => failure.root
  | failure => failure

def isRecoverable (failure : Failure) : Bool :=
  match failure.root with
  | runtime .. => true
  | _ => false

def token? (failure : Failure) : Option Token :=
  match failure.root with
  | malformed token _ => token
  | runtime token _ => token
  | _ => none

/-- The message of a malformed statement or a failed execution, without its place. -/
def bareMessage? (failure : Failure) : Option Bytes :=
  match failure.root with
  | malformed _ cause => some cause.message
  | runtime _ cause => some cause.message
  | _ => none

def atToken (token : Option Token) (message : Bytes) : Bytes :=
  match token with
  | none => message
  | some token =>
      utf8 "[line " ++ Text.Decimal.ofInt token.line ++ utf8 "] Error at '" ++ token.lexeme ++
        utf8 "': " ++ message

def describe : Failure → Bytes
  | malformed token cause => atToken token cause.message
  | runtime token cause => atToken token cause.message
  | exit code => utf8 "exit status " ++ Text.Decimal.ofInt code
  | stream reason => utf8 "I/O error: " ++ reason
  | unreadable line reason =>
      utf8 "cannot read line " ++ Text.Decimal.ofNat line ++ utf8 ": " ++ reason
  | ended => utf8 "EOF"
  | undumpable => utf8 "yaml: cannot marshal invalid UTF-8 data as !!str"
  | dumpRefused reason => utf8 "yaml: write error: " ++ reason
  | misuse => utf8 "misuse of an operation"
  | stated text => text
  | located location failure =>
      location.file ++ utf8 ":" ++ Text.Decimal.ofInt location.line ++ utf8 ": " ++
        (failure.bareMessage?.getD failure.describe)

def message : Failure → Bytes
  | located _ failure => failure.bareMessage?.getD failure.describe
  | malformed _ cause => cause.message
  | runtime _ cause => cause.message
  | failure => failure.describe

/-- The place of a failure in a statement: the line of the token at fault when the statement has
that line, and otherwise its first line. -/
def place (file : Bytes) (statement : Option Statement) (failure : Failure) : Location :=
  match statement with
  | none => { file }
  | some statement =>
      let first : Location :=
        { file, line := statement.number, source := statement.source.headD [] }
      match failure.token? with
      | none => first
      | some token =>
          match statement.sourceLine? token.line with
          | none => first
          | some source => { file, line := token.line, source, column := token.column }

def locate (file : Bytes) (statement : Option Statement) (failure : Failure) : Failure :=
  located (failure.place file statement) failure

end Failure

end LineScript
