import LineScript.Command.Files
import LineScript.Command.Request
import LineScript.Session

/-!
The interpreter as a command: from its arguments to its output and status. A script is read from its
file and the standard input is its input; without a script both the program and its input come from
the standard input, line by line as each of them asks.
-/

namespace LineScript.Command

structure Finished where
  status : Int
  stdout : Bytes := []
  stderr : Bytes := []
  deriving DecidableEq, Repr, Inhabited

def codePrompt (depth : Int) : Bytes :=
  if depth = 0 then utf8 "runk) "
  else utf8 "runk [nesting: " ++ Text.Decimal.ofInt depth ++ utf8 "]) "

def inputPrompt (_depth : Int) : Bytes := []

def errorLine (message : Bytes) : Bytes :=
  utf8 "Error: " ++ message ++ utf8 "\n"

def refused (error : UsageError) : Finished :=
  { status := 64, stderr := errorLine error.message }

def told (page : Page) : Finished :=
  { status := 0, stdout := page.text, stderr := page.remark }

def unopened (path reason : Bytes) : Finished :=
  { status := 1
    stderr := errorLine (utf8 "cannot read file " ++ Text.quote path ++ utf8 ": " ++ reason) }

def scriptSession (path : Bytes) (script : Source) (stdin : Bytes) (debug interactive : Bool) :
    Session :=
  Session.new { name := path, debug, interactive }
    { program := script, input := some (Source.ofBytes stdin) } false

def stdinSession (stdin : Bytes) (debug interactive : Bool) : Session :=
  Session.new { name := utf8 "<stdin>", debug, interactive }
    { program := Source.ofBytes stdin, input := none } false

def finished (session : Session) (failure : Option Failure) : Finished :=
  { status := session.status failure
    stdout := session.streams.outText
    stderr := session.streams.errText }

def runSession (session : Session) (limit : Nat) : Option Finished :=
  (session.run limit).map fun (session, failure) => finished session failure

/-- What the command does before it runs anything: it ends at once, or there is a session to run.
The scripts for shells come from elsewhere and are not known here. -/
def prepare (files : Files) (stdin : Bytes) (arguments : List Bytes) :
    Option (Finished ⊕ Session) :=
  match Request.parse arguments with
  | .error error => some (.inl (refused error))
  | .ok (.tell page) => some (.inl (told page))
  | .ok (.script ..) => none
  | .ok (.run none debug interactive) => some (.inr (stdinSession stdin debug interactive))
  | .ok (.run (some path) debug interactive) =>
      match files.openPath path with
      | .error reason => some (.inl (unopened path reason))
      | .ok script => some (.inr (scriptSession path script stdin debug interactive))

/-- Runs the command. Nothing comes back for the script of a shell, or when a program has not ended
after so many steps. -/
def interpret (files : Files) (stdin : Bytes) (arguments : List Bytes) (limit : Nat) :
    Option Finished :=
  match prepare files stdin arguments with
  | none => none
  | some (.inl finished) => some finished
  | some (.inr session) => runSession session limit

end LineScript.Command
