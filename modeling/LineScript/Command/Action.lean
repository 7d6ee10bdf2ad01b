import LineScript.Command.Options

/-!
What the command can be asked to do: to interpret a program, or to support the completion of its own
command lines in a shell. The first argument that is no switch tells which, unless it is a script.
-/

namespace LineScript.Command

inductive Shell where
  | bash
  | fish
  | powershell
  | zsh
  deriving DecidableEq, Repr, Inhabited

namespace Shell

def all : List Shell := [bash, fish, powershell, zsh]

def name : Shell → Bytes
  | bash => utf8 "bash"
  | fish => utf8 "fish"
  | powershell => utf8 "powershell"
  | zsh => utf8 "zsh"

def purpose (shell : Shell) : Bytes :=
  utf8 "Generate the autocompletion script for " ++ shell.name

end Shell

inductive Action where
  | interpret
  | completion
  | script (shell : Shell)
  deriving DecidableEq, Repr, Inhabited

namespace Action

def name : Action → Bytes
  | interpret => utf8 "runk"
  | completion => utf8 "completion"
  | script shell => shell.name

def path : Action → Bytes
  | interpret => utf8 "runk"
  | completion => utf8 "runk completion"
  | script shell => utf8 "runk completion " ++ shell.name

def help (action : Action) : Switch where
  name := utf8 "help"
  letter? := some 'h'.toUInt8
  purpose := utf8 "help for " ++ action.name

def debug : Switch where
  name := utf8 "debug"
  purpose := utf8 "trace every executed line and dump the program state at the end"

def interactive : Switch where
  name := utf8 "interactive"
  letter? := some 'i'.toUInt8
  purpose :=
    utf8 "prompt for input and end every printed value with a line break " ++
      utf8 "(default when stdin is a terminal)"

def noDescriptions : Switch where
  name := utf8 "no-descriptions"
  purpose := utf8 "disable completion descriptions"

def switches (action : Action) : List Switch :=
  match action with
  | interpret => [debug, action.help, interactive]
  | completion => [action.help]
  | script _ => [action.help, noDescriptions]

def shells : Action → List Shell
  | completion => Shell.all
  | _ => []

end Action

/-- Whether an argument is a switch that may be followed by a value: one that is not known and holds
no value itself. -/
def expectsValue (known : List Switch) (argument : Bytes) : Bool :=
  let dash := '-'.toUInt8
  !argument.contains '='.toUInt8 &&
    match argument with
    | [a, b] => a = dash && !known.any (·.letter? = some b)
    | a :: b :: name => a = dash && b = dash && !known.any (·.name = name)
    | _ => false

/-- The first argument that is neither a switch nor the value of one. The value of a switch ends the
search if it is the last argument. -/
def firstWord? (known : List Switch) : List Bytes → Option Bytes
  | [] => none
  | argument :: rest =>
      if argument = utf8 "--" then none
      else if expectsValue known argument then
        match rest with
        | _ :: next :: more => firstWord? known (next :: more)
        | _ => none
      else if argument = [] ∨ argument.head? = some '-'.toUInt8 then firstWord? known rest
      else some argument

def withoutWord (known : List Switch) (word : Bytes) : List Bytes → List Bytes
  | [] => []
  | argument :: rest =>
      if argument = utf8 "--" then argument :: rest
      else if expectsValue known argument then
        match rest with
        | value :: more => argument :: value :: withoutWord known word more
        | [] => [argument]
      else if argument = word then rest
      else argument :: withoutWord known word rest

/-- The action that the arguments after `completion` ask for, and the arguments for it. -/
def completionAction (arguments : List Bytes) : Action × List Bytes :=
  match firstWord? [] arguments with
  | none => (.completion, arguments)
  | some word =>
      match Shell.all.find? (·.name = word) with
      | none => (.completion, arguments)
      | some shell => (.script shell, withoutWord [] word arguments)

end LineScript.Command
