import LineScript.Command.Completion
import LineScript.Command.Help

namespace LineScript.Command

inductive Page where
  | help (action : Action)
  | choices (completion : Completion) (described : Bool)
  deriving DecidableEq, Repr, Inhabited

namespace Page

def text : Page → Bytes
  | help action => action.helpText
  | choices completion described => completion.listing described

def remark : Page → Bytes
  | help _ => []
  | choices completion _ => completion.remark

end Page

inductive Request where
  | tell (page : Page)
  /-- The script that brings completion to a shell, with descriptions of the choices or without. -/
  | script (shell : Shell) (described : Bool)
  /-- A script to run, or the standard input without one. -/
  | run (script : Option Bytes) (debug interactive : Bool)
  deriving DecidableEq, Repr, Inhabited

namespace Request

/-- What is asked for with the options of an action. A request for help comes before the count of
the arguments. -/
def ofOptions (action : Action) (options : Options) : Except UsageError Request :=
  if options.isOn action.help.name then .ok (.tell (.help action))
  else
    match action, options.arguments with
    | .interpret, [] =>
        .ok (.run none (options.isOn Action.debug.name) (options.isOn Action.interactive.name))
    | .interpret, [path] =>
        .ok (.run (some path) (options.isOn Action.debug.name)
          (options.isOn Action.interactive.name))
    | .interpret, paths => .error (.tooManyScripts paths.length)
    | .completion, _ => .ok (.tell (.help .completion))
    | .script shell, [] => .ok (.script shell !(options.isOn Action.noDescriptions.name))
    | .script _, argument :: _ => .error (.unexpected argument action.path)

/-- What is asked for with the arguments of an action. A wrong switch comes before anything else. -/
def ofAction (action : Action) (arguments : List Bytes) : Except UsageError Request :=
  match Options.parse action.switches arguments with
  | .error error => .error error
  | .ok options => ofOptions action options

def completeWord (described : Bool) : Bytes :=
  if described then utf8 "__complete" else utf8 "__completeNoDesc"

def complete (described : Bool) (words : List Bytes) : Except UsageError Request :=
  match words.getLast? with
  | none => .error .nothingToComplete
  | some word => .ok (.tell (.choices (.ofWords words.dropLast word) described))

def known : List Switch := [Action.debug, Action.interactive]

def parse (arguments : List Bytes) : Except UsageError Request :=
  match firstWord? known arguments with
  | none => ofAction .interpret arguments
  | some word =>
      let rest := withoutWord known word arguments
      if word = Action.completion.name then
        let (action, rest) := completionAction rest
        ofAction action rest
      else if word = completeWord true then complete true rest
      else if word = completeWord false then complete false rest
      else ofAction .interpret arguments

end Request

end LineScript.Command
