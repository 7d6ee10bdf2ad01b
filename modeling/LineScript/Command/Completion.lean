import LineScript.Command.Action

namespace LineScript.Command

inductive Directive where
  /-- To offer file names when nothing else has been offered. -/
  | default
  | noFiles
  deriving DecidableEq, Repr, Inhabited

namespace Directive

def code : Directive → Nat
  | default => 0
  | noFiles => 4

def name : Directive → Bytes
  | default => utf8 "ShellCompDirectiveDefault"
  | noFiles => utf8 "ShellCompDirectiveNoFileComp"

end Directive

structure Completion where
  choices : List (Bytes × Bytes) := []
  directive : Directive
  problem : Option Bytes := none
  deriving DecidableEq, Repr, Inhabited

namespace Completion

/-- The switch that the text before an equals sign or a space ends with: the name after two dashes
or the last letter. -/
def lastSwitch (text : Bytes) : Bytes :=
  if (utf8 "--").isPrefixOf text then text.drop 2 else text.drop (text.length - 1)

def findSwitch? (switches : List Switch) : Bytes → Option Switch
  | [letter] => switches.find? (·.letter? = some letter)
  | name => switches.find? (·.name = name)

def isSwitch (argument : Bytes) : Bool :=
  let dash := '-'.toUInt8
  match argument with
  | a :: b :: rest => a = dash && (b ≠ dash || rest ≠ [])
  | _ => false

structure Subject where
  arguments : List Bytes
  word : Bytes
  isValue : Bool := false
  /-- The name of a switch that does not exist and would take the word as its value. -/
  unknown : Option Bytes := none
  deriving DecidableEq, Repr, Inhabited

/-- Tells whether the last word of a command line is the value of a switch. A switch takes a value
only after an equals sign. -/
def Subject.of (switches : List Switch) (arguments : List Bytes) (word : Bytes) : Subject :=
  let equals := '='.toUInt8
  let isDashed := word.head? = some '-'.toUInt8
  let isSplit := isDashed && word.contains equals
  let value := (word.dropWhile (· ≠ equals)).drop 1
  let own := if isSplit then lastSwitch (word.takeWhile (· ≠ equals)) else []
  let before := match arguments.getLast? with
    | some argument =>
        if isSwitch argument && !argument.contains equals then lastSwitch argument else []
    | none => []
  if isDashed && !isSplit then { arguments, word }
  else if own = [] && before = [] then { arguments, word := if isSplit then value else word }
  else
    let name := if own = [] then before else own
    match findSwitch? switches name with
    | none => { arguments, word, unknown := some name }
    | some _ =>
        if !isSplit then { arguments, word }
        else
          { arguments := if own = [] then arguments.dropLast else arguments
            word := value
            isValue := true }

/-- The forms of the switches that are not set and start with the word. -/
def switchChoices (switches : List Switch) (options : Options) (word : Bytes) :
    List (Bytes × Bytes) :=
  (switches.filter (!options.isSet ·.name)).flatMap fun switch =>
    let long := utf8 "--" ++ switch.name
    let short := match switch.letter? with
      | some letter => [utf8 "-" ++ [letter]]
      | none => []
    ((long :: short).filter word.isPrefixOf).map fun form => (form, switch.purpose)

def shellChoices (shells : List Shell) (word : Bytes) : List (Bytes × Bytes) :=
  (shells.filter (word.isPrefixOf ·.name)).map fun shell => (shell.name, shell.purpose)

def badArguments (arguments : List Bytes) (error : UsageError) : Bytes :=
  utf8 "Error while parsing flags from args [" ++ Text.join (utf8 " ") arguments ++ utf8 "]: " ++
    error.message

def unknownSwitch (action : Action) (name : Bytes) : Bytes :=
  utf8 "Subcommand '" ++ action.name ++ utf8 "' does not support flag '" ++ name ++ utf8 "'"

def ofArgument (action : Action) (arguments : List Bytes) (word : Bytes) : Completion :=
  match action with
  | .interpret => { directive := .default }
  | _ =>
      { choices := if arguments = [] then shellChoices action.shells word else []
        directive := .noFiles }

def ofAction (action : Action) (arguments : List Bytes) (word : Bytes) : Completion :=
  let subject := Subject.of action.switches arguments word
  match Options.parse action.switches subject.arguments with
  | .error error =>
      { directive := .default, problem := some (badArguments subject.arguments error) }
  | .ok options =>
      match if options.ended then none else subject.unknown with
      | some name => { directive := .default, problem := some (unknownSwitch action name) }
      | none =>
          if options.isSet action.help.name then { directive := .noFiles }
          else if subject.isValue then
            if options.ended then { ofArgument action options.arguments [] with choices := [] }
            else { directive := .default }
          else if subject.word.head? = some '-'.toUInt8 && !subject.word.contains '='.toUInt8 &&
              !options.ended then
            { choices := switchChoices action.switches options subject.word
              directive := .noFiles }
          else ofArgument action options.arguments subject.word

def ofWords (words : List Bytes) (word : Bytes) : Completion :=
  match words with
  | [] => ofAction .interpret [] word
  | first :: rest =>
      if first = Action.completion.name then
        let (action, arguments) := completionAction rest
        ofAction action arguments word
      else ofAction .interpret (first :: rest) word

def listing (completion : Completion) (described : Bool) : Bytes :=
  (completion.choices.flatMap fun (word, description) =>
    word ++ (if described then utf8 "\t" ++ description else []) ++ utf8 "\n") ++
    utf8 ":" ++ Text.Decimal.ofNat completion.directive.code ++ utf8 "\n"

def remark (completion : Completion) : Bytes :=
  let problem := match completion.problem with
    | some problem => utf8 "[Debug] [Error] " ++ problem ++ utf8 "\n"
    | none => []
  problem ++ utf8 "Completion ended with directive: " ++ completion.directive.name ++ utf8 "\n"

end Completion

end LineScript.Command
