import LineScript.Command.Action

namespace LineScript.Command

namespace Shell

def manual : Shell → Bytes
  | bash =>
      utf8 "Generate the autocompletion script for the bash shell.\n\n" ++
        utf8 "This script depends on the 'bash-completion' package.\n" ++
        utf8 "If it is not installed already, " ++
        utf8 "you can install it via your OS's package manager.\n\n" ++
        utf8 "To load completions in your current shell session:\n\n" ++
        utf8 "\tsource <(runk completion bash)\n\n" ++
        utf8 "To load completions for every new session, execute once:\n\n" ++
        utf8 "#### Linux:\n\n" ++
        utf8 "\trunk completion bash > /etc/bash_completion.d/runk\n\n" ++
        utf8 "#### macOS:\n\n" ++
        utf8 "\trunk completion bash > $(brew --prefix)/etc/bash_completion.d/runk\n\n" ++
        utf8 "You will need to start a new shell for this setup to take effect.\n"
  | fish =>
      utf8 "Generate the autocompletion script for the fish shell.\n\n" ++
        utf8 "To load completions in your current shell session:\n\n" ++
        utf8 "\trunk completion fish | source\n\n" ++
        utf8 "To load completions for every new session, execute once:\n\n" ++
        utf8 "\trunk completion fish > ~/.config/fish/completions/runk.fish\n\n" ++
        utf8 "You will need to start a new shell for this setup to take effect.\n"
  | powershell =>
      utf8 "Generate the autocompletion script for powershell.\n\n" ++
        utf8 "To load completions in your current shell session:\n\n" ++
        utf8 "\trunk completion powershell | Out-String | Invoke-Expression\n\n" ++
        utf8 "To load completions for every new session, add the output of the above command\n" ++
        utf8 "to your powershell profile.\n"
  | zsh =>
      utf8 "Generate the autocompletion script for the zsh shell.\n\n" ++
        utf8 "If shell completion is not already enabled in your environment you will need\n" ++
        utf8 "to enable it.  You can execute the following once:\n\n" ++
        utf8 "\techo \"autoload -U compinit; compinit\" >> ~/.zshrc\n\n" ++
        utf8 "To load completions in your current shell session:\n\n" ++
        utf8 "\tsource <(runk completion zsh)\n\n" ++
        utf8 "To load completions for every new session, execute once:\n\n" ++
        utf8 "#### Linux:\n\n" ++
        utf8 "\trunk completion zsh > \"$\x7bfpath[1]\x7d/_runk\"\n\n" ++
        utf8 "#### macOS:\n\n" ++
        utf8 "\trunk completion zsh > $(brew --prefix)/share/zsh/site-functions/_runk\n\n" ++
        utf8 "You will need to start a new shell for this setup to take effect.\n"

def helpLine (shell : Shell) : Bytes :=
  let width := 12
  utf8 "  " ++ shell.name ++ List.replicate (width - shell.name.length) ' '.toUInt8 ++
    shell.purpose ++ utf8 "\n"

end Shell

namespace Action

def manual : Action → Bytes
  | interpret => utf8 "Interpreter for the runk language\n"
  | completion =>
      utf8 "Generate the autocompletion script for runk for the specified shell.\n" ++
        utf8 "See each sub-command's help for details on how to use the generated script.\n"
  | script shell => shell.manual

def usage (action : Action) : Bytes :=
  match action with
  | interpret => action.path ++ utf8 " [flags] [script]"
  | completion => action.path ++ utf8 " [command]"
  | script .bash => action.path
  | script _ => action.path ++ utf8 " [flags]"

/-- The forms of a switch in the help, with the names below each other. -/
def indentForms (switch : Switch) : Bytes :=
  match switch.letter? with
  | some _ => utf8 "  " ++ switch.forms
  | none => utf8 "      " ++ switch.forms

def switchLine (width : Nat) (switch : Switch) : Bytes :=
  let forms := indentForms switch
  forms ++ List.replicate (width - forms.length) ' '.toUInt8 ++ switch.purpose ++ utf8 "\n"

def switchLines (switches : List Switch) : Bytes :=
  let longest := switches.foldl (fun width switch => max width (indentForms switch).length) 0
  switches.flatMap (switchLine (longest + 3))

def helpText (action : Action) : Bytes :=
  let shells :=
    if action.shells.isEmpty then []
    else utf8 "\nAvailable Commands:\n" ++ action.shells.flatMap Shell.helpLine
  let hint :=
    if action.shells.isEmpty then []
    else
      utf8 "\nUse \"" ++ action.usage ++
        utf8 " --help\" for more information about a command.\n"
  action.manual ++ utf8 "\nUsage:\n  " ++ action.usage ++ utf8 "\n" ++ shells ++
    utf8 "\nFlags:\n" ++ switchLines action.switches ++ hint

end Action

end LineScript.Command
