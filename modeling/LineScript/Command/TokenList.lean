import LineScript.Command.Interpreter

namespace LineScript.Command

def listStatement (statement : Statement) : Bytes :=
  utf8 "line " ++ Text.Decimal.ofInt statement.number ++ utf8 ": " ++ statement.text ++
    utf8 "\n" ++ statement.tokens.flatMap fun token => utf8 "\t" ++ token.describe ++ utf8 "\n"

/-- The list of what can be read from a source. What has been read of a statement that fails is
listed as well. -/
def listSource (source : Source) : Finished :=
  let (statements, last) := Scanner.scanAll {} source
  let listed := statements.flatMap listStatement
  match last.result with
  | .failed part failure =>
      { status := 65
        stdout := listed ++ listStatement part
        stderr := failure.describe ++ utf8 "\n" }
  | _ => { status := 0, stdout := listed }

def listTokens (files : Files) (stdin : Bytes) : (arguments : List Bytes) → Finished
  | [] => listSource (Source.ofBytes stdin)
  | [path] =>
      match files.openPath path with
      | .error reason => { status := 1, stderr := reason ++ utf8 "\n" }
      | .ok source => listSource source
  | _ => { status := 64, stdout := utf8 "Usage: runk-tokens [script]\n" }

end LineScript.Command
