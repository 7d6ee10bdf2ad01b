import LineScript.Failure

namespace LineScript

/-- A line with a mark under the given column of the source line. Tabs are kept, so that the mark
stands right however wide they are shown. -/
def caret (source : Bytes) (column : Int) : Bytes :=
  let before := (Text.decode source).take (column - 1).toNat
  Text.encode (before.map fun c => if c = '\t' then '\t' else ' ') ++ utf8 "^"

example : caret (utf8 "a\tbc") 4 = utf8 " \t ^" := by decide

/-- Reports failures and remembers which sorts there were. -/
structure Reporter where
  color : Bool := false
  hadError : Bool := false
  hadRuntimeError : Bool := false
  deriving DecidableEq, Repr, Inhabited

namespace Reporter

def sort (failure : Failure) : Bytes :=
  match failure.root with
  | .malformed .. => utf8 "Syntax Error: "
  | .runtime .. => utf8 "Runtime Error: "
  | _ => utf8 "Error: "

def heading (reporter : Reporter) (failure : Failure) : Bytes :=
  if reporter.color then utf8 "\x1b[1;31m" ++ sort failure ++ utf8 "\x1b[0m" else sort failure

def excerpt : Failure → List Bytes
  | .located location _ =>
      if location.source = [] then []
      else
        let mark :=
          if 0 < location.column then [caret location.source location.column ++ utf8 "\n"] else []
        (location.source ++ utf8 "\n") :: mark
  | _ => []

def lines (reporter : Reporter) (failure : Failure) : List Bytes :=
  (reporter.heading failure ++ failure.describe ++ utf8 "\n") :: excerpt failure

def note (reporter : Reporter) (failure : Failure) : Reporter :=
  if failure.isRecoverable then { reporter with hadRuntimeError := true }
  else { reporter with hadError := true }

/-- The status that a program ends with: the one it asked for, or one for what was reported. -/
def status (reporter : Reporter) (failure : Option Failure) : Int :=
  match failure.map Failure.root with
  | some (.exit code) => code
  | failure =>
      if reporter.hadError then 65
      else if reporter.hadRuntimeError then 70
      else if failure.isSome then 1
      else 0

end Reporter

end LineScript
