import LineScript.Yaml.Scalar

namespace LineScript.Yaml

inductive Role where
  | scalar
  | enter
  | leave
  deriving DecidableEq, Repr, Inhabited

structure Step where
  role : Role
  line : Option Nat := none
  text : List Char
  /-- Whether the text is one that YAML can hold. -/
  writable : Bool := true
  deriving DecidableEq, Repr, Inhabited

def endsLine (text : List Char) : Bool :=
  text.getLast?.any isBreak

/-- What a step writes; `fresh` tells whether a line has just been ended or nothing is written. -/
def Step.write (fresh : Bool) (step : Step) : List Char :=
  match step.line with
  | none => step.text
  | some indent => (if fresh then [] else ['\n']) ++ spaces indent ++ step.text

def writeSteps (fresh : Bool) : List Step → List Char
  | [] => []
  | step :: rest =>
      let text := step.write fresh
      text ++ writeSteps (if text = [] then fresh else endsLine text) rest

/-- Whether a step cannot be taken yet when only so many steps after it are known: it begins a
mapping of which neither three further steps nor the end is known. -/
def Step.waits (step : Step) (rest : List Step) : Bool :=
  step.role = .enter && rest.length < 3 && rest.head?.all (·.role ≠ .leave)

def ready : List Step → List Step
  | [] => []
  | step :: rest => if step.waits rest then [] else step :: ready rest

end LineScript.Yaml
