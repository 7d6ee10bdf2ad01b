import LineScript.Context
import LineScript.Contract
import LineScript.Failure

/-!
The functions of the language. Each has a name, a contract for its arguments and a meaning, which is
defined for arguments that satisfy the contract.
-/

namespace LineScript

inductive Builtin where
  | add | sub | mul | div
  | less | greater | atMost | atLeast
  | equal | and | or | not
  | input | parseInt | parseNat | parseNum
  | go | goIf
  | printErr | printOut
  | cat | cats | line | lines
  | exit
  deriving DecidableEq, Repr, Inhabited

inductive Fault where
  | cause (why : RuntimeCause)
  | exit (code : Nat)
  | stream (reason : Bytes)
  /-- The arguments do not satisfy the contract of the function. -/
  | misuse
  deriving DecidableEq, Repr, Inhabited

namespace Builtin

def all : List Builtin :=
  [mul, add, sub, div, less, atMost, equal, greater, atLeast, and, cat, cats, printErr, exit, go,
    goIf, input, parseInt, line, lines, parseNat, not, parseNum, or, printOut]

def name : Builtin → Bytes
  | add => utf8 "+"
  | sub => utf8 "-"
  | mul => utf8 "*"
  | div => utf8 "/"
  | less => utf8 "<"
  | greater => utf8 ">"
  | atMost => utf8 "<="
  | atLeast => utf8 ">="
  | equal => utf8 "="
  | and => utf8 "and"
  | or => utf8 "or"
  | not => utf8 "not"
  | input => utf8 "in"
  | parseInt => utf8 "int"
  | parseNat => utf8 "nat"
  | parseNum => utf8 "num"
  | go => utf8 "go"
  | goIf => utf8 "goif"
  | printErr => utf8 "err"
  | printOut => utf8 "out"
  | cat => utf8 "cat"
  | cats => utf8 "cats"
  | line => utf8 "line"
  | lines => utf8 "lines"
  | exit => utf8 "exit"

def ofName? (name : Bytes) : Option Builtin :=
  all.find? fun function => function.name = name

def contract : Builtin → Contract
  | add | sub | mul | div => .anyOf [.int, .nat]
  | less | greater | atMost | atLeast => .exactly [.int, .int]
  | equal => .variadic 2 [.int, .txt, .lab]
  | and | or => .anyOf [.int]
  | not | exit => .exactly [.int]
  | input => .exactly []
  | parseInt | parseNat | parseNum => .exactly [.txt]
  | go => .exactly [.lab]
  | goIf => .exactly [.int, .lab]
  | printErr | printOut | cat | cats | line | lines => .anyOf [.int, .nat, .txt]

def numbers? : List Value → Option (List Number)
  | [] => some []
  | .num n :: args => (numbers? args).map (n :: ·)
  | _ => none

/-- Folds an operation over numbers from the left, starting with the first of them. -/
def fold (op : Number → Number → Except RuntimeCause Number) (empty : Number) :
    List Number → Except RuntimeCause Number
  | [] => .ok empty
  | first :: rest => rest.foldlM op first

/-- Whether every value equals the one after it. -/
def neighboursEqual : List Value → Bool
  | a :: b :: rest => a.equal b && neighboursEqual (b :: rest)
  | _ => true

def concat (separator ending : Bytes) (args : List Value) : Bytes :=
  Text.join separator (args.map Value.text) ++ ending

def give (v : Value) : Except Fault Outcome :=
  .ok { value := v }

def giveNumber : Except RuntimeCause Number → Except Fault Outcome
  | .ok n => give (.num n)
  | .error cause => .error (.cause cause)

def onNumbers (args : List Value) (f : List Number → Except RuntimeCause Number) :
    Except Fault Outcome :=
  match numbers? args with
  | some ns => giveNumber (f ns)
  | none => .error .misuse

def compared (holds : Ordering → Bool) : List Value → Except Fault Outcome
  | [.num a, .num b] => give (.num (.ofBool (holds (a.compare b))))
  | _ => .error .misuse

def readInt (text : Bytes) : Except RuntimeCause Number :=
  match Number.parse? text with
  | some n => .ok (.int n.toInt)
  | none => .error (.notANumber text)

def readNat (text : Bytes) : Except RuntimeCause Number :=
  match Number.parse? text with
  | none => .error (.notANumber text)
  | some n =>
      match Number.natural n.toInt with
      | .ok n => .ok n
      | .error _ => .error (.notNatural text)

def readNum (text : Bytes) : Except RuntimeCause Number :=
  match Number.parse? text with
  | some n => .ok n
  | none => .error (.notNumeric text)

def onText (f : Bytes → Except RuntimeCause Number) : List Value → Except Fault Outcome
  | [.txt text] => giveNumber (f text)
  | _ => .error .misuse

/-- A line without the line feed and the carriage return before it that end it. -/
def inputText (text : Bytes) : Bytes :=
  Text.dropEnd Text.carriageReturn (Text.dropEnd Text.lineFeed text)

def readOutcome : Read → Except Fault Outcome
  | .line text => give (.txt (inputText text))
  | .ended => .error (.cause .endOfInput)
  | .failed reason => .error (.stream reason)

def writeOutcome : Option Bytes → Except Fault Outcome
  | none => give .empty
  | some reason => .error (.stream reason)

def exitOutcome (code : Int) : Fault :=
  if 0 ≤ code ∧ code ≤ 255 then .exit code.toNat else .cause (.exitOutOfRange code)

def apply (function : Builtin) (streams : Streams) (args : List Value) :
    Streams × Except Fault Outcome :=
  match function with
  | add => (streams, onNumbers args (fold (fun a b => .ok (a.add b)) (.nat 0)))
  | sub => (streams, onNumbers args (fold (fun a b => .ok (a.sub b)) (.nat 0)))
  | mul => (streams, onNumbers args (fold (fun a b => .ok (a.mul b)) (.nat 1)))
  | div => (streams, onNumbers args (fold Number.div (.nat 0)))
  | less => (streams, compared Ordering.isLT args)
  | greater => (streams, compared Ordering.isGT args)
  | atMost => (streams, compared Ordering.isLE args)
  | atLeast => (streams, compared Ordering.isGE args)
  | equal => (streams, give (.num (.ofBool (neighboursEqual args))))
  | and => (streams, onNumbers args fun ns => .ok (.ofBool (ns.all Number.isTrue)))
  | or => (streams, onNumbers args fun ns => .ok (.ofBool (ns.any Number.isTrue)))
  | not =>
      match args with
      | [.num n] => (streams, give (.num (.ofBool (!n.isTrue))))
      | _ => (streams, .error .misuse)
  | input =>
      let (streams, answer) := streams.readInput
      (streams, readOutcome answer)
  | parseInt => (streams, onText readInt args)
  | parseNat => (streams, onText readNat args)
  | parseNum => (streams, onText readNum args)
  | go =>
      match args with
      | [.lab name] => (streams, .ok (.jumpTo .empty name))
      | _ => (streams, .error .misuse)
  | goIf =>
      match args with
      | [.num n, .lab name] =>
          (streams, if n.isTrue then .ok (.jumpTo .empty name) else give .empty)
      | _ => (streams, .error .misuse)
  | printErr =>
      let (streams, refusal) := streams.writeErr (concat [] (utf8 "\n") args)
      (streams, writeOutcome refusal)
  | printOut =>
      let (streams, refusal) := streams.writeOut (concat [] (utf8 "\n") args)
      (streams, writeOutcome refusal)
  | cat => (streams, give (.txt (concat [] [] args)))
  | cats => (streams, give (.txt (concat (utf8 " ") [] args)))
  | line => (streams, give (.txt (concat [] (utf8 "\n") args)))
  | lines => (streams, give (.txt (concat (utf8 " ") (utf8 "\n") args)))
  | exit =>
      match args with
      | [.num n] => (streams, .error (exitOutcome n.toInt))
      | _ => (streams, .error .misuse)

end Builtin

def Fault.toFailure (token : Token) : Fault → Failure
  | .cause why => .runtime token why
  | .exit code => .exit code
  | .stream reason => .stream reason
  | .misuse => .misuse

/-- Calls the function that a token names. Numbers come back in their canonical variant. -/
def Context.call (context : Context) (token : Token) (args : List Value) :
    Context × Except Failure Outcome :=
  match Builtin.ofName? token.text with
  | none => (context, .error (.runtime token (.unknownFunction token.text)))
  | some function =>
      match function.contract.check args with
      | .error cause => (context, .error (.runtime token cause))
      | .ok args =>
          let (streams, result) := function.apply context.streams args
          let context := { context with streams }
          match result with
          | .ok outcome => (context, .ok { outcome with value := outcome.value.normalize })
          | .error fault => (context, .error (fault.toFailure token))

end LineScript
