import LineScript.Text.Decimal
import LineScript.Text.Quoted

namespace LineScript.Command

structure Switch where
  name : Bytes
  letter? : Option UInt8 := none
  purpose : Bytes
  deriving DecidableEq, Repr, Inhabited

def Switch.forms (switch : Switch) : Bytes :=
  match switch.letter? with
  | some letter => utf8 "-" ++ [letter] ++ utf8 ", --" ++ switch.name
  | none => utf8 "--" ++ switch.name

inductive UsageError where
  | badForm (argument : Bytes)
  | unknownSwitch (name : Bytes)
  /-- An unknown letter at the start of what is left of a group of letters. -/
  | unknownLetter (letters : Bytes)
  | badValue (switch : Switch) (value : Bytes)
  | tooManyScripts (count : Nat)
  | unexpected (argument command : Bytes)
  | nothingToComplete
  deriving DecidableEq, Repr, Inhabited

/-- The character that an unknown letter is shown as: the byte itself in ASCII, and otherwise the
first byte of its own two-byte form. -/
def shownLetter (b : UInt8) : Char :=
  if b < 0x80 then Char.ofNat b.toNat
  else if b < 0xc0 then '\u00c2'
  else '\u00c3'

def UsageError.message : UsageError → Bytes
  | badForm argument => utf8 "bad flag syntax: " ++ argument
  | unknownSwitch name => utf8 "unknown flag: --" ++ name
  | unknownLetter letters =>
      utf8 "unknown shorthand flag: " ++ Text.quoteChar (shownLetter (letters.headD 0)) ++
        utf8 " in -" ++ letters
  | badValue switch value =>
      utf8 "invalid argument " ++ Text.quote value ++ utf8 " for " ++ Text.quote switch.forms ++
        utf8 " flag: strconv.ParseBool: parsing " ++ Text.quote value ++ utf8 ": invalid syntax"
  | tooManyScripts count =>
      utf8 "accepts at most 1 arg(s), received " ++ Text.Decimal.ofNat count
  | unexpected argument command =>
      utf8 "unknown command " ++ Text.quote argument ++ utf8 " for " ++ Text.quote command
  | nothingToComplete => utf8 "requires at least 1 arg(s), only received 0"

def parseBool? (word : Bytes) : Option Bool :=
  if ["1", "t", "T", "true", "TRUE", "True"].any (utf8 · = word) then some true
  else if ["0", "f", "F", "false", "FALSE", "False"].any (utf8 · = word) then some false
  else none

structure Options where
  /-- The switches that have been set, by name, the latest first. -/
  settings : List (Bytes × Bool) := []
  arguments : List Bytes := []
  ended : Bool := false
  deriving DecidableEq, Repr, Inhabited

namespace Options

def isSet (options : Options) (name : Bytes) : Bool :=
  (options.settings.lookup name).isSome

def isOn (options : Options) (name : Bytes) : Bool :=
  options.settings.lookup name = some true

def set (options : Options) (switch : Switch) (on : Bool) : Options :=
  { options with settings := (switch.name, on) :: options.settings }

def setTo (options : Options) (switch : Switch) (value : Bytes) : Except UsageError Options :=
  match parseBool? value with
  | some on => .ok (options.set switch on)
  | none => .error (.badValue switch value)

/-- Takes an argument after two dashes: the name of a switch, perhaps with a value after an equals
sign. -/
def takeName (switches : List Switch) (options : Options) (text : Bytes) :
    Except UsageError Options :=
  let equals := '='.toUInt8
  let name := text.takeWhile (· ≠ equals)
  let rest := text.dropWhile (· ≠ equals)
  if name = [] ∨ text.head? = some '-'.toUInt8 then .error (.badForm (utf8 "--" ++ text))
  else
    match switches.find? (·.name = name), rest with
    | none, _ => .error (.unknownSwitch name)
    | some switch, [] => .ok (options.set switch true)
    | some switch, _ :: value => options.setTo switch value

/-- Takes an argument after one dash: letters of switches, the last perhaps with a value after an
equals sign. Letters from `test.` on are passed over. -/
def takeLetters (switches : List Switch) (options : Options) : Bytes → Except UsageError Options
  | [] => .ok options
  | letter :: rest =>
      if (utf8 "test.").isPrefixOf (letter :: rest) then .ok options
      else
        match switches.find? (·.letter? = some letter), rest with
        | none, _ => .error (.unknownLetter (letter :: rest))
        | some switch, mark :: b :: value =>
            if mark = '='.toUInt8 then options.setTo switch (b :: value)
            else takeLetters switches (options.set switch true) (mark :: b :: value)
        | some switch, rest => takeLetters switches (options.set switch true) rest

def take (switches : List Switch) (options : Options) : List Bytes → Except UsageError Options
  | [] => .ok options
  | argument :: rest =>
      let dash := '-'.toUInt8
      match argument with
      | a :: b :: text =>
          if a ≠ dash then
            take switches { options with arguments := options.arguments ++ [argument] } rest
          else if b ≠ dash then
            match takeLetters switches options (b :: text) with
            | .ok options => take switches options rest
            | .error error => .error error
          else if text = [] then
            .ok { options with arguments := options.arguments ++ rest, ended := true }
          else
            match takeName switches options text with
            | .ok options => take switches options rest
            | .error error => .error error
      | _ => take switches { options with arguments := options.arguments ++ [argument] } rest

def parse (switches : List Switch) (arguments : List Bytes) : Except UsageError Options :=
  take switches {} arguments

end Options

end LineScript.Command
