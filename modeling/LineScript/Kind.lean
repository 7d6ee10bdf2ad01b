import LineScript.Text.Decimal

namespace LineScript

inductive Kind where
  | nat
  | int
  | txt
  | lab
  /-- A code that stands for no kind of value. -/
  | unknown (code : Nat)
  deriving DecidableEq, Repr, Inhabited

namespace Kind

def ofCode : Nat → Kind
  | 0 => nat
  | 1 => int
  | 2 => txt
  | 3 => lab
  | code => unknown code

def name : Kind → Bytes
  | nat => utf8 "Nat"
  | int => utf8 "Int"
  | txt => utf8 "Txt"
  | lab => utf8 "Lab"
  | unknown code => utf8 "Kind(" ++ Text.Decimal.ofNat code ++ utf8 ")"

def ofValues : List Kind := [nat, int, txt, lab]

def ofKeyword? (word : Bytes) : Option Kind :=
  ofValues.find? fun kind => kind.name = word

example : ofKeyword? (utf8 "Txt") = some txt ∧ ofKeyword? (utf8 "txt") = none := by decide

end Kind

end LineScript
