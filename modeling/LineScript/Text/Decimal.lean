import LineScript.Text.Bytes

namespace LineScript.Text.Decimal

def ofNat (n : Nat) : Bytes :=
  encode (Nat.toDigits 10 n)

def ofInt : Int → Bytes
  | .ofNat n => ofNat n
  | .negSucc n => '-'.toUInt8 :: ofNat (n + 1)

example : ofInt (-120) = utf8 "-120" ∧ ofInt 0 = utf8 "0" := by decide

def isDigit (b : UInt8) : Bool :=
  '0'.toUInt8 ≤ b && b ≤ '9'.toUInt8

/-- The number that a sequence of digits continues `n` to. -/
def extend (n : Nat) (digits : Bytes) : Nat :=
  digits.foldl (fun n b => 10 * n + (b.toNat - '0'.toNat)) n

def toNat? (text : Bytes) : Option Nat :=
  if text ≠ [] ∧ text.all isDigit then some (extend 0 text) else none

/-- Reads one or more digits after an optional sign. -/
def toInt? : Bytes → Option Int
  | [] => none
  | b :: rest =>
      if b = '+'.toUInt8 then (toNat? rest).map Int.ofNat
      else if b = '-'.toUInt8 then (toNat? rest).map fun n => -Int.ofNat n
      else (toNat? (b :: rest)).map Int.ofNat

example : toInt? (utf8 "+007") = some 7 ∧ toInt? (utf8 "-0") = some 0 := by decide

example : toInt? (utf8 "") = none ∧ toInt? (utf8 "+-1") = none ∧ toInt? (utf8 "1_0") = none := by
  decide

end LineScript.Text.Decimal
