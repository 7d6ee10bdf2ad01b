import LineScript.Cause

namespace LineScript

namespace Number

def add (a b : Number) : Number :=
  ofInt (a.toInt + b.toInt)

def sub (a b : Number) : Number :=
  ofInt (a.toInt - b.toInt)

def mul (a b : Number) : Number :=
  ofInt (a.toInt * b.toInt)

/-- The quotient of two numbers, rounded towards zero. -/
def div (a b : Number) : Except RuntimeCause Number :=
  if b.toInt = 0 then .error .divisionByZero else .ok (ofInt (a.toInt.tdiv b.toInt))

def compare (a b : Number) : Ordering :=
  Ord.compare a.toInt b.toInt

def isTrue (n : Number) : Bool :=
  n.toInt != 0

def natural (z : Int) : Except RuntimeCause Number :=
  if z < 0 then .error (.negative z) else .ok (.nat z.toNat)

end Number

def Value.coerce (v : Value) (kind : Kind) : Except RuntimeCause Value :=
  match v.coerce? kind with
  | some w => .ok w
  | none => .error (.conversion v kind)

end LineScript
