import LineScript.Kind
import LineScript.Text.Quoted

namespace LineScript

inductive Number where
  | nat (n : Nat)
  | int (z : Int)
  deriving DecidableEq, Repr, Inhabited

namespace Number

def toInt : Number → Int
  | nat n => n
  | int z => z

/-- The canonical variant of an integer: natural unless it is negative. -/
def ofInt : Int → Number
  | .ofNat n => nat n
  | .negSucc n => int (.negSucc n)

def ofBool (b : Bool) : Number :=
  nat b.toNat

def normalize (n : Number) : Number :=
  ofInt n.toInt

def kind : Number → Kind
  | nat _ => .nat
  | int _ => .int

def text (n : Number) : Bytes :=
  Text.Decimal.ofInt n.toInt

/-- Reads a decimal number into its canonical variant. -/
def parse? (text : Bytes) : Option Number :=
  (Text.Decimal.toInt? text).map ofInt

@[simp]
theorem toInt_ofInt (z : Int) : (ofInt z).toInt = z := by
  cases z <;> rfl

end Number

inductive Value where
  | num (n : Number)
  | txt (text : Bytes)
  | lab (name : Bytes)
  deriving DecidableEq, Repr, Inhabited

namespace Value

abbrev nat (n : Nat) : Value :=
  num (.nat n)

abbrev int (z : Int) : Value :=
  num (.int z)

def empty : Value :=
  txt []

def kind : Value → Kind
  | num n => n.kind
  | txt _ => .txt
  | lab _ => .lab

def text : Value → Bytes
  | num n => n.text
  | txt text => text
  | lab name => utf8 "!" ++ name

/-- A value together with its kind, a text between quotes. -/
def describe (v : Value) : Bytes :=
  let shown := match v with
    | txt text => Text.quote text
    | v => v.text
  v.kind.name ++ utf8 "(" ++ shown ++ utf8 ")"

example : describe (.txt (utf8 "a\"b")) = utf8 "Txt(\"a\\\"b\")" := by decide

def describe? : Option Value → Bytes
  | some v => v.describe
  | none => utf8 "<nil>"

def normalize : Value → Value
  | num n => num n.normalize
  | v => v

def sameKind (a b : Value) : Bool :=
  a.kind = b.kind

/-- Whether two values are equal: numbers by what they stand for, texts and labels only within
their own kind. -/
def equal : Value → Value → Bool
  | num a, num b => a.toInt = b.toInt
  | txt a, txt b => a = b
  | lab a, lab b => a = b
  | _, _ => false

/-- The value as one of the given kind, if that keeps what it stands for: integers that are not
negative and natural numbers move into each other, and every value is of its own kind. -/
def coerce? : Value → Kind → Option Value
  | num n, .int => some (.int n.toInt)
  | num (.nat n), .nat => some (.nat n)
  | num (.int (.ofNat n)), .nat => some (.nat n)
  | txt text, .txt => some (.txt text)
  | lab name, .lab => some (.lab name)
  | _, _ => none

theorem coerce?_kind (v : Value) : v.coerce? v.kind = some v := by
  cases v with
  | num n => cases n <;> rfl
  | txt => rfl
  | lab => rfl

end Value

end LineScript
