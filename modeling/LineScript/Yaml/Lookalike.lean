/-!
Texts that a reader of YAML would take for something else than a text when they stand without
quotes: nothing, truth values, numbers and dates.
-/

namespace LineScript.Yaml.Lookalike

def words : List String :=
  ["", "~", "null", "Null", "NULL", "true", "True", "TRUE", "false", "False", "FALSE",
    ".nan", ".NaN", ".NAN", ".inf", ".Inf", ".INF", "+.inf", "+.Inf", "+.INF",
    "-.inf", "-.Inf", "-.INF"]

def natOf (digits : List Char) : Nat :=
  digits.foldl (fun n c => 10 * n + (c.toNat - '0'.toNat)) 0

def dropSign : List Char → List Char
  | '+' :: rest => rest
  | '-' :: rest => rest
  | text => text

/-- Whether `mantissa * 10 ^ exponent` rounds to a finite number of double precision. A number that
is too small rounds to zero, which is finite. -/
def fitsDouble (mantissa : Nat) (exponent : Int) : Bool :=
  let digits : Int := (Nat.toDigits 10 mantissa).length
  if mantissa = 0 ∨ digits + exponent ≤ 308 then true
  else if 310 < digits + exponent then false
  else
    let limit := Nat.pow 2 1024 - Nat.pow 2 970
    if 0 ≤ exponent then mantissa * Nat.pow 10 exponent.toNat < limit
    else mantissa < limit * Nat.pow 10 (-exponent).toNat

/-- The number that the digits of an exponent stand for: zeros at their start aside, the first five
of them count. -/
def exponentOf (digits : List Char) : Nat :=
  natOf ((digits.dropWhile (· = '0')).take 5)

def exponent? : List Char → Option Int
  | [] => some 0
  | c :: rest =>
      let digits := dropSign rest
      if (c = 'e' ∨ c = 'E') ∧ digits ≠ [] ∧ digits.all Char.isDigit then
        some (if rest.head? = some '-' then -exponentOf digits else exponentOf digits)
      else none

def isDecimal (text : List Char) : Bool :=
  let (whole, rest) := text.span Char.isDigit
  let (fraction, rest) := match rest with
    | '.' :: rest => rest.span Char.isDigit
    | rest => ([], rest)
  match exponent? rest with
  | none => false
  | some exponent =>
      (whole ++ fraction ≠ []) && fitsDouble (natOf (whole ++ fraction)) (exponent - fraction.length)

/-- Whether every underscore stands between two digits; `afterDigit` tells whether a digit comes
before the text. -/
def separatesDigits (afterDigit : Bool) : List Char → Bool
  | [] => true
  | '_' :: rest => afterDigit && rest.head?.any Char.isDigit && separatesDigits false rest
  | c :: rest => separatesDigits c.isDigit rest

def digit? (c : Char) : Option Nat :=
  if c.isDigit then some (c.toNat - '0'.toNat)
  else if 'a' ≤ c ∧ c ≤ 'f' then some (c.toNat - 'a'.toNat + 10)
  else if 'A' ≤ c ∧ c ≤ 'F' then some (c.toNat - 'A'.toNat + 10)
  else none

def readBase? (base : Nat) (text : List Char) : Option Nat :=
  if text = [] then none
  else
    text.foldlM
      (fun n c =>
        match digit? c with
        | some d => if d < base then some (base * n + d) else none
        | none => none)
      0

def magnitude? : List Char → Option Nat
  | ['0'] => some 0
  | '0' :: 'b' :: c :: rest => readBase? 2 (c :: rest)
  | '0' :: 'B' :: c :: rest => readBase? 2 (c :: rest)
  | '0' :: 'o' :: c :: rest => readBase? 8 (c :: rest)
  | '0' :: 'O' :: c :: rest => readBase? 8 (c :: rest)
  | '0' :: 'x' :: c :: rest => readBase? 16 (c :: rest)
  | '0' :: 'X' :: c :: rest => readBase? 16 (c :: rest)
  | '0' :: rest => readBase? 8 rest
  | text => readBase? 10 text

/-- Whether a number after the given sign is an integer of 64 bits, which without a sign may be one
that has no sign bit. -/
def fits64 (sign : Option Char) (n : Nat) : Bool :=
  match sign with
  | none => n < Nat.pow 2 64
  | some '-' => n ≤ Nat.pow 2 63
  | some _ => n < Nat.pow 2 63

def isSigned (read? : List Char → Option Nat) : List Char → Bool
  | '+' :: rest => (read? rest).any (fits64 (some '+'))
  | '-' :: rest => (read? rest).any (fits64 (some '-'))
  | _ => false

/-- Whether a text is an integer of 64 bits in base two, eight, ten or sixteen. After the letter
that tells base two or eight a sign may stand as well. -/
def isInteger (text : List Char) : Bool :=
  (magnitude? text).any (fits64 none) || isSigned magnitude? text ||
    match text with
    | '0' :: 'b' :: rest => isSigned (readBase? 2) rest
    | '0' :: 'o' :: rest => isSigned (readBase? 8) rest
    | _ => false

def field? : List Char → Option (Nat × List Char)
  | a :: b :: rest =>
      if !a.isDigit then none
      else if b.isDigit then some (natOf [a, b], rest)
      else some (natOf [a], b :: rest)
  | [a] => if a.isDigit then some (natOf [a], []) else none
  | [] => none

def fieldBelow? (bound : Nat) (text : List Char) : Option (Nat × List Char) :=
  (field? text).filter fun (n, _) => n < bound

def after? (c : Char) : List Char → Option (List Char)
  | d :: rest => if d = c then some rest else none
  | [] => none

def dropFraction : List Char → List Char
  | c :: d :: rest =>
      if (c = '.' ∨ c = ',') ∧ d.isDigit then rest.dropWhile Char.isDigit else c :: d :: rest
  | text => text

def afterTime? (text : List Char) : Option (List Char) := do
  let (_, rest) ← fieldBelow? 24 text
  let rest ← after? ':' rest
  let (_, rest) ← fieldBelow? 60 rest
  let rest ← after? ':' rest
  let (_, rest) ← fieldBelow? 60 rest
  return dropFraction rest

def isZone : List Char → Bool
  | ['Z'] => true
  | [sign, h, k, ':', m, n] =>
      (sign = '+' || sign = '-') && [h, k, m, n].all Char.isDigit &&
        natOf [h, k] ≤ 24 && natOf [m, n] ≤ 60
  | _ => false

def daysIn (year month : Nat) : Nat :=
  if month = 2 then
    if year % 4 = 0 ∧ (year % 100 ≠ 0 ∨ year % 400 = 0) then 29 else 28
  else if month = 4 ∨ month = 6 ∨ month = 9 ∨ month = 11 then 30
  else 31

/-- Whether what follows a date is nothing, a time with a zone, or spaces and a time without. -/
def isClock : List Char → Bool
  | [] => true
  | 'T' :: rest => (afterTime? rest).any isZone
  | 't' :: rest => (afterTime? rest).any isZone
  | ' ' :: rest => afterTime? (rest.dropWhile (· = ' ')) = some []
  | _ => false

def isDate (text : List Char) : Bool :=
  let (digits, rest) := text.span Char.isDigit
  digits.length = 4 &&
    ((do
      let rest ← after? '-' rest
      let (month, rest) ← field? rest
      let rest ← after? '-' rest
      let (day, rest) ← field? rest
      return 1 ≤ month ∧ month ≤ 12 ∧ 1 ≤ day ∧ day ≤ daysIn (natOf digits) month ∧ isClock rest) :
        Option Bool) = some true

end Lookalike

open Lookalike in
/-- Whether a text without quotes would be taken for something else than a text. -/
def isLookalike (text : List Char) : Bool :=
  words.any (·.toList = text) ||
    match text with
    | [] => true
    | c :: _ =>
        let plain := text.filter (· ≠ '_')
        if c = '.' then separatesDigits false text && isDecimal plain
        else if c.isDigit ∨ c = '+' ∨ c = '-' then
          isDate text || isInteger plain || isDecimal (dropSign plain)
        else false

example : isLookalike "1_000".toList ∧ isLookalike "0x1F".toList ∧ isLookalike ".5e3".toList ∧
    isLookalike "2001-2-3".toList ∧ isLookalike "~".toList := by decide

example : ¬ isLookalike "yes".toList ∧ ¬ isLookalike "12:30:45".toList ∧
    ¬ isLookalike "1e999".toList ∧ ¬ isLookalike "2001-2-30".toList := by decide

end LineScript.Yaml
