import LineScript.Value.Arithmetic

namespace LineScript

inductive Contract where
  /-- At least so many arguments, each of one of the kinds. -/
  | variadic (least : Int) (kinds : List Kind)
  /-- One argument for each kind, in order. -/
  | exactly (kinds : List Kind)
  deriving DecidableEq, Repr, Inhabited

namespace Contract

abbrev anyOf (kinds : List Kind) : Contract :=
  variadic 0 kinds

/-- A value as it stands when its own kind is among those listed, and otherwise converted into the
first kind of the list that takes it. -/
def fit? (kinds : List Kind) (v : Value) : Option Value :=
  if v.kind ∈ kinds then some v else kinds.findSome? v.coerce?

/-- Fits every argument into one of the kinds; the first of them stands at the given position. -/
def fitAll (kinds : List Kind) : Nat → List Value → Except RuntimeCause (List Value)
  | _, [] => .ok []
  | position, v :: vs =>
      match fit? kinds v with
      | none => .error (.unsupportedArgument v.kind position)
      | some w => (fitAll kinds (position + 1) vs).map (w :: ·)

def coerceAll : Nat → List Kind → List Value → Except RuntimeCause (List Value)
  | position, kind :: kinds, v :: vs =>
      match v.coerce kind with
      | .error cause => .error (.argument position cause)
      | .ok w => (coerceAll (position + 1) kinds vs).map (w :: ·)
  | _, _, _ => .ok []

/-- The arguments converted as the contract asks. -/
def check : Contract → List Value → Except RuntimeCause (List Value)
  | variadic least kinds, args =>
      if (args.length : Int) < least then .error (.tooFewArguments least args.length)
      else fitAll kinds 1 args
  | exactly kinds, args =>
      if args.length ≠ kinds.length then .error (.wrongCount kinds.length args.length)
      else coerceAll 1 kinds args

def describe : Contract → Bytes
  | variadic least kinds =>
      let kinds := utf8 "[" ++ Text.join (utf8 " ") (kinds.map Kind.name) ++ utf8 "]"
      if 0 < least then utf8 "at least " ++ Text.Decimal.ofInt least ++ utf8 " of " ++ kinds
      else utf8 "any of " ++ kinds
  | exactly kinds =>
      utf8 "exactly [" ++ Text.join (utf8 " ") (kinds.map Kind.name) ++ utf8 "]"

example : describe (anyOf [.int, .nat]) = utf8 "any of [Int Nat]" := by decide

end Contract

end LineScript
