import LineScript.Failure

/-!
The target of a statement: the variable that takes the value of its expression.

    statement = (DATA_TYPE? PLAIN ":")? expression
-/

namespace LineScript

structure Target where
  name : Bytes
  kind : Option Kind := none
  deriving DecidableEq, Repr, Inhabited

/-- The target of a statement, if it has one, and the index that its expression starts at. -/
def Target.split (tokens : List Token) : Except Failure (Option Target × Nat) :=
  match tokens.findIdx? (·.type = .assign), tokens with
  | none, _ => .ok (none, 0)
  | some 1, name :: _ =>
      if name.type = .plain then .ok (some { name := name.text }, 2)
      else .error (.malformed name (.badVariableName name.lexeme))
  | some 2, type :: name :: _ =>
      match type.type with
      | .dataType kind =>
          if name.type = .plain then .ok (some { name := name.text, kind }, 3)
          else .error (.malformed name (.badVariableName name.lexeme))
      | _ => .error (.malformed type (.badVariableType type.lexeme))
  | some index, tokens => .error (.malformed tokens[index]? .badAssignment)

end LineScript
